import BlockLayers.Proofs.Run

/-!
# `BlockLayers.Proofs.Concludes`: how an operation ends that may be aborted

On a medium with any content at all a call may be aborted, because a
number that the tables tell is too large. `Op.Concludes x s good bad
gone` is `Op.Ends` for such calls: a value satisfies `good`, a fault
satisfies `bad`, and an abort is the end only where `gone` holds.

The rules are those of `Op.Ends`, one for each way in which operations
are put together. The exception is `Concludes.lift_seq`: a checked
computation may be the end, and then it is known what was too large.
-/

set_option autoImplicit false

namespace BlockLayers.Op

variable {σ τ α β : Type}

/-- The operation `x` from the state `s` ends with a value and `good`,
with a fault and `bad`, or with an abort, and then `gone` holds. -/
def Concludes (x : Op σ α) (s : σ) (good : α → σ → Prop) (bad : Fault → σ → Prop)
    (gone : Prop) : Prop :=
  match x s with
  | .ok value after => good value after
  | .error (.fault fault) after => bad fault after
  | .error (.abort _) _ => gone

/-- An operation that is never aborted is not aborted here. -/
theorem Ends.concludes {x : Op σ α} {s : σ} {good : α → σ → Prop} {bad : Fault → σ → Prop}
    {gone : Prop} (h : Ends x s good bad) : Concludes x s good bad gone := by
  rcases h.exists_run with ⟨value, after, hx, hgood⟩ | ⟨fault, after, hx, hbad⟩
  · unfold Concludes
    rwa [hx]
  · unfold Concludes
    rwa [hx]

namespace Concludes

variable {x : Op σ α} {s : σ} {good good' : α → σ → Prop} {bad bad' : Fault → σ → Prop}
  {gone : Prop}

/-- A run is known by its end. -/
theorem of_run (hok : ∀ value after, x s = .ok value after → good value after)
    (hfault : ∀ fault after, x s = .error (.fault fault) after → bad fault after)
    (habort : ∀ abort after, x s = .error (.abort abort) after → gone) :
    Concludes x s good bad gone := by
  unfold Concludes
  -- There are three ways to end, and a condition for each of them.
  cases hx : x s with
  | ok value after => exact hok value after hx
  | error stop after =>
    cases stop with
    | fault fault => exact hfault fault after hx
    | abort abort => exact habort abort after hx

/-- The run itself: it has a good end, a fault and a bad end, or an abort
that had to be. -/
theorem exists_run (h : Concludes x s good bad gone) :
    (∃ value after, x s = .ok value after ∧ good value after) ∨
      (∃ fault after, x s = .error (.fault fault) after ∧ bad fault after) ∨
      ∃ abort after, x s = .error (.abort abort) after ∧ gone := by
  unfold Concludes at h
  split at h
  · exact .inl ⟨_, _, ‹_›, h⟩
  · exact .inr (.inl ⟨_, _, ‹_›, h⟩)
  · exact .inr (.inr ⟨_, _, ‹_›, h⟩)

/-- A run with a value. -/
theorem of_ok {value : α} {after : σ} (hx : x s = .ok value after) (h : good value after) :
    Concludes x s good bad gone := by
  unfold Concludes
  rwa [hx]

/-- A run with a fault. -/
theorem of_fault {fault : Fault} {after : σ} (hx : x s = .error (.fault fault) after)
    (h : bad fault after) : Concludes x s good bad gone := by
  unfold Concludes
  rwa [hx]

/-- A run that was aborted. -/
theorem of_abort {abort : Abort} {after : σ} (hx : x s = .error (.abort abort) after)
    (h : gone) : Concludes x s good bad gone := by
  unfold Concludes
  rwa [hx]

/-- A fault that is the end is one of the bad ends. -/
theorem bad_of {fault : Fault} (h : Concludes x s good bad gone)
    (hx : outcome x s = .error (.fault fault)) : bad fault (Op.next x s) := by
  unfold outcome at hx
  unfold Op.next
  rcases h.exists_run with ⟨_, _, hrun, -⟩ | ⟨_, _, hrun, hbad⟩ | ⟨_, _, hrun, -⟩
  · rw [hrun] at hx
    cases hx
  · rw [hrun] at hx ⊢
    cases hx
    exact hbad
  · rw [hrun] at hx
    cases hx

/-- An abort that is the end says that it had to be. -/
theorem gone_of {abort : Abort} (h : Concludes x s good bad gone)
    (hx : outcome x s = .error (.abort abort)) : gone := by
  unfold outcome at hx
  rcases h.exists_run with ⟨_, _, hrun, -⟩ | ⟨_, _, hrun, -⟩ | ⟨_, _, -, hgone⟩
  · rw [hrun] at hx
    cases hx
  · rw [hrun] at hx
    cases hx
  · exact hgone

/-- Weaker conditions on the end. -/
theorem mono (h : Concludes x s good bad gone)
    (hgood : ∀ value after, good value after → good' value after)
    (hbad : ∀ fault after, bad fault after → bad' fault after) :
    Concludes x s good' bad' gone := by
  rcases h.exists_run with ⟨value, after, hx, hv⟩ | ⟨fault, after, hx, hf⟩ | ⟨_, _, hx, hgone⟩
  · exact .of_ok hx (hgood value after hv)
  · exact .of_fault hx (hbad fault after hf)
  · exact .of_abort hx hgone

/-- The value alone leaves the state as it is. -/
theorem pure {value : α} (h : good value s) :
    Concludes (Pure.pure value : Op σ α) s good bad gone := h

/-- Failing leaves the state as it is. -/
theorem fail {fault : Fault} (h : bad fault s) :
    Concludes (Op.fail fault : Op σ α) s good bad gone := h

/-- Two operations in turn. Where the first is not answered, the second
is not made. -/
theorem bind {f : α → Op σ β} {mid : α → σ → Prop} {good : β → σ → Prop}
    (h : Concludes x s mid bad' gone) (hbad : ∀ fault after, bad' fault after → bad fault after)
    (hgood : ∀ value after, mid value after → Concludes (f value) after good bad gone) :
    Concludes (x >>= f) s good bad gone := by
  rcases h.exists_run with ⟨value, after, hx, hv⟩ | ⟨fault, after, hx, hf⟩ | ⟨_, _, hx, hgone⟩
  · unfold Concludes
    rw [bind_of_ok hx]
    exact hgood value after hv
  · exact .of_fault (bind_of_error hx f) (hbad fault after hf)
  · exact .of_abort (bind_of_error hx f) hgone

/-- Two operations in turn, the faults of the first among those of the
whole. -/
theorem seq {f : α → Op σ β} {mid : α → σ → Prop} {good : β → σ → Prop}
    (h : Concludes x s mid bad gone)
    (hgood : ∀ value after, mid value after → Concludes (f value) after good bad gone) :
    Concludes (x >>= f) s good bad gone :=
  h.bind (fun _ _ hf => hf) hgood

/-- A checked computation, and what follows it where it has a value. It
has one where `fine` holds, and elsewhere an abort is allowed. -/
theorem lift_seq {result : Except Abort α} {f : α → Op σ β} {good : β → σ → Prop} {fine : Prop}
    (hgone : ¬ fine → gone) (hfine : fine → ∃ value, result = .ok value)
    (h : ∀ value, result = .ok value → Concludes (f value) s good bad gone) :
    Concludes (liftM result >>= f) s good bad gone := by
  -- Either there is a value to go on with, or the computation is what an abort is allowed for.
  cases result with
  | ok value => exact h value rfl
  | error abort =>
    refine hgone fun hf => ?_
    obtain ⟨value, hvalue⟩ := hfine hf
    cases hvalue

/-- A refusal under a condition, and what follows where it does not
hold. -/
theorem guard {c : Prop} [Decidable c] {fault : Fault} {f : α → Op σ β} {good : β → σ → Prop}
    {rest : Op σ β} (hbad : c → bad fault s)
    (hrest : ¬ c → Concludes rest s good bad gone) :
    Concludes (if c then (Op.fail fault : Op σ α) >>= f else rest) s good bad gone := by
  -- A refusal is a fault, and never an abort.
  split
  · exact hbad ‹_›
  · exact hrest ‹_›

/-- An operation of the store below a layer. -/
theorem lower {mine : τ} {good : α → τ × σ → Prop} {bad : Fault → τ × σ → Prop}
    (h : Concludes x s (fun value after => good value (mine, after))
      (fun fault after => bad fault (mine, after)) gone) :
    Concludes (Op.lower x) (mine, s) good bad gone := by
  rcases h.exists_run with ⟨_, _, hx, hgood⟩ | ⟨_, _, hx, hbad⟩ | ⟨_, _, hx, hgone⟩
  · exact .of_ok (by rw [Op.lower_apply, hx]) hgood
  · exact .of_fault (by rw [Op.lower_apply, hx]) hbad
  · exact .of_abort (by rw [Op.lower_apply, hx]) hgone

/-- An operation of the store below a layer, and what follows. -/
theorem lower_seq {f : α → Op (τ × σ) β} {mine : τ} {mid : α → σ → Prop} {good : β → τ × σ → Prop}
    {bad : Fault → τ × σ → Prop} (h : Concludes x s mid bad' gone)
    (hbad : ∀ fault after, bad' fault after → bad fault (mine, after))
    (hgood : ∀ value after, mid value after → Concludes (f value) (mine, after) good bad gone) :
    Concludes (Op.lower x >>= f) (mine, s) good bad gone := by
  -- The own state of the layer is the same on every end.
  have hlower : Concludes (Op.lower x) (mine, s)
      (fun value after => after.1 = mine ∧ mid value after.2)
      (fun fault after => after.1 = mine ∧ bad' fault after.2) gone :=
    lower (h.mono (fun _ _ hmid => ⟨rfl, hmid⟩) fun _ _ hfault => ⟨rfl, hfault⟩)
  refine hlower.bind ?_ ?_
  · rintro fault ⟨_, after⟩ ⟨rfl, hfault⟩
    exact hbad fault after hfault
  · rintro value ⟨_, after⟩ ⟨rfl, hmid⟩
    exact hgood value after hmid

/-- An operation of a layer that starts from a given own state, and what
follows. -/
theorem withOwn_seq {x : Op (τ × σ) α} {f : α × τ → Op σ β} {mine : τ} {mid : α → τ × σ → Prop}
    {bad' : Fault → τ × σ → Prop} {good : β → σ → Prop}
    (h : Concludes x (mine, s) mid bad' gone)
    (hbad : ∀ fault after, bad' fault after → bad fault after.2)
    (hgood : ∀ value after, mid value after →
      Concludes (f (value, after.1)) after.2 good bad gone) :
    Concludes (Op.withOwn mine x >>= f) s good bad gone := by
  -- With a fault or an abort the state of the layer is lost.
  have hown : Concludes (Op.withOwn mine x) s (fun value after => mid value.1 (value.2, after))
      (fun fault after => ∃ lost, bad' fault (lost, after)) gone := by
    rcases h.exists_run with ⟨_, _, hx, hv⟩ | ⟨_, after, hx, hf⟩ | ⟨_, _, hx, hgone⟩
    · exact .of_ok (by unfold Op.withOwn; rw [hx]) hv
    · exact .of_fault (by unfold Op.withOwn; rw [hx]) ⟨after.1, hf⟩
    · exact .of_abort (by unfold Op.withOwn; rw [hx]) hgone
  refine hown.bind ?_ ?_
  · rintro fault after ⟨lost, hfault⟩
    exact hbad fault (lost, after) hfault
  · rintro ⟨value, own⟩ after hmid
    exact hgood value (own, after) hmid

/-- The layer's own state, and what follows. -/
theorem own_seq {f : τ → Op (τ × σ) β} {mine : τ} {good : β → τ × σ → Prop}
    {bad : Fault → τ × σ → Prop} (h : Concludes (f mine) (mine, s) good bad gone) :
    Concludes (Op.own >>= f) (mine, s) good bad gone := h

/-- A change of the layer's own state. -/
theorem modifyOwn {f : τ → τ} {mine : τ} {good : Unit → τ × σ → Prop}
    {bad : Fault → τ × σ → Prop} (h : good () (f mine, s)) :
    Concludes (Op.modifyOwn f) (mine, s) good bad gone := h

/-- A change of the layer's own state, and what follows. -/
theorem modifyOwn_seq {f : τ → τ} {g : Unit → Op (τ × σ) β} {mine : τ} {good : β → τ × σ → Prop}
    {bad : Fault → τ × σ → Prop} (h : Concludes (g ()) (f mine, s) good bad gone) :
    Concludes (Op.modifyOwn f >>= g) (mine, s) good bad gone := h

/-- A report, and what follows. -/
theorem note_seq [Journal σ] {event : Event} {f : Unit → Op σ β} {good : β → σ → Prop}
    (h : Concludes (f ()) (Journal.enter event s) good bad gone) :
    Concludes (Op.note event >>= f) s good bad gone := h

/-- A question whether a report would be kept, and what follows. -/
theorem keeps_seq [Journal σ] {level : Level} {f : Bool → Op σ β} {good : β → σ → Prop}
    (h : Concludes (f (Journal.keeps s level)) s good bad gone) :
    Concludes (Op.keeps level >>= f) s good bad gone := h

end Concludes

end BlockLayers.Op
