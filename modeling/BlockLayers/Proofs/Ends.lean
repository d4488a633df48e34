import BlockLayers.Store

/-!
# `BlockLayers.Proofs.Ends`: how an operation ends

`Op.Ends x s good bad` says of the operation `x`, started in the state
`s`, that it is never aborted, that a value and the state with it
satisfy `good`, and that a fault and the state with it satisfy `bad`.
Faults are part of the statement since a state that a refused call
leaves behind is a state in which the next call starts.

One rule for each way in which operations are put together:
`Ends.bind` for two in turn, `Ends.lower` and `Ends.withOwn` for the
layers of a stack, `Ends.attempt` for a fault that is dealt with.
`Ends.mono` weakens both conditions, and `Ends.ok` turns the statement
into an equation where no fault is possible.
-/

set_option autoImplicit false

namespace BlockLayers.Op

variable {σ τ α β : Type}

/-- A look at the state leaves it as it is. -/
theorem get_apply (s : σ) : (get : Op σ σ) s = .ok s s := rfl

/-- What follows an operation that has ended with a value. -/
theorem bind_of_ok {x : Op σ α} {s after : σ} {value : α} (h : x s = .ok value after)
    (f : α → Op σ β) : (x >>= f) s = f value after := by
  rw [bind_apply, h]

/-- Nothing follows an operation that has stopped. -/
theorem bind_of_error {x : Op σ α} {s after : σ} {stop : Stop} (h : x s = .error stop after)
    (f : α → Op σ β) : (x >>= f) s = .error stop after := by
  rw [bind_apply, h]

/-- An operation that reaches its end went through its parts. -/
theorem exists_of_bind_ok {x : Op σ α} {f : α → Op σ β} {s after : σ} {value : β}
    (h : (x >>= f) s = .ok value after) :
    ∃ mid between, x s = .ok mid between ∧ f mid between = .ok value after := by
  rw [bind_apply] at h
  cases hx : x s with
  | ok mid between =>
    rw [hx] at h
    exact ⟨mid, between, rfl, h⟩
  | error stop between =>
    rw [hx] at h
    cases h

/-- A checked computation that reaches its end has a value, and leaves
the state as it is. -/
theorem of_lift_ok {result : Except Abort α} {s after : σ} {value : α}
    (h : (liftM result : Op σ α) s = .ok value after) : result = .ok value ∧ after = s := by
  cases result with
  | ok value' =>
    cases h
    exact ⟨rfl, rfl⟩
  | error abort => cases h

/-- An operation of the store below a layer that reaches its end leaves
the layer's own state as it is. -/
theorem of_lower_ok {x : Op σ α} {s after : τ × σ} {value : α}
    (h : Op.lower x s = .ok value after) : x s.2 = .ok value after.2 ∧ after.1 = s.1 := by
  obtain ⟨mine, s⟩ := s
  rw [lower_apply] at h
  cases hx : x s with
  | ok value' after' =>
    rw [hx] at h
    cases h
    exact ⟨rfl, rfl⟩
  | error stop after' =>
    rw [hx] at h
    cases h

/-- The operation `x` from the state `s` ends well with `good`, or with
a fault and `bad`. It is not aborted. -/
def Ends (x : Op σ α) (s : σ) (good : α → σ → Prop) (bad : Fault → σ → Prop) : Prop :=
  match x s with
  | .ok value after => good value after
  | .error (.fault fault) after => bad fault after
  | .error (.abort _) _ => False

namespace Ends

variable {x : Op σ α} {s : σ} {good good' : α → σ → Prop} {bad bad' : Fault → σ → Prop}

/-- What is known of the run gives the statement. -/
theorem of_ok {value : α} {after : σ} (h : x s = .ok value after) (hgood : good value after) :
    Ends x s good bad := by
  unfold Ends
  rw [h]
  exact hgood

/-- A run that ends with a fault. -/
theorem of_fault {fault : Fault} {after : σ} (h : x s = .error (.fault fault) after)
    (hbad : bad fault after) : Ends x s good bad := by
  unfold Ends
  rw [h]
  exact hbad

/-- A value that is the end is one of the good ends. -/
theorem good_of {value : α} {after : σ} (h : Ends x s good bad) (hx : x s = .ok value after) :
    good value after := by
  unfold Ends at h
  rwa [hx] at h

/-- A fault that is the end is one of the bad ends. -/
theorem bad_of {fault : Fault} {after : σ} (h : Ends x s good bad)
    (hx : x s = .error (.fault fault) after) : bad fault after := by
  unfold Ends at h
  rwa [hx] at h

/-- No abort is the end. -/
theorem not_abort {abort : Abort} {after : σ} (h : Ends x s good bad)
    (hx : x s = .error (.abort abort) after) : False := by
  unfold Ends at h
  rwa [hx] at h

/-- The run itself: it has a good end, or a fault and a bad end. -/
theorem exists_run (h : Ends x s good bad) :
    (∃ value after, x s = .ok value after ∧ good value after) ∨
      ∃ fault after, x s = .error (.fault fault) after ∧ bad fault after := by
  -- An abort is excluded by the statement itself.
  cases hx : x s with
  | ok value after => exact .inl ⟨value, after, rfl, h.good_of hx⟩
  | error stop after =>
    cases stop with
    | fault fault => exact .inr ⟨fault, after, rfl, h.bad_of hx⟩
    | abort => exact (h.not_abort hx).elim

/-- Weaker conditions on the end. -/
theorem mono (h : Ends x s good bad) (hgood : ∀ value after, good value after → good' value after)
    (hbad : ∀ fault after, bad fault after → bad' fault after) : Ends x s good' bad' := by
  rcases h.exists_run with ⟨value, after, hx, hvalue⟩ | ⟨fault, after, hx, hfault⟩
  · exact .of_ok hx (hgood value after hvalue)
  · exact .of_fault hx (hbad fault after hfault)

/-- Two statements about one run hold together. -/
theorem and (h : Ends x s good bad) (h' : Ends x s good' bad') :
    Ends x s (fun value after => good value after ∧ good' value after)
      (fun fault after => bad fault after ∧ bad' fault after) := by
  rcases h.exists_run with ⟨value, after, hx, hgood⟩ | ⟨fault, after, hx, hbad⟩
  · exact .of_ok hx ⟨hgood, h'.good_of hx⟩
  · exact .of_fault hx ⟨hbad, h'.bad_of hx⟩

/-- A run without a fault ends with a value. -/
theorem ok (h : Ends x s good bad) (hbad : ∀ fault after, ¬ bad fault after) :
    ∃ value after, x s = .ok value after ∧ good value after := by
  rcases h.exists_run with hvalue | ⟨fault, after, -, hfault⟩
  · exact hvalue
  · exact (hbad fault after hfault).elim

/-- The value alone leaves the state as it is. -/
theorem pure {value : α} (h : good value s) : Ends (Pure.pure value : Op σ α) s good bad := h

/-- Failing leaves the state as it is. -/
theorem fail {fault : Fault} (h : bad fault s) : Ends (Op.fail fault : Op σ α) s good bad := h

/-- Two operations in turn. Where the first ends with a fault, so does
the whole. -/
theorem bind {f : α → Op σ β} {mid : α → σ → Prop} {good : β → σ → Prop}
    (h : Ends x s mid bad') (hbad : ∀ fault after, bad' fault after → bad fault after)
    (hgood : ∀ value after, mid value after → Ends (f value) after good bad) :
    Ends (x >>= f) s good bad := by
  rcases h.exists_run with ⟨value, after, hx, hmid⟩ | ⟨fault, after, hx, hfault⟩
  · unfold Ends
    rw [bind_of_ok hx]
    exact hgood value after hmid
  · exact .of_fault (bind_of_error hx f) (hbad fault after hfault)

/-- Two operations in turn, the faults of the first among those of the
whole. -/
theorem seq {f : α → Op σ β} {mid : α → σ → Prop} {good : β → σ → Prop} (h : Ends x s mid bad)
    (hgood : ∀ value after, mid value after → Ends (f value) after good bad) :
    Ends (x >>= f) s good bad :=
  h.bind (fun _ _ hf => hf) hgood

/-- A checked computation that has a value, and what follows it. -/
theorem lift_seq {result : Except Abort α} {f : α → Op σ β} {good : β → σ → Prop} {value : α}
    (hresult : result = .ok value) (h : Ends (f value) s good bad) :
    Ends (liftM result >>= f) s good bad := by
  subst hresult
  exact h

/-- Failing is the end, whatever would follow. -/
theorem fail_seq {fault : Fault} {f : α → Op σ β} {good : β → σ → Prop} (h : bad fault s) :
    Ends ((Op.fail fault : Op σ α) >>= f) s good bad := h

/-- A refusal under a condition, and what follows where it does not
hold. -/
theorem guard {c : Prop} [Decidable c] {fault : Fault} {f : α → Op σ β} {good : β → σ → Prop}
    {rest : Op σ β} (hbad : c → bad fault s) (hrest : ¬ c → Ends rest s good bad) :
    Ends (if c then (Op.fail fault : Op σ α) >>= f else rest) s good bad := by
  split
  · exact fail_seq (hbad ‹_›)
  · exact hrest ‹_›

/-- An operation of the store below a layer. -/
theorem lower {mine : τ} {good : α → τ × σ → Prop} {bad : Fault → τ × σ → Prop}
    (h : Ends x s (fun value after => good value (mine, after))
      (fun fault after => bad fault (mine, after))) :
    Ends (Op.lower x) (mine, s) good bad := by
  rcases h.exists_run with ⟨value, after, hx, hgood⟩ | ⟨fault, after, hx, hbad⟩
  · exact .of_ok (by rw [Op.lower_apply, hx]) hgood
  · exact .of_fault (by rw [Op.lower_apply, hx]) hbad

/-- An operation of the store below a layer, and what follows. -/
theorem lower_seq {f : α → Op (τ × σ) β} {mine : τ} {mid : α → σ → Prop} {good : β → τ × σ → Prop}
    {bad : Fault → τ × σ → Prop} (h : Ends x s mid bad')
    (hbad : ∀ fault after, bad' fault after → bad fault (mine, after))
    (hgood : ∀ value after, mid value after → Ends (f value) (mine, after) good bad) :
    Ends (Op.lower x >>= f) (mine, s) good bad := by
  -- The own state of the layer is the same on both ends, so the rule for two in turn applies.
  have hlower : Ends (Op.lower x) (mine, s)
      (fun value after => after.1 = mine ∧ mid value after.2)
      (fun fault after => after.1 = mine ∧ bad' fault after.2) :=
    lower (h.mono (fun _ _ hmid => ⟨rfl, hmid⟩) fun _ _ hfault => ⟨rfl, hfault⟩)
  refine hlower.bind ?_ ?_
  · rintro fault ⟨_, after⟩ ⟨rfl, hfault⟩
    exact hbad fault after hfault
  · rintro value ⟨_, after⟩ ⟨rfl, hmid⟩
    exact hgood value after hmid

/-- An operation on the layer's own state. -/
theorem upper {x : Op τ α} {mine : τ} {s : σ} {good : α → τ × σ → Prop}
    {bad : Fault → τ × σ → Prop}
    (h : Ends x mine (fun value after => good value (after, s))
      (fun fault after => bad fault (after, s))) : Ends (Op.upper x) (mine, s) good bad := by
  rcases h.exists_run with ⟨value, after, hx, hgood⟩ | ⟨fault, after, hx, hbad⟩
  · exact .of_ok (by dsimp only [Op.upper]; rw [hx]) hgood
  · exact .of_fault (by dsimp only [Op.upper]; rw [hx]) hbad

/-- Two operations without a fault, the second whatever becomes of the
first. -/
theorem finishing {x y : Op σ Unit} {mid : σ → Prop} {good : Unit → σ → Prop}
    (h : Ends x s (fun _ after => mid after) fun _ _ => False)
    (h' : ∀ after, mid after → Ends y after good bad) : Ends (Op.finishing x y) s good bad := by
  -- The first has no fault, so what remains to be told is how the second ends.
  obtain ⟨_, after, hx, hmid⟩ := h.ok fun _ _ hno => hno
  have hy := h' after hmid
  unfold Ends at hy ⊢
  unfold Op.finishing
  rw [hx]
  exact hy

/-- A change of the state, and what follows. -/
theorem modify_seq {f : σ → σ} {g : Unit → Op σ β} {good : β → σ → Prop}
    (h : Ends (g ()) (f s) good bad) : Ends (modify f >>= g) s good bad := h

/-- A look at the state, and what follows. -/
theorem get_seq {f : σ → Op σ β} {good : β → σ → Prop} (h : Ends (f s) s good bad) :
    Ends (get >>= f) s good bad := h

/-- The layer's own state, and what follows. -/
theorem own_seq {f : τ → Op (τ × σ) β} {mine : τ} {good : β → τ × σ → Prop}
    {bad : Fault → τ × σ → Prop} (h : Ends (f mine) (mine, s) good bad) :
    Ends (Op.own >>= f) (mine, s) good bad := h

/-- A change of the layer's own state. -/
theorem modifyOwn {f : τ → τ} {mine : τ} {good : Unit → τ × σ → Prop}
    {bad : Fault → τ × σ → Prop} (h : good () (f mine, s)) :
    Ends (Op.modifyOwn f) (mine, s) good bad := h

/-- A change of the layer's own state, and what follows. -/
theorem modifyOwn_seq {f : τ → τ} {g : Unit → Op (τ × σ) β} {mine : τ} {good : β → τ × σ → Prop}
    {bad : Fault → τ × σ → Prop} (h : Ends (g ()) (f mine, s) good bad) :
    Ends (Op.modifyOwn f >>= g) (mine, s) good bad := h

/-- An operation of a layer that starts from a given own state. -/
theorem withOwn {x : Op (τ × σ) α} {mine : τ} {good : α × τ → σ → Prop}
    (h : Ends x (mine, s) (fun value after => good (value, after.1) after.2)
      (fun fault after => bad fault after.2)) : Ends (Op.withOwn mine x) s good bad := by
  rcases h.exists_run with ⟨value, after, hx, hgood⟩ | ⟨fault, after, hx, hbad⟩
  · exact .of_ok (by unfold Op.withOwn; rw [hx]) hgood
  · exact .of_fault (by unfold Op.withOwn; rw [hx]) hbad

/-- An operation of a layer that starts from a given own state, and what
follows. -/
theorem withOwn_seq {x : Op (τ × σ) α} {f : α × τ → Op σ β} {mine : τ} {mid : α → τ × σ → Prop}
    {bad' : Fault → τ × σ → Prop} {good : β → σ → Prop} (h : Ends x (mine, s) mid bad')
    (hbad : ∀ fault after, bad' fault after → bad fault after.2)
    (hgood : ∀ value after, mid value after → Ends (f (value, after.1)) after.2 good bad) :
    Ends (Op.withOwn mine x >>= f) s good bad := by
  -- What the layer has in the end is a part of the value, and is lost with a fault.
  have hown : Ends (Op.withOwn mine x) s (fun value after => mid value.1 (value.2, after))
      (fun fault after => ∃ lost, bad' fault (lost, after)) :=
    withOwn (h.mono (fun _ _ hmid => hmid) fun _ after hfault => ⟨after.1, hfault⟩)
  refine hown.bind ?_ ?_
  · rintro fault after ⟨lost, hfault⟩
    exact hbad fault (lost, after) hfault
  · rintro ⟨value, own⟩ after hmid
    exact hgood value (own, after) hmid

/-- A fault that is dealt with is a value. -/
theorem attempt {good : Except Fault α → σ → Prop}
    (h : Ends x s (fun value after => good (.ok value) after)
      (fun fault after => good (.error fault) after)) :
    Ends (Op.attempt x) s good bad := by
  rcases h.exists_run with ⟨value, after, hx, hgood⟩ | ⟨fault, after, hx, hbad⟩
  · exact .of_ok (by rw [Op.attempt_apply, hx]) hgood
  · exact .of_ok (by rw [Op.attempt_apply, hx]) hbad

/-- A report. -/
theorem note [Journal σ] {event : Event} {good : Unit → σ → Prop}
    (h : good () (Journal.enter event s)) : Ends (Op.note event) s good bad := h

/-- A report, and what follows. -/
theorem note_seq [Journal σ] {event : Event} {f : Unit → Op σ β} {good : β → σ → Prop}
    (h : Ends (f ()) (Journal.enter event s) good bad) :
    Ends (Op.note event >>= f) s good bad := h

/-- A question whether a report would be kept, and what follows. -/
theorem keeps_seq [Journal σ] {level : Level} {f : Bool → Op σ β} {good : β → σ → Prop}
    (h : Ends (f (Journal.keeps s level)) s good bad) :
    Ends (Op.keeps level >>= f) s good bad := h

/-- The value of a computation that has one, and what follows. -/
theorem ofResult_seq {result : Except Stop α} {f : α → Op σ β} {good : β → σ → Prop} {value : α}
    (hresult : result = .ok value) (h : Ends (f value) s good bad) :
    Ends (Op.ofResult result >>= f) s good bad := by
  subst hresult
  exact h

end Ends

end BlockLayers.Op
