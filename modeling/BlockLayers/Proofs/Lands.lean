import BlockLayers.Proofs.Run

/-!
# `BlockLayers.Proofs.Lands`: where an operation ends, whatever ends it

`Op.Lands x s post` says of the operation `x`, started in the state `s`,
that what it ends with and the state that it leaves satisfy `post`. An
abort is an end like any other, so nothing has to be known of a store
below: `Lands.lower` and `Lands.lower_seq` ask what follows each of its
answers.

The rules are those of `Op.Ends`, one for each way in which operations
are put together.
-/

set_option autoImplicit false

namespace BlockLayers.Op

variable {σ τ α β : Type}

/-- What the operation `x` ends with, and the state that it leaves. -/
def Lands (x : Op σ α) (s : σ) (post : Except Stop α → σ → Prop) : Prop :=
  post (outcome x s) (next x s)

namespace Lands

variable {x : Op σ α} {s : σ} {post post' : Except Stop α → σ → Prop}

/-- A run with a value. -/
theorem of_ok {value : α} {after : σ} (hx : x s = .ok value after) (h : post (.ok value) after) :
    Lands x s post := by
  unfold Lands outcome next
  rw [hx]
  exact h

/-- A run that stops. -/
theorem of_error {stop : Stop} {after : σ} (hx : x s = .error stop after)
    (h : post (.error stop) after) : Lands x s post := by
  unfold Lands outcome next
  rw [hx]
  exact h

/-- The run itself. -/
theorem exists_run (h : Lands x s post) :
    (∃ value after, x s = .ok value after ∧ post (.ok value) after) ∨
      ∃ stop after, x s = .error stop after ∧ post (.error stop) after := by
  unfold Lands outcome next at h
  cases hx : x s with
  | ok value after =>
    rw [hx] at h
    exact .inl ⟨value, after, rfl, h⟩
  | error stop after =>
    rw [hx] at h
    exact .inr ⟨stop, after, rfl, h⟩

/-- Less may be said of an end. -/
theorem mono (h : Lands x s post) (hpost : ∀ result after, post result after → post' result after) :
    Lands x s post' := hpost _ _ h

/-- A value is given without a change. -/
theorem pure {value : α} (h : post (.ok value) s) : Lands (Pure.pure value : Op σ α) s post := h

/-- Two operations in turn. Where the first stops, the second is not
made. -/
theorem bind {f : α → Op σ β} {mid : Except Stop α → σ → Prop} {post : Except Stop β → σ → Prop}
    (h : Lands x s mid) (hok : ∀ value after, mid (.ok value) after → Lands (f value) after post)
    (hstop : ∀ stop after, mid (.error stop) after → post (.error stop) after) :
    Lands (x >>= f) s post := by
  rcases h.exists_run with ⟨value, after, hx, hmid⟩ | ⟨stop, after, hx, hmid⟩
  · -- The first has ended with a value, so the run goes on as that of the second.
    have hrest := hok value after hmid
    unfold Lands outcome next at hrest ⊢
    rw [bind_of_ok hx]
    exact hrest
  · exact of_error (bind_of_error hx f) (hstop stop after hmid)

/-- An operation of the store below a layer. -/
theorem lower {mine : τ} {post : Except Stop α → τ × σ → Prop}
    (hok : ∀ value after, x s = .ok value after → post (.ok value) (mine, after))
    (hstop : ∀ stop after, x s = .error stop after → post (.error stop) (mine, after)) :
    Lands (Op.lower x) (mine, s) post := by
  cases hx : x s with
  | ok value after => exact of_ok (by rw [lower_apply, hx]) (hok value after hx)
  | error stop after => exact of_error (by rw [lower_apply, hx]) (hstop stop after hx)

/-- An operation of the store below a layer, whatever it ends with. -/
theorem passed {mine : τ} {post : Except Stop α → τ × σ → Prop}
    (h : post (outcome x s) (mine, next x s)) : Lands (Op.lower x) (mine, s) post := by
  unfold Lands
  rw [outcome_lower, next_lower]
  exact h

/-- An operation of the store below a layer, and what follows. -/
theorem lower_seq {f : α → Op (τ × σ) β} {mine : τ} {post : Except Stop β → τ × σ → Prop}
    (hok : ∀ value after, x s = .ok value after → Lands (f value) (mine, after) post)
    (hstop : ∀ stop after, x s = .error stop after → post (.error stop) (mine, after)) :
    Lands (Op.lower x >>= f) (mine, s) post := by
  cases hx : x s with
  | ok value after =>
    have hlower : Op.lower x (mine, s) = .ok value (mine, after) := by rw [lower_apply, hx]
    have hrest := hok value after hx
    unfold Lands outcome next at hrest ⊢
    rw [bind_of_ok hlower]
    exact hrest
  | error stop after =>
    have hlower : Op.lower x (mine, s) = .error stop (mine, after) := by rw [lower_apply, hx]
    exact of_error (bind_of_error hlower f) (hstop stop after hx)

/-- An attempt of an operation of the store below a layer, and what
follows. -/
theorem lower_attempt_seq {f : Except Fault α → Op (τ × σ) β} {mine : τ}
    {post : Except Stop β → τ × σ → Prop}
    (hok : ∀ value after, x s = .ok value after → Lands (f (.ok value)) (mine, after) post)
    (hfault : ∀ fault after, x s = .error (.fault fault) after →
      Lands (f (.error fault)) (mine, after) post)
    (habort : ∀ abort after, x s = .error (.abort abort) after →
      post (.error (.abort abort)) (mine, after)) :
    Lands (Op.lower x.attempt >>= f) (mine, s) post := by
  -- An attempt answers with a value or a fault. Only an abort goes past it.
  apply lower_seq
  · intro result after hrun
    rw [attempt_apply] at hrun
    split at hrun
    · rename_i hx
      cases hrun
      exact hok _ _ hx
    · rename_i hx
      cases hrun
      exact hfault _ _ hx
    · cases hrun
  · -- What an attempt does not catch is an abort.
    intro stop after hrun
    rw [attempt_apply] at hrun
    split at hrun
    · cases hrun
    · cases hrun
    · rename_i hx
      cases hrun
      exact habort _ _ hx

/-- The layer's own state, and what follows. -/
theorem own_seq {f : τ → Op (τ × σ) β} {mine : τ} {post : Except Stop β → τ × σ → Prop}
    (h : Lands (f mine) (mine, s) post) : Lands (Op.own >>= f) (mine, s) post := h

/-- A change of the layer's own state. -/
theorem modifyOwn {f : τ → τ} {mine : τ} {post : Except Stop Unit → τ × σ → Prop}
    (h : post (.ok ()) (f mine, s)) : Lands (Op.modifyOwn f) (mine, s) post := h

/-- A change of the layer's own state, and what follows. -/
theorem modifyOwn_seq {f : τ → τ} {g : Unit → Op (τ × σ) β} {mine : τ}
    {post : Except Stop β → τ × σ → Prop} (h : Lands (g ()) (f mine, s) post) :
    Lands (Op.modifyOwn f >>= g) (mine, s) post := h

/-- A report. -/
theorem note [Journal σ] {event : Event} {post : Except Stop Unit → σ → Prop}
    (h : post (.ok ()) (Journal.enter event s)) : Lands (Op.note event) s post := h

/-- A report, and what follows. -/
theorem note_seq [Journal σ] {event : Event} {f : Unit → Op σ β} {post : Except Stop β → σ → Prop}
    (h : Lands (f ()) (Journal.enter event s) post) : Lands (Op.note event >>= f) s post := h

end Lands

end BlockLayers.Op
