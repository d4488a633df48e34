import BlockLayers.Proofs.Ends

/-!
# `BlockLayers.Proofs.Mimics`: what succeeds on one store succeeds on another

`Op.Mimics R x y` says that where `x` reaches its end, `y` reaches its
end from every state that is related by `R`, with the same value and in
a state that is related again. Nothing is said of runs of `x` that stop:
a store that fails may leave what it likes. So what was acknowledged by
a store whose parts may fail is traced to a store that is simpler and
whose faults change nothing.

One rule for each way in which operations are put together. A layer
relates its own state to itself and the states below by the relation of
the stores below (`Op.Beside`).
-/

set_option autoImplicit false

namespace BlockLayers.Op

variable {σ τ ω α β : Type}

/-- Where the first operation reaches its end, so does the second, with
the same value and in a related state. -/
def Mimics (R : σ → τ → Prop) (x : Op σ α) (y : Op τ α) : Prop :=
  ∀ s t value after, R s t → x s = .ok value after →
    ∃ after', y t = .ok value after' ∧ R after after'

/-- The same own state of a layer over related states. -/
def Beside (R : σ → τ → Prop) (s : ω × σ) (t : ω × τ) : Prop := s.1 = t.1 ∧ R s.2 t.2

namespace Mimics

variable {R : σ → τ → Prop} {x : Op σ α} {y : Op τ α}

/-- A value is given in related states. -/
theorem pure {value : α} : Mimics R (Pure.pure value) (Pure.pure value) := by
  rintro s t _ _ hR ⟨⟩
  exact ⟨t, rfl, hR⟩

/-- A result is given in related states, unless it is an abort. -/
theorem lift {result : Except Abort α} : Mimics R (liftM result) (liftM result) := by
  intro s t value after hR hrun
  cases result with
  | ok value' =>
    cases hrun
    exact ⟨t, rfl, hR⟩
  | error abort => cases hrun

/-- Two operations in turn. -/
theorem bind {f : α → Op σ β} {g : α → Op τ β} (h : Mimics R x y)
    (hf : ∀ value, Mimics R (f value) (g value)) : Mimics R (x >>= f) (y >>= g) := by
  intro s t value after hR hrun
  -- The first operation has reached its end too, so both rules can be used in turn.
  obtain ⟨mid, between, hx, hrest⟩ := exists_of_bind_ok hrun
  obtain ⟨between', hy, hbetween⟩ := h s t mid between hR hx
  obtain ⟨after', hrest', hafter⟩ := hf mid between between' value after hbetween hrest
  refine ⟨after', ?_, hafter⟩
  rw [bind_apply, hy]
  exact hrest'

/-- The own state of a layer is the same. -/
theorem own : Mimics (Beside R) (Op.own : Op (ω × σ) ω) Op.own := by
  rintro ⟨mine, s⟩ ⟨mine', t⟩ _ _ ⟨hmine, hR⟩ ⟨⟩
  cases hmine
  exact ⟨_, rfl, rfl, hR⟩

/-- The own state of a layer is changed alike. -/
theorem modifyOwn {f : ω → ω} : Mimics (Beside R) (Op.modifyOwn f) (Op.modifyOwn f) := by
  rintro ⟨mine, s⟩ ⟨mine', t⟩ _ _ ⟨hmine, hR⟩ ⟨⟩
  cases hmine
  exact ⟨_, rfl, rfl, hR⟩

/-- An operation of the store below a layer. -/
theorem lower (h : Mimics R x y) :
    Mimics (Beside R) (Op.lower x : Op (ω × σ) α) (Op.lower y) := by
  rintro s ⟨mine, t⟩ value after ⟨hmine, hR⟩ hrun
  obtain ⟨hx, hafter⟩ := of_lower_ok hrun
  obtain ⟨after', hy, hR'⟩ := h s.2 t value after.2 hR hx
  refine ⟨(mine, after'), ?_, hafter.trans hmine, hR'⟩
  rw [lower_apply, hy]

/-- A report, which keeps states related. -/
theorem note [Journal σ] [Journal τ] {event : Event}
    (h : ∀ s t, R s t → R (Journal.enter event s) (Journal.enter event t)) :
    Mimics R (Op.note event) (Op.note event) := by
  rintro s t _ _ hR ⟨⟩
  exact ⟨_, rfl, h s t hR⟩

end Mimics

end BlockLayers.Op
