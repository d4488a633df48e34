import BlockLayers.Proofs.Observed

/-!
# `BlockLayers.Proofs.Paused`: a layer at the moment of a call

A layer changes its own state between the calls that it makes below. To
say what that state is at the moment of such a call, the layer is run over
`Paused.store below`, which lets as many calls pass as it is told to and
aborts the next. No layer deals with an abort, so the state in which the
run ends is the one in which that call was made.

`Op.Traces x y` compares an operation `x` over a paused store with the
same operation `y` over an observed one, with one rule for each way in
which operations are put together.

Main statement: `Traces.moment_request`. The request at the moment of call
number `k` is number `k` of the calls that were observed.
-/

set_option autoImplicit false

namespace BlockLayers

/-- A store that lets some calls pass. -/
structure Paused (σ : Type) where
  /-- How many more calls pass. -/
  left : Nat
  /-- The request that did not pass. -/
  asked : Option Request
  /-- The store itself. -/
  inner : σ

namespace Paused

variable {σ τ α : Type} {below : Store σ}

/-- The store `below` with a pause in front of one of its calls. -/
def store (below : Store σ) : Store (Paused σ) := fun q t =>
  match t.left with
  | 0 => .error (.abort .outOfMemory) ⟨0, some q, t.inner⟩
  | left + 1 =>
    match below q t.inner with
    | .ok value after => .ok value ⟨left, t.asked, after⟩
    | .error stop after => .error stop ⟨left, t.asked, after⟩

instance [Journal σ] : Journal (Paused σ) where
  keeps := fun t level => Journal.keeps t.inner level
  enter := fun event t => ⟨t.left, t.asked, Journal.enter event t.inner⟩

/-- A report is no call. -/
@[simp] theorem asked_enter [Journal σ] (event : Event) (t : Paused σ) :
    (Journal.enter event t).asked = t.asked := rfl

/-- The own state of a layer at the moment of its call number `k` below,
and the request of that call. -/
def moment (x : Op (τ × Paused σ) α) (mine : τ) (k : Nat) (s : σ) : Option (τ × Request) :=
  let t := Op.next x (mine, ⟨k, none, s⟩)
  t.2.asked.map fun q => (t.1, q)

/-- A call that ends with a value has passed. -/
theorem asked_of_ok {q : Request} {t t' : Paused σ} {value : q.Answer}
    (h : store below q t = .ok value t') : t'.asked = t.asked := by
  unfold store at h
  split at h
  · cases h
  · split at h <;> cases h
    rfl

/-- A call that stops has passed, or it is the one with the pause. -/
theorem asked_of_error {q : Request} {t t' : Paused σ} {stop : Stop}
    (h : store below q t = .error stop t') : t'.asked = t.asked ∨ t'.asked = some q := by
  unfold store at h
  split at h
  · cases h
    exact .inr rfl
  · split at h <;> cases h
    exact .inl rfl

end Paused

namespace Op

variable {σ τ α β : Type}

/-- An operation over a paused store goes the way of the operation `y`
over the observed store, to its end or to the call with the pause. -/
def Traces (x : Op (τ × Paused σ) α) (y : Op (τ × Observed σ) α) : Prop :=
  ∀ mine k (t : Observed σ), ∃ new, (next y (mine, t)).2.calls = t.calls ++ new ∧
    (new.length ≤ k ∧ outcome x (mine, ⟨k, none, t.inner⟩) = outcome y (mine, t) ∧
        next x (mine, ⟨k, none, t.inner⟩) =
          ((next y (mine, t)).1, ⟨k - new.length, none, (next y (mine, t)).2.inner⟩) ∨
      ∃ call stop, new[k]? = some call ∧ outcome x (mine, ⟨k, none, t.inner⟩) = .error stop ∧
        (next x (mine, ⟨k, none, t.inner⟩)).2.asked = some call.1)

namespace Traces

variable {x : Op (τ × Paused σ) α} {y : Op (τ × Observed σ) α} {below : Store σ}

/-- A value is given without a call. -/
theorem pure (value : α) :
    Traces (Pure.pure value : Op (τ × Paused σ) α) (Pure.pure value : Op (τ × Observed σ) α) :=
  fun _ k _ => ⟨[], (List.append_nil _).symm, .inl ⟨Nat.zero_le k, rfl, rfl⟩⟩

/-- To look at the own state takes no call. -/
theorem own : Traces (Op.own : Op (τ × Paused σ) τ) (Op.own : Op (τ × Observed σ) τ) :=
  fun _ k _ => ⟨[], (List.append_nil _).symm, .inl ⟨Nat.zero_le k, rfl, rfl⟩⟩

/-- To change the own state takes no call. -/
theorem modifyOwn (f : τ → τ) :
    Traces (Op.modifyOwn f : Op (τ × Paused σ) Unit) (Op.modifyOwn f : Op (τ × Observed σ) Unit) :=
  fun _ k _ => ⟨[], (List.append_nil _).symm, .inl ⟨Nat.zero_le k, rfl, rfl⟩⟩

/-- A report is no call, with or without a pause. -/
theorem note [Journal σ] (event : Event) :
    Traces (Op.note event : Op (τ × Paused σ) Unit) (Op.note event : Op (τ × Observed σ) Unit) :=
  fun _ k _ => ⟨[], (List.append_nil _).symm, .inl ⟨Nat.zero_le k, rfl, rfl⟩⟩

/-- A call of the store below is the pause, or it passes. -/
theorem lower (q : Request) :
    Traces (Op.lower (Paused.store below q) : Op (τ × Paused σ) q.Answer)
      (Op.lower (Observed.store below q) : Op (τ × Observed σ) q.Answer) := by
  intro mine k t
  cases hrun : below q t.inner with
  | ok value after =>
    refine ⟨[⟨q, .ok value⟩], by simp [next, lower_apply, Observed.store, hrun], ?_⟩
    -- No call is left to pass, so this is the one with the pause, or one more is used up.
    cases k with
    | zero => exact .inr ⟨_, _, rfl, rfl, rfl⟩
    | succ k => exact .inl (by simp [outcome, next, lower_apply, Observed.store, Paused.store, hrun])
  | error stop after =>
    refine ⟨[⟨q, .error stop⟩], by simp [next, lower_apply, Observed.store, hrun], ?_⟩
    cases k with
    | zero => exact .inr ⟨_, _, rfl, rfl, rfl⟩
    | succ k => exact .inl (by simp [outcome, next, lower_apply, Observed.store, Paused.store, hrun])

/-- Two operations in turn. -/
theorem bind {f : α → Op (τ × Paused σ) β} {g : α → Op (τ × Observed σ) β} (h : Traces x y)
    (hf : ∀ value, Traces (f value) (g value)) : Traces (x >>= f) (y >>= g) := by
  intro mine k t
  obtain ⟨new, hnew, hends⟩ := h mine k t
  cases hy : outcome y (mine, t) with
  | error stop =>
    obtain ⟨hy', hnext'⟩ := bind_of_outcome_error hy g
    refine ⟨new, by rw [hnext', hnew], ?_⟩
    rcases hends with ⟨hle, hout, hnext⟩ | ⟨call, stop', hcall, hstop, hasked⟩
    · obtain ⟨hx, hxnext⟩ := bind_of_outcome_error (hout.trans hy) f
      exact .inl ⟨hle, hx.trans hy'.symm, by rw [hxnext, hnext, hnext']⟩
    · obtain ⟨hx, hxnext⟩ := bind_of_outcome_error hstop f
      exact .inr ⟨call, stop', hcall, hx, by rw [hxnext, hasked]⟩
  | ok value =>
    have hrun := apply_of_outcome_ok hy
    rcases hends with ⟨hle, hout, hnext⟩ | ⟨call, stop', hcall, hstop, hasked⟩
    · -- The pause is behind the first operation.
      have hrun' := apply_of_outcome_ok (hout.trans hy)
      rw [hnext] at hrun'
      obtain ⟨new', hnew', hends'⟩ :=
        hf value (next y (mine, t)).1 (k - new.length) (next y (mine, t)).2
      refine ⟨new ++ new', ?_, ?_⟩
      · rw [next_bind hrun, ← List.append_assoc, ← hnew]
        exact hnew'
      · rw [outcome_bind hrun', next_bind hrun', outcome_bind hrun, next_bind hrun,
          List.length_append, Nat.sub_add_eq]
        rcases hends' with ⟨hle', hrest⟩ | ⟨call, stop, hcall, hrest⟩
        · exact .inl ⟨by omega, hrest⟩
        · exact .inr ⟨call, stop, (List.getElem?_append_right hle).trans hcall, hrest⟩
    · -- The pause is in it, and over the observed store more calls may follow.
      obtain ⟨hx, hxnext⟩ := bind_of_outcome_error hstop f
      obtain ⟨new', hnew', -⟩ := hf value (next y (mine, t)).1 0 (next y (mine, t)).2
      refine ⟨new ++ new', ?_, .inr ⟨call, stop', ?_, hx, by rw [hxnext, hasked]⟩⟩
      · rw [next_bind hrun, ← List.append_assoc, ← hnew]
        exact hnew'
      · obtain ⟨hlt, -⟩ := List.getElem?_eq_some_iff.mp hcall
        rw [List.getElem?_append_left hlt, hcall]

/-- The request at the moment of a call is that of the call. -/
theorem moment_request (h : Traces x y) (mine : τ) (k : Nat) {t : Observed σ}
    {new : List ((q : Request) × Except Stop q.Answer)}
    (hnew : (next y (mine, t)).2.calls = t.calls ++ new) :
    (Paused.moment x mine k t.inner).map Prod.snd = new[k]?.map Sigma.fst := by
  obtain ⟨new', hnew', hends⟩ := h mine k t
  -- The calls that the rule speaks of are the ones that were observed.
  cases List.append_cancel_left (hnew.symm.trans hnew')
  rcases hends with ⟨hle, -, hnext⟩ | ⟨call, stop, hcall, -, hasked⟩
  · simp [Paused.moment, hnext, List.getElem?_eq_none hle]
  · simp [Paused.moment, hasked, hcall]

end Traces

end Op

end BlockLayers
