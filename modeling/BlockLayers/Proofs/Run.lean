import BlockLayers.Proofs.Ends

/-!
# `BlockLayers.Proofs.Run`: one call after another

A system answers calls, each with an operation on its state. `after` is
the state in which a list of calls leaves it, and `outcomes` lists what
the calls end with, their faults included: a call that fails does not
keep the next one from being made.

Main statements: `after_invariant` (what every call keeps holds after
all of them) and `outcomes_eq` (two systems whose calls end alike in
related states cannot be told apart by any list of calls).

`Preserves` is for operations that keep a condition whatever becomes of
them, an abort included, with one rule for each way in which operations
are put together.
-/

set_option autoImplicit false

namespace BlockLayers.Op

variable {ι σ τ α : Type} {Answer : ι → Type}

/-- What an operation ends with. -/
def outcome (x : Op σ α) (s : σ) : Except Stop α :=
  match x s with
  | .ok value _ => .ok value
  | .error stop _ => .error stop

/-- The state in which an operation ends. -/
def next (x : Op σ α) (s : σ) : σ :=
  match x s with
  | .ok _ after => after
  | .error _ after => after

/-- The state in which a list of calls leaves a system. -/
def after (serve : (c : ι) → Op σ (Answer c)) : List ι → σ → σ
  | [], s => s
  | c :: rest, s => after serve rest (next (serve c) s)

/-- What the calls of a list end with. -/
def outcomes (serve : (c : ι) → Op σ (Answer c)) :
    List ι → σ → List ((c : ι) × Except Stop (Answer c))
  | [], _ => []
  | c :: rest, s => ⟨c, outcome (serve c) s⟩ :: outcomes serve rest (next (serve c) s)

/-- A run that ends with a value ends with that value. -/
theorem outcome_of_ok {x : Op σ α} {s after : σ} {value : α} (h : x s = .ok value after) :
    outcome x s = .ok value := by
  rw [outcome, h]

/-- Operations that run alike end alike. -/
theorem outcome_congr {x y : Op σ α} {s t : σ} (h : x s = y t) : outcome x s = outcome y t := by
  rw [outcome, outcome, h]

/-- Operations that run alike leave the same state. -/
theorem next_congr {x y : Op σ α} {s t : σ} (h : x s = y t) : next x s = next y t := by
  rw [next, next, h]

/-- Conditions that do not look at the answer are conditions on the
state. -/
theorem Ends.next {x : Op σ α} {s : σ} (kept : σ → Prop)
    (h : Ends x s (fun _ after => kept after) fun _ after => kept after) : kept (next x s) := by
  unfold Op.next
  rcases h.exists_run with ⟨_, _, hx, hkept⟩ | ⟨_, _, hx, hkept⟩
  · rwa [hx]
  · rwa [hx]

/-- An operation that ends with a value ends in its last state. -/
theorem apply_of_outcome_ok {x : Op σ α} {s : σ} {value : α} (h : outcome x s = .ok value) :
    x s = .ok value (next x s) := by
  unfold outcome at h
  unfold Op.next
  cases hx : x s with
  | ok value' after =>
    rw [hx] at h
    cases h
    rfl
  | error stop after =>
    rw [hx] at h
    cases h

/-- An operation that ends with a value has a run to some state. -/
theorem exists_of_outcome_ok {x : Op σ α} {s : σ} {value : α} (h : outcome x s = .ok value) :
    ∃ after, x s = .ok value after := ⟨_, apply_of_outcome_ok h⟩

/-- What follows an operation that ends with a value is what the two in
turn end with. -/
theorem outcome_bind {β : Type} {x : Op σ α} {f : α → Op σ β} {s after : σ} {value : α}
    (h : x s = .ok value after) : outcome (x >>= f) s = outcome (f value) after := by
  unfold outcome
  rw [bind_of_ok h]

/-- An operation of the store below a layer ends as it does there. -/
theorem outcome_lower (x : Op σ α) (mine : τ) (s : σ) :
    outcome (Op.lower x) (mine, s) = outcome x s := by
  unfold outcome
  rw [lower_apply]
  cases x s <;> rfl

/-- An operation of the store below a layer leaves the own state of the
layer. -/
theorem next_lower (x : Op σ α) (mine : τ) (s : σ) :
    next (Op.lower x) (mine, s) = (mine, next x s) := by
  unfold next
  rw [lower_apply]
  cases x s <;> rfl

/-- What follows an operation that ends with a value ends where the two in
turn end. -/
theorem next_bind {β : Type} {x : Op σ α} {f : α → Op σ β} {s after : σ} {value : α}
    (h : x s = .ok value after) : next (x >>= f) s = next (f value) after := by
  unfold next
  rw [bind_of_ok h]

/-- Nothing follows an operation that stops. -/
theorem bind_of_outcome_error {β : Type} {x : Op σ α} {s : σ} {stop : Stop}
    (h : outcome x s = .error stop) (f : α → Op σ β) :
    outcome (x >>= f) s = .error stop ∧ next (x >>= f) s = next x s := by
  unfold outcome at h
  unfold outcome next
  rw [bind_apply]
  -- The first operation stops, so the second is not made.
  cases hx : x s with
  | ok value after =>
    rw [hx] at h
    cases h
  | error stop' after =>
    rw [hx] at h
    cases h
    exact ⟨rfl, rfl⟩

/-- What an operation ends with goes with the state in which it ends. -/
theorem Ends.outcome_next {x : Op σ α} {s : σ} {good : α → σ → Prop} {bad : Fault → σ → Prop}
    (h : Ends x s good bad) :
    (∃ value, outcome x s = .ok value ∧ good value (Op.next x s)) ∨
      ∃ fault, outcome x s = .error (.fault fault) ∧ bad fault (Op.next x s) := by
  unfold outcome Op.next
  rcases h.exists_run with ⟨value, _, hx, hgood⟩ | ⟨fault, _, hx, hbad⟩
  · rw [hx]
    exact .inl ⟨value, rfl, hgood⟩
  · rw [hx]
    exact .inr ⟨fault, rfl, hbad⟩

/-- An operation that ends as another does. -/
theorem Ends.agree {x : Op σ α} {y : Op τ α} {s : σ} {t : τ} {R : σ → τ → Prop}
    (h : Ends x s (fun value after => ∃ after', y t = .ok value after' ∧ R after after')
      fun fault after => ∃ after', y t = .error (.fault fault) after' ∧ R after after') :
    outcome x s = outcome y t ∧ R (Op.next x s) (Op.next y t) := by
  unfold outcome Op.next
  rcases h.exists_run with ⟨_, _, hx, after', hy, hR⟩ | ⟨_, _, hx, after', hy, hR⟩
  · rw [hx, hy]
    exact ⟨rfl, hR⟩
  · rw [hx, hy]
    exact ⟨rfl, hR⟩

/-- The operation keeps a condition on the state, however it ends. -/
def Preserves (x : Op σ α) (kept : σ → Prop) : Prop := ∀ s, kept s → kept (next x s)

namespace Preserves

variable {x : Op σ α} {kept : σ → Prop} {β : Type}

/-- A value is given in the same state. -/
theorem pure {value : α} : Preserves (Pure.pure value : Op σ α) kept := fun _ hs => hs

/-- A fault is raised in the same state. -/
theorem fail {fault : Fault} : Preserves (Op.fail fault : Op σ α) kept := fun _ hs => hs

/-- A result is given in the same state, and so is an abort. -/
theorem lift {result : Except Abort α} : Preserves (liftM result : Op σ α) kept := by
  intro s hs
  cases result <;> exact hs

/-- Two operations in turn. -/
theorem bind {f : α → Op σ β} (h : Preserves x kept) (hf : ∀ value, Preserves (f value) kept) :
    Preserves (x >>= f) kept := by
  intro s hs
  have hx := h s hs
  unfold Op.next at hx ⊢
  rw [bind_apply]
  cases hrun : x s with
  | ok value after =>
    rw [hrun] at hx
    exact hf value after hx
  | error stop after =>
    rw [hrun] at hx
    exact hx

/-- A refusal under a condition, and what follows where it does not
hold. -/
theorem guard {c : Prop} [Decidable c] {fault : Fault} {f : α → Op σ β} {rest : Op σ β}
    (h : Preserves rest kept) :
    Preserves (if c then (Op.fail fault : Op σ α) >>= f else rest) kept := by
  split
  · exact fun _ hs => hs
  · exact h

/-- A report keeps what reports keep. -/
theorem note [Journal σ] {event : Event} (h : ∀ s, kept s → kept (Journal.enter event s)) :
    Preserves (Op.note event) kept := h

/-- To ask whether a level is kept changes nothing. -/
theorem keeps [Journal σ] {level : Level} : Preserves (Op.keeps level) kept := fun _ hs => hs

/-- To look at the own state changes nothing below. -/
theorem own : Preserves (Op.own : Op (τ × σ) τ) (fun s => kept s.2) := fun _ hs => hs

/-- To change the own state changes nothing below. -/
theorem modifyOwn {f : τ → τ} : Preserves (Op.modifyOwn f : Op (τ × σ) Unit) (fun s => kept s.2) :=
  fun _ hs => hs

/-- An operation of the store below a layer. -/
theorem lower (h : Preserves x kept) :
    Preserves (Op.lower x : Op (τ × σ) α) (fun s => kept s.2) := by
  rintro ⟨mine, s⟩ hs
  have hx := h s hs
  unfold Op.next at hx ⊢
  rw [lower_apply]
  cases hrun : x s <;> rw [hrun] at hx <;> exact hx

/-- An operation of a layer that starts from a given own state. -/
theorem withOwn {x : Op (τ × σ) α} {mine : τ} (h : Preserves x fun s => kept s.2) :
    Preserves (Op.withOwn mine x) kept := by
  intro s hs
  have hx := h (mine, s) hs
  unfold Op.next at hx ⊢
  unfold Op.withOwn
  cases hrun : x (mine, s) <;> rw [hrun] at hx <;> exact hx

end Preserves

variable {serve : (c : ι) → Op σ (Answer c)} {serve' : (c : ι) → Op τ (Answer c)}

/-- What every call keeps is kept by all of them. -/
theorem after_invariant (kept : σ → Prop) (hstep : ∀ c s, kept s → kept (next (serve c) s))
    (calls : List ι) {s : σ} (hs : kept s) : kept (after serve calls s) := by
  -- By induction on the calls, with the state before them generalized.
  induction calls generalizing s with
  | nil => exact hs
  | cons c rest ih => exact ih (hstep c s hs)

/-- The last call of a list is made in the state that the others leave. -/
theorem after_concat (calls : List ι) (c : ι) (s : σ) :
    after serve (calls ++ [c]) s = next (serve c) (after serve calls s) := by
  induction calls generalizing s with
  | nil => rfl
  | cons first rest ih => exact ih _

/-- What the calls of a list keep of the state and of an account of them
and their ends is kept by all of them. -/
theorem outcomes_invariant_of_mem {υ : Type} (kept : σ → υ → Prop)
    (account : υ → ((c : ι) × Except Stop (Answer c)) → υ) {calls : List ι}
    (hstep : ∀ c ∈ calls, ∀ s v, kept s v →
      kept (next (serve c) s) (account v ⟨c, outcome (serve c) s⟩))
    {s : σ} {v : υ} (h : kept s v) :
    kept (after serve calls s) ((outcomes serve calls s).foldl account v) := by
  -- A list of calls is answered from its front, so the account is carried along.
  induction calls generalizing s v with
  | nil => exact h
  | cons c rest ih =>
    exact ih (fun c hc => hstep c (List.mem_cons_of_mem _ hc))
      (hstep c List.mem_cons_self s v h)

/-- What every call keeps of the state and of an account of the calls
and their ends is kept by all of them. -/
theorem outcomes_invariant {υ : Type} (kept : σ → υ → Prop)
    (account : υ → ((c : ι) × Except Stop (Answer c)) → υ)
    (hstep : ∀ c s v, kept s v →
      kept (next (serve c) s) (account v ⟨c, outcome (serve c) s⟩))
    (calls : List ι) {s : σ} {v : υ} (h : kept s v) :
    kept (after serve calls s) ((outcomes serve calls s).foldl account v) :=
  outcomes_invariant_of_mem kept account (fun c _ => hstep c) h

/-- An account that is kept of a list of calls. What it makes of a call
may depend on the state before it. -/
def accounted {υ : Type} (serve : (c : ι) → Op σ (Answer c)) (account : υ → ι → σ → υ) :
    List ι → σ → υ → υ
  | [], _, v => v
  | c :: rest, s, v => accounted serve account rest (next (serve c) s) (account v c s)

/-- What every call keeps of the state and of an account is kept by all
of them. -/
theorem accounted_invariant {υ : Type} (kept : σ → υ → Prop) (account : υ → ι → σ → υ)
    (hstep : ∀ c s v, kept s v → kept (next (serve c) s) (account v c s)) (calls : List ι) {s : σ}
    {v : υ} (h : kept s v) : kept (after serve calls s) (accounted serve account calls s v) := by
  -- The account is carried along with the state.
  induction calls generalizing s v with
  | nil => exact h
  | cons c rest ih => exact ih (hstep c s v h)

/-- Two systems whose calls of a list end alike, in states that are
related again, answer the list alike and are related after it. -/
theorem outcomes_after_of_mem {R : σ → τ → Prop} {calls : List ι}
    (hstep : ∀ c ∈ calls, ∀ s t, R s t → outcome (serve c) s = outcome (serve' c) t ∧
      R (next (serve c) s) (next (serve' c) t))
    {s : σ} {t : τ} (h : R s t) :
    outcomes serve calls s = outcomes serve' calls t ∧
      R (after serve calls s) (after serve' calls t) := by
  -- The states stay related, so each call of the rest ends alike again.
  induction calls generalizing s t with
  | nil => exact ⟨rfl, h⟩
  | cons c rest ih =>
    obtain ⟨heq, hnext⟩ := hstep c List.mem_cons_self s t h
    obtain ⟨houtcomes, hafter⟩ := ih (fun c hc => hstep c (List.mem_cons_of_mem _ hc)) hnext
    refine ⟨?_, hafter⟩
    simp only [outcomes, heq, houtcomes]

/-- Two systems whose calls end alike, in states that are related again,
answer every list of calls alike. -/
theorem outcomes_eq {R : σ → τ → Prop}
    (hstep : ∀ c s t, R s t → outcome (serve c) s = outcome (serve' c) t ∧
      R (next (serve c) s) (next (serve' c) t))
    (calls : List ι) {s : σ} {t : τ} (h : R s t) :
    outcomes serve calls s = outcomes serve' calls t :=
  (outcomes_after_of_mem (fun c _ => hstep c) h).1

/-- A system that answers as long as another one does, and answers the
same, answers a list of calls that the other answers throughout. -/
theorem outcomes_eq_of_ok {R : σ → τ → Prop} {calls : List ι}
    (hstep : ∀ c ∈ calls, ∀ s t value, R s t → outcome (serve' c) t = .ok value →
      outcome (serve c) s = .ok value ∧ R (next (serve c) s) (next (serve' c) t))
    {s : σ} {t : τ} (h : R s t)
    (hok : ∀ result ∈ outcomes serve' calls t, ∃ value, result.2 = .ok value) :
    outcomes serve calls s = outcomes serve' calls t := by
  -- Only related states are known to answer alike, and they are as long as the other answers.
  induction calls generalizing s t with
  | nil => rfl
  | cons c rest ih =>
    obtain ⟨value, hvalue⟩ := hok _ List.mem_cons_self
    obtain ⟨heq, hnext⟩ := hstep c List.mem_cons_self s t value h hvalue
    have hrest := ih (fun c hc => hstep c (List.mem_cons_of_mem _ hc)) hnext
      fun result hresult => hok result (List.mem_cons_of_mem _ hresult)
    have hvalue : outcome (serve' c) t = .ok value := hvalue
    simp only [outcomes, heq, hvalue, hrest]

end BlockLayers.Op
