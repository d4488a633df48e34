import BlockLayers.Proofs.Below
import BlockLayers.Proofs.Mimics
import BlockLayers.Proofs.Run

/-!
# `BlockLayers.Proofs.Agrees`: one store in the place of another

`Op.Agrees R x y` says that from states that are related by `R` two
operations end alike, with one value or for one reason, and in states
that are related again. Where `Op.Mimics` is about runs that reach their
end, this is about all runs, so it goes both ways and carries along what
is known of how an operation ends (`Op.Agrees.ends`). There is one rule
for each way in which operations are put together.

Main statement: `Medium.along`. A contract that a store keeps on one of
its inodes is kept by every store that agrees with it, and so a store
that is made of layers can stand where one in memory stands.
-/

set_option autoImplicit false

namespace BlockLayers

variable {σ τ α : Type}

namespace Op

/-- From related states the operations end alike, and in related
states. -/
def Agrees (R : σ → τ → Prop) (x : Op σ α) (y : Op τ α) : Prop :=
  ∀ s t, R s t → outcome x s = outcome y t ∧ R (next x s) (next y t)

namespace Agrees

variable {R : σ → τ → Prop} {x : Op σ α} {y : Op τ α} {s : σ} {t : τ}

/-- A value of the second operation is one of the first. -/
theorem of_ok (h : Agrees R x y) (hR : R s t) {value : α} {t' : τ} (hy : y t = .ok value t') :
    ∃ s', x s = .ok value s' ∧ R s' t' := by
  obtain ⟨houtcome, hnext⟩ := h s t hR
  simp only [outcome, next, hy] at houtcome hnext
  exact ⟨next x s, apply_of_outcome_ok houtcome, hnext⟩

/-- A fault of the second operation is one of the first. -/
theorem of_fault (h : Agrees R x y) (hR : R s t) {fault : Fault} {t' : τ}
    (hy : y t = .error (.fault fault) t') : ∃ s', x s = .error (.fault fault) s' ∧ R s' t' := by
  obtain ⟨houtcome, hnext⟩ := h s t hR
  unfold outcome at houtcome
  unfold next at hnext
  -- The outcomes are equal, so the first operation has not ended well either.
  cases hx : x s with
  | ok value s' =>
    simp only [hx, hy] at houtcome
    cases houtcome
  | error stop s' =>
    simp only [hx, hy] at houtcome hnext
    cases houtcome
    exact ⟨s', rfl, hnext⟩

/-- The first operation ends as the second does. -/
theorem ends (h : Agrees R x y) (hR : R s t) {good : α → τ → Prop} {bad : Fault → τ → Prop}
    (hy : Ends y t good bad) :
    Ends x s (fun value s' => ∃ t', R s' t' ∧ good value t')
      fun fault s' => ∃ t', R s' t' ∧ bad fault t' := by
  rcases hy.exists_run with ⟨value, t', hrun, hgood⟩ | ⟨fault, t', hrun, hbad⟩
  · obtain ⟨s', hx, hR'⟩ := h.of_ok hR hrun
    exact .of_ok hx ⟨t', hR', hgood⟩
  · obtain ⟨s', hx, hR'⟩ := h.of_fault hR hrun
    exact .of_fault hx ⟨t', hR', hbad⟩

/-! #### Operations put together -/

/-- A value that is at hand. -/
theorem pure {value : α} : Agrees R (Pure.pure value) (Pure.pure value) := fun _ _ hR => ⟨rfl, hR⟩

/-- A refusal. -/
theorem fail {fault : Fault} : Agrees R (Op.fail fault : Op σ α) (Op.fail fault) :=
  fun _ _ hR => ⟨rfl, hR⟩

/-- Two operations in turn. -/
theorem bind {β : Type} {f : α → Op σ β} {g : α → Op τ β} (h : Agrees R x y)
    (hf : ∀ value, Agrees R (f value) (g value)) : Agrees R (x >>= f) (y >>= g) := by
  intro s t hR
  obtain ⟨houtcome, hnext⟩ := h s t hR
  simp only [outcome, next] at houtcome hnext
  -- Where the first parts end well so do both, and the rest starts from related states.
  cases hx : x s with
  | ok value s' =>
    cases hy : y t with
    | ok value' t' =>
      simp only [hx, hy] at houtcome hnext
      cases houtcome
      have hrest := hf value s' t' hnext
      simp only [outcome, next, bind_of_ok hx, bind_of_ok hy] at hrest ⊢
      exact hrest
    | error stop t' =>
      simp only [hx, hy] at houtcome
      cases houtcome
  | error stop s' =>
    cases hy : y t with
    | ok value' t' =>
      simp only [hx, hy] at houtcome
      cases houtcome
    | error stop' t' =>
      simp only [hx, hy] at houtcome hnext
      cases houtcome
      unfold outcome next
      rw [bind_of_error hx, bind_of_error hy]
      exact ⟨rfl, hnext⟩

/-- A fault that is dealt with. -/
theorem attempt (h : Agrees R x y) : Agrees R (Op.attempt x) (Op.attempt y) := by
  intro s t hR
  obtain ⟨houtcome, hnext⟩ := h s t hR
  simp only [outcome, next, attempt_apply] at houtcome hnext ⊢
  cases hx : x s <;> cases hy : y t <;> simp only [hx, hy] at houtcome hnext <;> cases houtcome
  · exact ⟨rfl, hnext⟩
  · rename_i stop _ _
    cases stop <;> exact ⟨rfl, hnext⟩

/-- An entry in the journal, where entries keep the states related. -/
theorem note [Journal σ] [Journal τ] {event : Event}
    (h : ∀ s t, R s t → R (Journal.enter event s) (Journal.enter event t)) :
    Agrees R (Op.note event) (Op.note event) := fun s t hR => ⟨rfl, h s t hR⟩

/-- The own state of a layer is the same. -/
theorem own {ω : Type} : Agrees (Beside R) (Op.own : Op (ω × σ) ω) Op.own := by
  rintro ⟨mine, s⟩ ⟨_, t⟩ ⟨rfl, hR⟩
  exact ⟨rfl, rfl, hR⟩

/-- A change of the own state of a layer. -/
theorem modifyOwn {ω : Type} {f : ω → ω} :
    Agrees (Beside R) (Op.modifyOwn f) (Op.modifyOwn f) := by
  rintro ⟨mine, s⟩ ⟨_, t⟩ ⟨rfl, hR⟩
  exact ⟨rfl, rfl, hR⟩

/-- An operation of the store below a layer. -/
theorem lower {ω : Type} (h : Agrees R x y) :
    Agrees (Beside R) (Op.lower x : Op (ω × σ) α) (Op.lower y) := by
  rintro ⟨mine, s⟩ ⟨_, t⟩ ⟨rfl, hR⟩
  obtain ⟨houtcome, hnext⟩ := h s t hR
  simp only [outcome, next, lower_apply] at houtcome hnext ⊢
  cases hx : x s <;> cases hy : y t <;> simp only [hx, hy] at houtcome hnext <;> cases houtcome
  · exact ⟨rfl, rfl, hnext⟩
  · exact ⟨rfl, rfl, hnext⟩

/-- A computation without a state. -/
theorem lift {result : Except Abort α} : Agrees R (liftM result) (liftM result) := by
  intro s t hR
  cases result <;> exact ⟨rfl, hR⟩

/-- A computation that has ended. -/
theorem ofResult {result : Except Stop α} : Agrees R (Op.ofResult result) (Op.ofResult result) := by
  intro s t hR
  cases result <;> exact ⟨rfl, hR⟩

/-- A refusal under a condition, and what follows where it does not
hold. -/
theorem guard {β : Type} {c : Prop} [Decidable c] {fault : Fault} {f : α → Op σ β} {g : α → Op τ β}
    {rest : Op σ β} {rest' : Op τ β} (h : Agrees R rest rest') :
    Agrees R (if c then (Op.fail fault : Op σ α) >>= f else rest)
      (if c then (Op.fail fault : Op τ α) >>= g else rest') := by
  split
  · exact fun _ _ hR => ⟨rfl, hR⟩
  · exact h

/-- An operation of a layer that starts from a given own state. -/
theorem withOwn {ω : Type} {mine : ω} {x : Op (ω × σ) α} {y : Op (ω × τ) α}
    (h : Agrees (Beside R) x y) : Agrees R (Op.withOwn mine x) (Op.withOwn mine y) := by
  intro s t hR
  obtain ⟨houtcome, hnext⟩ := h (mine, s) (mine, t) ⟨rfl, hR⟩
  simp only [outcome, next, Op.withOwn] at houtcome hnext ⊢
  cases hx : x (mine, s) with
  | ok value after =>
    cases hy : y (mine, t) with
    | ok value' after' =>
      simp only [hx, hy] at houtcome hnext
      cases houtcome
      -- The own states are equal at the end, so only what is below is left.
      obtain ⟨mine₁, s₁⟩ := after
      obtain ⟨mine₂, t₁⟩ := after'
      obtain ⟨rfl, hnext⟩ : mine₁ = mine₂ ∧ R s₁ t₁ := hnext
      exact ⟨rfl, hnext⟩
    | error stop after' =>
      simp only [hx, hy] at houtcome
      cases houtcome
  | error stop after =>
    cases hy : y (mine, t) with
    | ok value' after' =>
      simp only [hx, hy] at houtcome
      cases houtcome
    | error stop' after' =>
      simp only [hx, hy] at houtcome hnext
      cases houtcome
      exact ⟨rfl, hnext.2⟩

/-- Related states are related after every list of calls. -/
theorem after {ι : Type} {Answer : ι → Type} {serve : (c : ι) → Op σ (Answer c)}
    {serve' : (c : ι) → Op τ (Answer c)} (h : ∀ c, Agrees R (serve c) (serve' c)) (calls : List ι)
    (hR : R s t) : R (Op.after serve calls s) (Op.after serve' calls t) :=
  (outcomes_after_of_mem (fun c _ => h c) hR).2

end Agrees

/-- Two stores that end every request alike from related states, and whose
journals keep the same levels there. -/
structure Exchange [Journal σ] [Journal τ] (R : σ → τ → Prop) (below : Store σ)
    (below' : Store τ) : Prop where
  request : ∀ q, Agrees R (below q) (below' q)
  note : ∀ event, Agrees R (Op.note event) (Op.note event)
  keeps : ∀ level, Agrees R (Op.keeps level) (Op.keeps level)

end Op

/-! ### The contract for one inode -/

section Medium

variable [Journal σ] [Journal τ] {below : Store σ} {below' : Store τ} {R : σ → τ → Prop}
  {ino : UInt32} {size : Nat} {blame : Fault → τ → Prop} {holds : τ → (Nat → Block) → Prop}

/-- A store that agrees with another keeps what the other keeps on one of
its inodes. -/
theorem Medium.along (h : ∀ q, Op.Agrees R (below q) (below' q))
    (hnote : ∀ event s t, R s t → R (Journal.enter event s) (Journal.enter event t))
    (hM : Medium below' ino size blame holds) :
    Medium below ino size (fun fault s => ∃ t, R s t ∧ blame fault t)
      (fun s image => ∃ t, R s t ∧ holds t image) where
  -- What holds of the related store holds of this one, at each end of each request.
  read := by
    rintro s image n ⟨t, hR, ht⟩ hn
    refine ((h _).ends hR (hM.read ht hn)).mono ?_ ?_
    · rintro block s' ⟨t', hR', hblock, ht'⟩
      exact ⟨hblock, t', hR', ht'⟩
    · rintro fault s' ⟨t', hR', ht', hblame⟩
      exact ⟨⟨t', hR', ht'⟩, t', hR', hblame⟩
  size := by
    rintro s image ⟨t, hR, ht⟩
    refine ((h _).ends hR (hM.size ht)).mono ?_ ?_
    · rintro count s' ⟨t', hR', hcount, ht'⟩
      exact ⟨hcount, t', hR', ht'⟩
    · rintro fault s' ⟨t', hR', ht', hblame⟩
      exact ⟨⟨t', hR', ht'⟩, t', hR', hblame⟩
  write := by
    rintro s image n block ⟨t, hR, ht⟩ hn
    refine ((h _).ends hR (hM.write block ht hn)).mono (fun _ _ hgood => hgood) ?_
    rintro fault s' ⟨t', hR', ht', hblame⟩
    exact ⟨⟨t', hR', ht'⟩, t', hR', hblame⟩
  sync := by
    rintro s image ⟨t, hR, ht⟩
    refine ((h _).ends hR (hM.sync ht)).mono (fun _ _ hgood => hgood) ?_
    rintro fault s' ⟨t', hR', ht', hblame⟩
    exact ⟨⟨t', hR', ht'⟩, t', hR', hblame⟩
  note := by
    rintro s image event ⟨t, hR, ht⟩
    exact ⟨_, hnote event s t hR, hM.note event ht⟩

end Medium

end BlockLayers
