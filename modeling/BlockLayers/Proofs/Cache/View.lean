import BlockLayers.Proofs.Cache.Shelf

/-!
# `BlockLayers.Proofs.Cache.View`: the blocks that a cache shows

Through a cache one sees for every place a block or nothing (a view).
`Shelf.Shows K p view` ties the view to the shelf and the store below. A
changed block is seen where it belongs, and elsewhere one sees what is
below. Where nothing is below, one sees nothing, or a zero that will be
there as soon as a changed block behind it is written.

Main statements: `Shows.moves` (what a cache does of its own accord
changes nothing that is seen), and `Shows.set`, `Shows.write` and
`Shows.resize` for what it is asked to do.
-/

set_option autoImplicit false

namespace BlockLayers.Cache.Shelf

variable {n : Nat}

/-- The view that a shelf and the store below give together. -/
structure Shows (K : Shelf n) (p : Plain) (view : Nat → Nat → Option Block) : Prop
    extends Over K p where
  /-- A changed block is seen. -/
  dirty : ∀ i k block, K.Dirty i k block → view i k = some block
  /-- Elsewhere the block below is seen. -/
  below : ∀ i k block, K.Unchanged i k → p.at_ i k = some block → view i k = some block
  /-- Where there is none, a zero is seen before a changed block, and
  otherwise nothing. -/
  beyond : ∀ i k, K.Unchanged i k → p.at_ i k = none →
    view i k = none ∨ view i k = some Block.zero ∧ ∃ k' > k, ¬ K.Unchanged i k'
  /-- In an inode that is there nothing is missing before a block. -/
  whole : ∀ i k k', i < p.size → k' ≤ k → view i k ≠ none → view i k' ≠ none

namespace Shows

variable {K K' : Shelf n} {p : Plain} {view view' : Nat → Nat → Option Block} {s : Fin n}
  {x : Kept} {a : Address}

/-- Through empty slots one sees what is below. -/
theorem empty (hempty : ∀ s, K s = none) (p : Plain) : K.Shows p p.at_ := by
  have hno : ∀ {s x}, K s ≠ some x := by
    intro s x hs
    cases (hempty s).symm.trans hs
  refine ⟨⟨?_, ?_⟩, ?_, ?_, ?_, ?_⟩
  · exact fun _ _ _ _ hs => (hno hs).elim
  · exact fun _ _ hs => (hno hs).elim
  · intro _ _ _ hd
    obtain ⟨_, _, hs, _⟩ := hd
    exact (hno hs).elim
  · exact fun _ _ _ _ hp => hp
  · exact fun _ _ _ hp => .inl hp
  · exact fun _ _ _ _ hk hview => Plain.at_ne_none hview hk

/-- The block that a slot keeps is the one that is seen. -/
theorem held (h : K.Shows p view) (hs : K s = some x) :
    view x.key.ino.toNat x.key.offset.toNat = some x.data := by
  rcases h.toOver.held hs with hdirty | ⟨hclean, hblock⟩
  · exact h.dirty _ _ _ hdirty
  · exact h.below _ _ _ hclean hblock

/-- The block below is seen where no slot keeps one. -/
theorem lacked (h : K.Shows p view) (ha : K.Lacks a) {block : Block}
    (hblock : p.block? a = some block) : view a.ino.toNat a.offset.toNat = some block :=
  h.below _ _ _ ha.unchanged hblock

/-- Nothing is seen but what is below when no block is changed. -/
theorem eq_below (h : K.Shows p view) {i : Nat} (hu : ∀ k, K.Unchanged i k) (k : Nat) :
    view i k = p.at_ i k := by
  cases hp : p.at_ i k with
  | some kept => exact h.below i k kept (hu k) hp
  | none =>
    rcases h.beyond i k (hu k) hp with hnone | ⟨-, k', -, hchanged⟩
    · exact hnone
    · exact (hchanged (hu k')).elim

/-- Only the changed blocks of a shelf count. -/
theorem congr (h : K.Shows p view) (hover : K'.Over p)
    (hdirty : ∀ i k block, K'.Dirty i k block ↔ K.Dirty i k block) : K'.Shows p view := by
  have hsame : ∀ i k, K'.Unchanged i k ↔ K.Unchanged i k := fun i k =>
    forall_congr' fun block => not_congr (hdirty i k block)
  refine ⟨hover, fun i k block hd => ?_, fun i k block hu => ?_, fun i k hu hp => ?_, h.whole⟩
  · exact h.dirty i k block ((hdirty i k block).mp hd)
  · exact h.below i k block ((hsame i k).mp hu)
  · simp only [hsame]
    exact h.beyond i k ((hsame i k).mp hu) hp

/-- A changed block that is written below was seen before. -/
theorem flush (h : K.Shows p view) (hs : K s = some x) (hdirty : x.dirty = true)
    (hino : x.key.ino.toNat < p.size) :
    Shows (Function.update K s (some { x with dirty := false })) (p.write x.key x.data) view := by
  have hseen := h.dirty _ _ _ ⟨s, x, hs, hdirty, ⟨rfl, rfl⟩, rfl⟩
  have hiff : ∀ i k block,
      Dirty (Function.update K s (some { x with dirty := false })) i k block ↔
        ¬ (i = x.key.ino.toNat ∧ k = x.key.offset.toNat) ∧ K.Dirty i k block :=
    fun _ _ _ => h.toOver.dirty_flush hs
  have hunchanged : ∀ i k, ¬ (i = x.key.ino.toNat ∧ k = x.key.offset.toNat) →
      Unchanged (Function.update K s (some { x with dirty := false })) i k → K.Unchanged i k :=
    fun i k hat hu block hd => hu block ((hiff i k block).mpr ⟨hat, hd⟩)
  refine ⟨h.toOver.flush hs hino, fun i k block hd => ?_, fun i k block hu hp => ?_,
    fun i k hu hp => ?_, fun i k k' hi => ?_⟩
  · exact h.dirty i k block ((hiff i k block).mp hd).2
  · rw [Plain.at_write x.data hino] at hp
    split at hp
    · rename_i hat
      rw [hat.1, hat.2, hseen, hp]
    · rename_i hat
      have hu := hunchanged i k hat hu
      split at hp
      · -- A zero that was written to fill up was seen before, as the block behind it was.
        rename_i hbefore
        cases hbelow : p.at_ i k with
        | some kept =>
          rw [hbelow] at hp
          rw [h.below i k kept hu hbelow, ← hp, Option.getD_some]
        | none =>
          rw [hbelow] at hp
          rcases h.beyond i k hu hbelow with hnone | ⟨hzero, -⟩
          · rw [← hbefore.1] at hseen hino
            have hle := Nat.le_of_lt hbefore.2
            exact (h.whole i _ k hino hle (hseen ▸ Option.some_ne_none _) hnone).elim
          · rw [hzero, ← hp, Option.getD_none]
      · exact h.below i k block hu hp
  · rw [Plain.at_write x.data hino] at hp
    split at hp
    · cases hp
    rename_i hat
    split at hp
    · cases hp
    rename_i hbefore
    -- The changed block that a zero waits for is not the one that was written.
    rcases h.beyond i k (hunchanged i k hat hu) hp with hnone | ⟨hzero, k', hk', hchanged⟩
    · exact .inl hnone
    · refine .inr ⟨hzero, k', hk', fun hu' => hchanged (hunchanged i k' (fun hat' => ?_) hu')⟩
      exact hbefore ⟨hat'.1, hat'.2 ▸ hk'⟩
  · rw [Plain.size_write] at hi
    exact h.whole i k k' hi

/-- Moves change nothing that is seen. -/
theorem moves {q q' : Shelf n × Plain} (h : Shows q.1 q.2 view) (hmoves : Moves q q') :
    Shows q'.1 q'.2 view := by
  induction hmoves with
  | refl => exact h
  | tail _ hmove ih =>
    have hover := ih.toOver.moves (.single hmove)
    cases hmove with
    | flush hs hdirty hino => exact ih.flush hs hdirty hino
    | evict hs hclean => exact ih.congr hover fun _ _ _ => dirty_evict hs hclean
    | load hs => exact ih.congr hover fun _ _ _ => dirty_load hs

/-- A changed block is put in its place. The blocks that are seen from
then on are it, the zeros before it, and those that were seen before. -/
theorem set (h : K.Shows p view) (hplace : K.Place s a) {block : Block}
    (hself : view' a.ino.toNat a.offset.toNat = some block)
    (hother : ∀ i k, ¬ (i = a.ino.toNat ∧ k = a.offset.toNat) → view' i k = view i k ∨
      view i k = none ∧ view' i k = some Block.zero ∧ i = a.ino.toNat ∧ k < a.offset.toNat)
    (hwhole : ∀ i k k', i < p.size → k' ≤ k → view' i k ≠ none → view' i k' ≠ none) :
    Shows (Function.update K s (some ⟨a, block, true⟩)) p view' := by
  have hiff : ∀ i k block', Dirty (Function.update K s (some ⟨a, block, true⟩)) i k block' ↔
      (i = a.ino.toNat ∧ k = a.offset.toNat) ∧ block = block' ∨
      ¬ (i = a.ino.toNat ∧ k = a.offset.toNat) ∧ K.Dirty i k block' :=
    fun _ _ _ => dirty_set hplace
  have hseen : ∀ i k block', ¬ (i = a.ino.toNat ∧ k = a.offset.toNat) → view i k = some block' →
      view' i k = some block' := by
    intro i k block' hat hview
    rcases hother i k hat with hsame | ⟨hnone, -⟩
    · rw [hsame, hview]
    · rw [hview] at hnone
      cases hnone
  refine ⟨h.toOver.set hplace fun hno => Bool.noConfusion hno, fun i k block' hd => ?_,
    fun i k block' hu hp => ?_, fun i k hu hp => ?_, hwhole⟩
  · rcases (hiff i k block').mp hd with ⟨hat, rfl⟩ | ⟨hat, hd⟩
    · rw [hat.1, hat.2, hself]
    · exact hseen i k block' hat (h.dirty i k block' hd)
  · have hat : ¬ (i = a.ino.toNat ∧ k = a.offset.toNat) := fun hat =>
      hplace.changed_set_self block (hat.1 ▸ hat.2 ▸ hu)
    exact hseen i k block' hat
      (h.below i k block' (not_imp_not.mp hplace.changed_set hu) hp)
  · have hat : ¬ (i = a.ino.toNat ∧ k = a.offset.toNat) := fun hat =>
      hplace.changed_set_self block (hat.1 ▸ hat.2 ▸ hu)
    have hbeyond := h.beyond i k (not_imp_not.mp hplace.changed_set hu) hp
    rcases hother i k hat with hsame | ⟨-, hzero, hino, hbefore⟩
    · rw [hsame]
      rcases hbeyond with hnone | ⟨hzero, k', hk', hchanged'⟩
      · exact .inl hnone
      · exact .inr ⟨hzero, k', hk', hplace.changed_set hchanged'⟩
    · -- A new zero waits for the block that was put in its place.
      exact .inr ⟨hzero, a.offset.toNat, hbefore, hino ▸ hplace.changed_set_self block⟩

/-- A block is written below. No block is changed, so that what is seen
is what is below. -/
theorem write (h : K.Shows p view) (hclean : K.Clean) (ha : K.Lacks a)
    (hino : a.ino.toNat < p.size) {block : Block}
    (hview : ∀ i k, view' i k =
      if i = a.ino.toNat ∧ k = a.offset.toNat then some block
      else if i = a.ino.toNat ∧ k < a.offset.toNat then some ((view i k).getD Block.zero)
      else view i k) : K.Shows (p.write a block) view' := by
  have hview' : ∀ i k, view' i k = (p.write a block).at_ i k := by
    intro i k
    rw [hview, Plain.at_write block hino, h.eq_below (hclean.unchanged i)]
  refine ⟨h.toOver.write ha block hino, fun i k block' hd => ?_, fun i k block' _ hp => ?_,
    fun i k _ hp => ?_, fun i k k' hi hk => ?_⟩
  · exact (hclean.unchanged i k block' hd).elim
  · rw [hview', hp]
  · rw [hview', hp]
    exact .inl rfl
  · rw [hview', hview']
    exact fun hk' => Plain.at_ne_none hk' hk

/-- An inode is resized, below and on the shelf. -/
theorem resize (h : K.Shows p view) {ino blocks : UInt32} (hino : ino.toNat < p.size)
    (hview : ∀ i k, view' i k =
      if i = ino.toNat then if k < blocks.toNat then some ((view i k).getD Block.zero) else none
      else view i k) : (K.dropFrom ino blocks).Shows (p.resize ino blocks) view' := by
  have hseen : ∀ i k block, ¬ (i = ino.toNat ∧ blocks.toNat ≤ k) → view i k = some block →
      view' i k = some block := by
    intro i k block hin hsome
    rw [hview, hsome]
    split
    · rw [if_pos (by omega)]
      rfl
    · rfl
  have hunchanged : ∀ i k, ¬ (i = ino.toNat ∧ blocks.toNat ≤ k) →
      (K.dropFrom ino blocks).Unchanged i k → K.Unchanged i k :=
    fun i k hin hu block hd => hu block (dirty_dropFrom.mpr ⟨hin, hd⟩)
  refine ⟨h.toOver.resize blocks hino, fun i k block hd => ?_, fun i k block hu hp => ?_,
    fun i k hu hp => ?_, fun i k k' hi hk => ?_⟩
  · obtain ⟨hin, hd⟩ := dirty_dropFrom.mp hd
    exact hseen i k block hin (h.dirty i k block hd)
  · rw [Plain.at_resize blocks hino] at hp
    split at hp
    · rename_i hi
      split at hp
      · rename_i hk
        have hu := hunchanged i k (by omega) hu
        rw [hview, if_pos hi, if_pos hk, ← hp]
        cases hbelow : p.at_ i k with
        | some kept => rw [h.below i k kept hu hbelow]
        | none =>
          -- The resize puts a zero where there was nothing, and a zero is all that was seen.
          rcases h.beyond i k hu hbelow with hnone | ⟨hzero, -⟩
          · rw [hnone]
          · rw [hzero]
            rfl
      · cases hp
    · rename_i hi
      have hin : ¬ (i = ino.toNat ∧ blocks.toNat ≤ k) := fun hin => hi hin.1
      exact hseen i k block hin (h.below i k block (hunchanged i k hin hu) hp)
  · rw [Plain.at_resize blocks hino] at hp
    rw [hview]
    split at hp
    · rename_i hi
      split at hp
      · cases hp
      · rename_i hk
        rw [if_pos hi, if_neg hk]
        exact .inl rfl
    · rename_i hi
      rw [if_neg hi]
      have hin : ∀ k', ¬ (i = ino.toNat ∧ blocks.toNat ≤ k') := fun _ hin => hi hin.1
      rcases h.beyond i k (hunchanged i k (hin k) hu) hp with hnone | ⟨hzero, k', hk', hchanged⟩
      · exact .inl hnone
      · exact .inr ⟨hzero, k', hk', fun hu' => hchanged (hunchanged i k' (hin k') hu')⟩
  · rw [Plain.size_resize] at hi
    rw [hview, hview]
    intro hk'
    split at hk'
    · rename_i heq
      split at hk'
      · rw [if_pos heq, if_pos (by omega)]
        exact Option.some_ne_none _
      · exact (hk' rfl).elim
    · rename_i heq
      rw [if_neg heq]
      exact h.whole i k k' hi hk hk'

end Shows

end BlockLayers.Cache.Shelf
