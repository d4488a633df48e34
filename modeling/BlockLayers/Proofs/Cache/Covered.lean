import BlockLayers.Proofs.Cache.Calls

/-!
# `BlockLayers.Proofs.Cache.Covered`: a cache keeps the contract

A cache over a store is again a store, with a content of its own, and it
refuses what is refused below: `Covered` says that over the content
`q` of the store below a cache shows the content `p`. The two may differ
in every block, and in the sizes of the inodes, as long as there are
changed blocks. In a settled inode there are none.

Main statements: `backing` (so that caches can be stacked) and
`Covered.eq` (where nothing is changed the two contents are the same).
-/

set_option autoImplicit false

namespace BlockLayers.Cache

open BlockLayers.Cache.Shelf

variable {n : Nat}

/-- Over the content `q` a cache shows the content `p`. Both have `size`
inodes. -/
structure Covered (size : Nat) (settled : UInt32 → Prop) (c : Cache n) (q p : Plain) : Prop where
  shows : c.ring.shelf.Shows q p.at_
  clean : c.policy = .writeThrough → c.ring.shelf.Clean
  free : c.ring.shelf.Free (fun ino => ino.toNat < size) settled
  size_below : q.size = size
  size_eq : p.size = size

namespace Covered

variable {size : Nat} {settled settled' : UInt32 → Prop} {c c' : Cache n} {q q' p : Plain}

/-- An empty cache shows what is below. -/
theorem empty (policy : Policy) (hn : 0 < n) (settled : UInt32 → Prop) (p : Plain) :
    Covered p.size settled (Cache.empty policy n hn) p p := by
  have hno : ∀ i x, ¬ (Cache.empty policy n hn).ring.shelf i = some x := by
    intro i x hi
    cases (Ring.shelf_empty n hn i).symm.trans hi
  exact ⟨.empty (Ring.shelf_empty n hn) p, fun _ i x hi => (hno i x hi).elim,
    fun i x hi => (hno i x hi).elim, rfl, rfl⟩

/-- Inodes may count as not settled. -/
theorem unsettle (h : Covered size settled c q p) (hless : ∀ ino, settled' ino → settled ino) :
    Covered size settled' c q p :=
  { h with free := fun i x hi hdirty =>
      ⟨(h.free i x hi hdirty).1, fun hin => (h.free i x hi hdirty).2 (hless _ hin)⟩ }

/-- Moves leave the content as it is. -/
theorem moves (h : Covered size settled c q p) (hpolicy : c'.policy = c.policy)
    (hmoves : Moves (c.ring.shelf, q) (c'.ring.shelf, q')) : Covered size settled c' q' p where
  shows := h.shows.moves hmoves
  clean hthrough := (h.clean (hpolicy ▸ hthrough)).moves hmoves
  free := h.free.moves hmoves
  size_below := (moves_size hmoves).trans h.size_below
  size_eq := h.size_eq

/-- A changed block is put in its place. -/
theorem set (h : Covered size settled c q p) {K : Shelf n} {i : Fin n} {a : Address}
    {block : Block} (hpolicy : c'.policy = .writeBack)
    (hmoves : Moves (c.ring.shelf, q) (K, q')) (hplace : K.Place i a)
    (hshelf : c'.ring.shelf = Function.update K i (some ⟨a, block, true⟩))
    (hino : a.ino.toNat < size) (hnot : ¬ settled a.ino) :
    Covered size settled c' q' (p.write a block) where
  shows := by
    have hp : a.ino.toNat < p.size := Nat.lt_of_lt_of_eq hino h.size_eq.symm
    rw [hshelf]
    refine (h.shows.moves hmoves).set hplace ?_ (fun i k hat => ?_) fun i k k' _ hk hview =>
      Plain.at_ne_none hview hk
    · rw [Plain.at_write block hp, if_pos ⟨rfl, rfl⟩]
    · rw [Plain.at_write block hp, if_neg hat]
      split
      · rename_i hbefore
        cases hview : p.at_ i k with
        | none => exact .inr ⟨rfl, rfl, hbefore⟩
        | some kept => exact .inl rfl
      · exact .inl rfl
  clean hthrough := by
    rw [hpolicy] at hthrough
    cases hthrough
  free j x hj hdirty := by
    rw [hshelf] at hj
    rcases update_eq_some hj with ⟨-, hx⟩ | ⟨-, hj⟩
    · cases hx
      exact ⟨hino, hnot⟩
    · exact h.free.moves hmoves j x hj hdirty
  size_below := (moves_size hmoves).trans h.size_below
  size_eq := (Plain.size_write ..).trans h.size_eq

/-- A block is written below at once. -/
theorem write (h : Covered size settled c q p) {K : Shelf n} {a : Address} {block : Block}
    (hthrough : c.policy = .writeThrough) (hmoves : Moves (c.ring.shelf, q) (K, q))
    (hlacks : K.Lacks a) (hmoves' : Moves (K, q.write a block) (c'.ring.shelf, q'))
    (hino : a.ino.toNat < q.size) : Covered size settled c' q' (p.write a block) := by
  -- Nothing is changed in such a cache, so what it shows is what is below.
  have hclean := (h.clean hthrough).moves hmoves
  have hfree := h.free.moves hmoves
  have hp : a.ino.toNat < p.size := Nat.lt_of_lt_of_eq hino (h.size_below.trans h.size_eq.symm)
  have hshows := (h.shows.moves hmoves).write hclean hlacks hino (Plain.at_write block hp)
  exact {
    shows := hshows.moves hmoves'
    clean := fun _ => Clean.moves (q := (K, q.write a block)) hclean hmoves'
    free := Free.moves (q := (K, q.write a block)) hfree hmoves'
    size_below := (moves_size hmoves').trans ((Plain.size_write ..).trans h.size_below)
    size_eq := (Plain.size_write ..).trans h.size_eq }

/-- An inode is resized. -/
theorem resize (h : Covered size settled c q p) {ino blocks : UInt32}
    (hpolicy : c'.policy = c.policy) (hshelf : c'.ring.shelf = c.ring.shelf.dropFrom ino blocks)
    (hino : ino.toNat < q.size) :
    Covered size settled c' (q.resize ino blocks) (p.resize ino blocks) where
  shows := by
    have hp : ino.toNat < p.size := Nat.lt_of_lt_of_eq hino (h.size_below.trans h.size_eq.symm)
    rw [hshelf]
    exact h.shows.resize hino (Plain.at_resize blocks hp)
  clean hthrough i x hi := by
    rw [hshelf] at hi
    exact h.clean (hpolicy ▸ hthrough) i x (dropFrom_eq_some.mp hi).1
  free i x hi := by
    rw [hshelf] at hi
    exact h.free i x (dropFrom_eq_some.mp hi).1
  size_below := (Plain.size_resize ..).trans h.size_below
  size_eq := (Plain.size_resize ..).trans h.size_eq

/-- A cache without changed blocks shows what is below. -/
theorem eq (h : Covered size settled c q p) (hclean : c.ring.shelf.Clean) : q = p :=
  Plain.ext_at (h.size_below.trans h.size_eq.symm) fun i k =>
    (h.shows.eq_below (hclean.unchanged i) k).symm

/-- When all inodes are settled no block is changed. -/
theorem clean_of_settled (h : Covered size settled c q p)
    (hall : ∀ ino : UInt32, ino.toNat < size → settled ino) : c.ring.shelf.Clean :=
  fun i x hi => Bool.eq_false_iff.mpr fun hdirty =>
    (h.free i x hi hdirty).2 (hall _ (h.free i x hi hdirty).1)

end Covered

variable {σ : Type} [Journal σ] {below : Store σ} {size : Nat}
  {refused : Plain → UInt32 → Fault → σ → Prop} {holds : (UInt32 → Prop) → σ → Plain → Prop}

/-- A cache over a store keeps a content, and refuses only what is
refused below: a request itself, or a changed block of any inode. -/
theorem backing (hB : Backing below (fun ino => ino.toNat < size) (fun _ _ _ _ => True) refused
      holds) :
    Backing (store below) (fun ino => ino.toNat < size) (fun _ _ _ _ => True)
      (fun _ _ fault s => ∃ q ino, refused q ino fault s.2) (fun settled (s : Cache n × σ) p =>
        ∃ q, Covered size settled s.1 q p ∧ holds settled s.2 q) where
  read a hs := by
    obtain ⟨q, h, hs⟩ := hs
    refine (read_ends hB h.free hs a).mono ?_ ?_
    · intro block after hafter
      obtain ⟨⟨q', hpolicy, hmoves, hafter⟩, hseen⟩ := hafter
      refine ⟨⟨q', h.moves hpolicy hmoves, hafter⟩, ?_⟩
      -- A block from a slot is the one that is shown, and so is one that no slot holds.
      rcases hseen with ⟨i, x, hi, rfl, rfl⟩ | ⟨hlacks, hbelow⟩
      · exact h.shows.held hi
      · exact h.shows.lacked hlacks hbelow
    · intro fault after hafter
      obtain ⟨⟨q', hpolicy, hmoves, hafter⟩, -⟩ := hafter
      exact ⟨⟨q', h.moves hpolicy hmoves, hafter⟩, trivial⟩
  write {settled s p} a block hs hino hnot := by
    obtain ⟨c, s⟩ := s
    obtain ⟨q, h, hs⟩ := hs
    cases hpolicy : c.policy with
    | writeBack =>
      refine (write_back_ends hB hpolicy h.shows.toOver h.free hs a block).mono ?_ ?_
      · intro _ after hafter
        obtain ⟨hpolicy', K, q', i, hmoves, hplace, hshelf, hafter⟩ := hafter
        exact ⟨⟨q', h.set (hpolicy'.trans hpolicy) hmoves hplace hshelf hino hnot, hafter⟩,
          Nat.lt_of_lt_of_eq hino h.size_eq.symm⟩
      · -- A write back fails only with a changed block that is refused below.
        intro fault after hafter
        obtain ⟨hpolicy', hshelf, hafter, i, x, -, -, hrefused⟩ := hafter
        exact ⟨⟨q, h.moves hpolicy' (hshelf ▸ .refl), hafter⟩, q, _, hrefused⟩
    | writeThrough =>
      refine (write_through_ends hB hpolicy h.shows.toOver (h.clean hpolicy) hs a block hino
        hnot).mono ?_ ?_
      · intro _ after hafter
        obtain ⟨-, hq, K, q', hmoves, hlacks, hmoves', hafter⟩ := hafter
        exact ⟨⟨q', h.write hpolicy hmoves hlacks hmoves' hq, hafter⟩,
          Nat.lt_of_lt_of_eq hino h.size_eq.symm⟩
      · intro fault after hafter
        obtain ⟨hpolicy', hshelf, hafter, hrefused⟩ := hafter
        exact ⟨⟨q, h.moves hpolicy' (hshelf ▸ .refl), hafter⟩, q, _, hrefused⟩
  resize {settled s p} ino blocks hs hino hnot := by
    obtain ⟨c, s⟩ := s
    obtain ⟨q, h, hs⟩ := hs
    refine (resize_ends hB hs ino blocks hino hnot).mono ?_ ?_
    · intro _ after hafter
      obtain ⟨hpolicy, hq, hshelf, hafter⟩ := hafter
      exact ⟨⟨_, h.resize hpolicy hshelf hq, hafter⟩, Nat.lt_of_lt_of_eq hino h.size_eq.symm⟩
    · intro fault after hafter
      obtain ⟨hsame, hafter, hrefused⟩ := hafter
      exact ⟨⟨q, hsame ▸ h, hafter⟩, q, ino, hrefused⟩
  sync {settled s p} ino hs hino := by
    obtain ⟨c, s⟩ := s
    obtain ⟨q, h, hs⟩ := hs
    refine (sync_ends hB h.clean h.free hs ino hino).mono ?_ ?_
    · intro _ after hafter
      obtain ⟨⟨q', hpolicy, hmoves, hafter⟩, hflushed⟩ := hafter
      -- The flush left no changed block of the inode, and there were none of the settled ones.
      have hmoved := h.moves hpolicy hmoves
      refine ⟨q', { hmoved with free := fun i x hi hdirty => ?_ }, hafter⟩
      refine ⟨(hmoved.free i x hi hdirty).1, fun hin => ?_⟩
      rcases hin with hin | hin
      · have hclean := hflushed i x hi hin
        rw [hdirty] at hclean
        cases hclean
      · exact (hmoved.free i x hi hdirty).2 hin
    · intro fault after hafter
      obtain ⟨⟨q', hpolicy, hmoves, hafter⟩, hrefused⟩ := hafter
      exact ⟨⟨q', h.moves hpolicy hmoves, hafter⟩, hrefused⟩
  size ino hs := by
    obtain ⟨q, h, hs⟩ := hs
    exact Op.Ends.lower ((hB.size ino hs).mono (fun _ _ hafter => ⟨q, h, hafter⟩)
      fun _ _ hafter => ⟨q, h, hafter⟩)
  capacity hs := by
    obtain ⟨q, h, hs⟩ := hs
    exact Op.Ends.lower ((hB.capacity hs).mono (fun _ _ hafter => ⟨q, h, hafter⟩)
      fun _ _ hafter => ⟨q, h, hafter⟩)
  note event hs := by
    obtain ⟨q, h, hs⟩ := hs
    exact ⟨q, h, hB.note event hs⟩

end BlockLayers.Cache
