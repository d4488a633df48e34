import BlockLayers.Proofs.Plain

/-!
# `BlockLayers.Proofs.Cache.Acked`: the account of what succeeded

`Acked` is kept from the answers to requests alone: the latest write to
each place that succeeded and was not cut off since, and the content of
a store without a cache that was given all that succeeded. A cache may
take a write to an inode that the store does not have, and so the two
agree only on inodes that are there.

Main statements: `Agrees.write` and `Agrees.resize`, and `view_write` and
`view_resize`, which say what is to be seen after a request.
-/

set_option autoImplicit false

namespace BlockLayers.Cache

/-- What the calls that succeeded come to. -/
structure Acked where
  /-- The latest write to a place, if it was not cut off since. -/
  last : Nat → Nat → Option Block
  /-- The content of a store without a cache. -/
  plain : Plain

namespace Acked

/-- The account before the first call. -/
def start (p : Plain) : Acked := ⟨fun _ _ => none, p⟩

/-- The account after one more call. -/
def step (v : Acked) : ((q : Request) × Except Stop q.Answer) → Acked
  | ⟨.write a block, .ok _⟩ =>
    { last := fun i k =>
        if i = a.ino.toNat ∧ k = a.offset.toNat then some block else v.last i k
      plain := v.plain.write a block }
  | ⟨.resize ino blocks, .ok _⟩ =>
    { last := fun i k => if i = ino.toNat ∧ blocks.toNat ≤ k then none else v.last i k
      plain := v.plain.resize ino blocks }
  | _ => v

/-- The block that a read has to answer: the latest write, or else what
the store without a cache has. -/
def view (v : Acked) (i k : Nat) : Option Block := (v.last i k).or (v.plain.at_ i k)

/-- The account of an address. -/
def latest (v : Acked) (a : Address) : Option Block := v.last a.ino.toNat a.offset.toNat

/-- The latest writes to inodes that are there have reached the store
without a cache. -/
def Agrees (v : Acked) : Prop :=
  ∀ i k block, i < v.plain.size → v.last i k = some block → v.plain.at_ i k = some block

variable {v : Acked}

/-- In an inode that is there the store without a cache has every block
that is seen. -/
theorem Agrees.view_eq (h : v.Agrees) {i : Nat} (hi : i < v.plain.size) (k : Nat) :
    v.view i k = v.plain.at_ i k := by
  unfold view
  cases hlast : v.last i k with
  | none => rfl
  | some block => rw [h i k block hi hlast, Option.some_or]

/-- In an inode that is there no block is missing before one that is
seen. -/
theorem Agrees.whole (h : v.Agrees) {i k k' : Nat} (hi : i < v.plain.size) (hk : k' ≤ k)
    (hview : v.view i k ≠ none) : v.view i k' ≠ none := by
  rw [h.view_eq hi] at hview ⊢
  exact Plain.at_ne_none hview hk

/-- A write that succeeds keeps the account in agreement. -/
theorem Agrees.write (h : v.Agrees) (a : Address) (block : Block) (answer : Unit) :
    (v.step ⟨.write a block, .ok answer⟩).Agrees := by
  intro i k block' hi hlast
  dsimp only [step] at hi hlast ⊢
  rw [Plain.size_write] at hi
  -- At the written place both have the block. Elsewhere the account has not changed, and the plain
  -- store keeps the blocks that it has.
  split at hlast
  · rename_i hat
    rw [Plain.at_write block (hat.1 ▸ hi), if_pos hat, hlast]
  · rename_i hat
    have hkept := h i k block' hi hlast
    by_cases hino : a.ino.toNat < v.plain.size
    · exact Plain.at_write_of_some block hino hkept hat
    · rw [Plain.write_of_le block (Nat.not_lt.mp hino), hkept]

/-- A resize that succeeds keeps the account in agreement: the latest
writes behind the new end are forgotten. -/
theorem Agrees.resize (h : v.Agrees) {ino : UInt32} (hino : ino.toNat < v.plain.size)
    (blocks answer : UInt32) : (v.step ⟨.resize ino blocks, .ok answer⟩).Agrees := by
  intro i k block hi hlast
  dsimp only [step] at hi hlast ⊢
  rw [Plain.size_resize] at hi
  split at hlast
  · cases hlast
  · exact Plain.at_resize_of_some blocks hino (h i k block hi hlast) ‹_›

/-- The written block is seen. -/
theorem view_write_self (v : Acked) (a : Address) (block : Block) (answer : Unit) :
    (v.step ⟨.write a block, .ok answer⟩).view a.ino.toNat a.offset.toNat = some block := by
  dsimp only [step, view]
  rw [if_pos ⟨rfl, rfl⟩]
  rfl

/-- What is seen after a write to an inode that is there. -/
theorem view_write (h : v.Agrees) {a : Address} (hino : a.ino.toNat < v.plain.size)
    (block : Block) (answer : Unit) (i k : Nat) :
    (v.step ⟨.write a block, .ok answer⟩).view i k =
      if i = a.ino.toNat ∧ k = a.offset.toNat then some block
      else if i = a.ino.toNat ∧ k < a.offset.toNat then some ((v.view i k).getD Block.zero)
      else v.view i k := by
  by_cases hi : i < v.plain.size
  · have hi' : i < (v.step ⟨.write a block, .ok answer⟩).plain.size :=
      Nat.lt_of_lt_of_eq hi (Plain.size_write ..).symm
    rw [(h.write a block answer).view_eq hi', h.view_eq hi]
    exact Plain.at_write block hino i k
  · -- Of an inode that is not there nothing is seen but its latest writes.
    have hne : i ≠ a.ino.toNat := fun heq => hi (heq ▸ hino)
    simp only [hne, false_and, if_false]
    dsimp only [step, view]
    rw [if_neg fun hat => hne hat.1, Plain.at_write block hino, if_neg fun hat => hne hat.1,
      if_neg fun hat => hne hat.1]

/-- What is seen elsewhere after a write is what was seen before, or a
zero before the written block. -/
theorem view_write_of_ne (h : v.Agrees) (a : Address) (block : Block) (answer : Unit) {i k : Nat}
    (hat : ¬ (i = a.ino.toNat ∧ k = a.offset.toNat)) :
    (v.step ⟨.write a block, .ok answer⟩).view i k = v.view i k ∨
      v.view i k = none ∧ (v.step ⟨.write a block, .ok answer⟩).view i k = some Block.zero ∧
        i = a.ino.toNat ∧ k < a.offset.toNat := by
  by_cases hino : a.ino.toNat < v.plain.size
  · rw [view_write h hino, if_neg hat]
    split
    · rename_i hbefore
      cases hview : v.view i k with
      | none => exact .inr ⟨rfl, rfl, hbefore⟩
      | some kept => exact .inl rfl
    · exact .inl rfl
  · -- The store without a cache does not take the write.
    refine .inl ?_
    dsimp only [step, view]
    rw [if_neg hat, Plain.write_of_le block (Nat.not_lt.mp hino)]

/-- What is seen after an inode that is there is resized. -/
theorem view_resize (h : v.Agrees) {ino : UInt32} (hino : ino.toNat < v.plain.size)
    (blocks answer : UInt32) (i k : Nat) :
    (v.step ⟨.resize ino blocks, .ok answer⟩).view i k =
      if i = ino.toNat then
        if k < blocks.toNat then some ((v.view i k).getD Block.zero) else none
      else v.view i k := by
  by_cases hi : i < v.plain.size
  · have hi' : i < (v.step ⟨.resize ino blocks, .ok answer⟩).plain.size :=
      Nat.lt_of_lt_of_eq hi (Plain.size_resize ..).symm
    rw [(h.resize hino blocks answer).view_eq hi', h.view_eq hi]
    exact Plain.at_resize blocks hino i k
  · have hne : i ≠ ino.toNat := fun heq => hi (heq ▸ hino)
    rw [if_neg hne]
    dsimp only [step, view]
    rw [if_neg fun hat => hne hat.1, Plain.at_resize blocks hino, if_neg hne]

end Acked

end BlockLayers.Cache
