import BlockLayers.Memory

/-!
# `BlockLayers.Proofs.Plain`: the content of a store

A `Plain` is what a store keeps, without anything that it keeps it with:
the blocks of each inode. `Plain.write` and `Plain.resize` are the
changes that a store in memory makes to it.

Main statements: `Plain.at_write` and `Plain.at_resize`, which say for
every block what a change makes of it, and `Plain.ext_at`.
-/

set_option autoImplicit false

namespace BlockLayers

/-- The content of a store: the blocks of each inode. -/
abbrev Plain := Array (Array Block)

/-- Addresses of the same numbers are the same. -/
theorem Address.eq_of_toNat {a a' : Address} (hino : a.ino.toNat = a'.ino.toNat)
    (hoffset : a.offset.toNat = a'.offset.toNat) : a = a' := by
  obtain ⟨ino, offset⟩ := a
  obtain ⟨ino', offset'⟩ := a'
  obtain rfl := UInt32.toNat_inj.mp hino
  obtain rfl := UInt32.toNat_inj.mp hoffset
  rfl

namespace Plain

/-- A block of an inode, if the inode has it. -/
def at_ (p : Plain) (i k : Nat) : Option Block := (p.getD i #[])[k]?

/-- The block at an address, if the inode has it. -/
def block? (p : Plain) (a : Address) : Option Block := p.at_ a.ino.toNat a.offset.toNat

/-- The content after a block is written, as a store in memory does it. -/
def write (a : Address) (block : Block) (p : Plain) : Plain :=
  p.modify a.ino.toNat fun kept => Memory.put kept a.offset.toNat block

/-- The content after an inode is resized, as a store in memory does it. -/
def resize (ino blocks : UInt32) (p : Plain) : Plain :=
  p.modify ino.toNat fun kept => Memory.resized kept blocks.toNat

variable {p : Plain}

/-- A write makes no inodes and takes none away. -/
@[simp] theorem size_write (a : Address) (block : Block) : (p.write a block).size = p.size := by
  simp [write]

/-- A resize makes no inodes and takes none away. -/
@[simp] theorem size_resize (ino blocks : UInt32) : (p.resize ino blocks).size = p.size := by
  simp [resize]

/-- A block before one that is there is there too. -/
theorem at_ne_none {i k k' : Nat} (h : p.at_ i k' ≠ none) (hk : k ≤ k') : p.at_ i k ≠ none := by
  unfold at_ at h ⊢
  rw [ne_eq, Array.getElem?_eq_none_iff, Nat.not_le] at h ⊢
  exact Nat.lt_of_le_of_lt hk h

/-- The blocks after a write: the block itself, zeros before it where
there was nothing, and all others as they were. -/
theorem at_write {a : Address} (block : Block) (h : a.ino.toNat < p.size) (i k : Nat) :
    (p.write a block).at_ i k =
      if i = a.ino.toNat ∧ k = a.offset.toNat then some block
      else if i = a.ino.toNat ∧ k < a.offset.toNat then some ((p.at_ i k).getD Block.zero)
      else p.at_ i k := by
  unfold at_ write
  simp only [Array.getD_eq_getD_getElem?, Array.getElem?_modify]
  by_cases hi : i = a.ino.toNat
  · subst hi
    simp only [true_and, if_true, Array.getElem?_eq_getElem h, Option.map_some, Option.getD_some]
    by_cases hk : k = a.offset.toNat
    · rw [if_pos hk, hk, Memory.put_getElem?_self]
    · rw [if_neg hk, Memory.put_getElem?_of_ne _ _ hk]
      -- Before the old end a block stays, between the old end and the write there is a zero.
      by_cases hlt : k < (p[a.ino.toNat]).size
      · rw [if_pos hlt, Array.getElem?_eq_getElem hlt]
        split <;> rfl
      · rw [if_neg hlt, Array.getElem?_eq_none (Nat.not_lt.mp hlt)]
        rfl
  · have hne : ¬ a.ino.toNat = i := fun heq => hi heq.symm
    simp only [hi, hne, false_and, if_false]

/-- The blocks after an inode is resized: those before the new end, with
zeros where there was nothing. -/
theorem at_resize {ino : UInt32} (blocks : UInt32) (h : ino.toNat < p.size) (i k : Nat) :
    (p.resize ino blocks).at_ i k =
      if i = ino.toNat then
        if k < blocks.toNat then some ((p.at_ i k).getD Block.zero) else none
      else p.at_ i k := by
  unfold at_ resize
  simp only [Array.getD_eq_getD_getElem?, Array.getElem?_modify]
  by_cases hi : i = ino.toNat
  · subst hi
    simp only [if_true, Array.getElem?_eq_getElem h, Option.map_some, Option.getD_some]
    unfold Memory.resized
    split
    · -- The inode is cut.
      rename_i hle
      rw [Array.take, Array.getElem?_extract, Nat.zero_add, Nat.min_eq_left hle, Nat.sub_zero]
      split
      · rw [Array.getElem?_eq_getElem (by omega)]
        rfl
      · rfl
    · -- The inode grows by zeros.
      rename_i hle
      rw [Array.getElem?_append]
      by_cases hlt : k < (p[ino.toNat]).size
      · rw [if_pos hlt, if_pos (by omega), Array.getElem?_eq_getElem hlt]
        rfl
      · rw [if_neg hlt, Array.getElem?_replicate, Array.getElem?_eq_none (Nat.not_lt.mp hlt)]
        by_cases hk : k < blocks.toNat
        · rw [if_pos hk, if_pos (by omega)]
          rfl
        · rw [if_neg hk, if_neg (by omega)]
  · have hne : ¬ ino.toNat = i := fun heq => hi heq.symm
    simp only [hi, hne, if_false]

/-- Nothing is written to an inode that is not there. -/
theorem write_of_le {a : Address} (block : Block) (h : p.size ≤ a.ino.toNat) :
    p.write a block = p := by
  refine Array.ext (size_write ..) fun i hi hi' => ?_
  simp only [write, Array.getElem_modify]
  rw [if_neg (by omega)]

/-- A block that is there stays when another one is written. -/
theorem at_write_of_some {a : Address} (block : Block) {kept : Block} (h : a.ino.toNat < p.size)
    {i k : Nat} (hkept : p.at_ i k = some kept) (hne : ¬ (i = a.ino.toNat ∧ k = a.offset.toNat)) :
    (p.write a block).at_ i k = some kept := by
  rw [at_write block h, if_neg hne, hkept]
  split <;> rfl

/-- A block that is there stays when its inode does not end before it. -/
theorem at_resize_of_some {ino : UInt32} (blocks : UInt32) {kept : Block}
    (h : ino.toNat < p.size) {i k : Nat} (hkept : p.at_ i k = some kept)
    (hin : ¬ (i = ino.toNat ∧ blocks.toNat ≤ k)) : (p.resize ino blocks).at_ i k = some kept := by
  rw [at_resize blocks h, hkept]
  split
  · rw [if_pos (by omega)]
    rfl
  · rfl

/-- Contents that agree in every block are the same. -/
theorem ext_at {q : Plain} (hsize : p.size = q.size) (h : ∀ i k, p.at_ i k = q.at_ i k) :
    p = q := by
  refine Array.ext hsize fun i hi hi' => Array.ext_getElem? fun k => ?_
  have hblock := h i k
  unfold at_ at hblock
  simpa only [Array.getD_eq_getD_getElem?, Array.getElem?_eq_getElem hi,
    Array.getElem?_eq_getElem hi', Option.getD_some] using hblock

end Plain

end BlockLayers
