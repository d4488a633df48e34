import BlockLayers.Proofs.Below
import BlockLayers.Proofs.Fat.FileMap
import Mathlib.Tactic.SplitIfs

/-!
# `BlockLayers.Proofs.Fat.Backing`: a map of files keeps the contract

A map of files refuses more than a store in memory does: a file is not
resized to any size, and the blocks may not suffice. What it does not
refuse it does to its files as a store in memory does it to its inodes
(`FileMap.plain`). So a map of files can stand below other layers.

Main statement: `FileMap.backing`.
-/

set_option autoImplicit false

namespace BlockLayers.Fat.FileMap

/-- A map of files has no room for events. -/
instance : Journal FileMap := Journal.silent FileMap

/-- Every block is free or in a file. -/
def Whole (f : FileMap) : Prop := f.free + f.used = f.total.toNat

/-- The files of a map as the inodes of a store. -/
def plain (f : FileMap) : Plain :=
  Array.ofFn fun i : Fin f.count.toNat => (f.file (UInt32.ofNat i.val)).toArray

variable {f : FileMap} {ino : UInt32}

/-- There are as many inodes as files. -/
theorem size_plain (f : FileMap) : f.plain.size = f.count.toNat := Array.size_ofFn

/-- The blocks of a file as those of an inode. -/
theorem at_plain (f : FileMap) (i k : Nat) :
    f.plain.at_ i k = if i < f.count.toNat then (f.file (UInt32.ofNat i))[k]? else none := by
  unfold Plain.at_ plain
  rw [Array.getD_eq_getD_getElem?, Array.getElem?_ofFn]
  split
  · rw [Option.getD_some, List.getElem?_toArray]
  · rfl

/-- The blocks of a file that is there as those of its inode. -/
theorem at_plain_of_lt (h : ino < f.count) (k : Nat) :
    f.plain.at_ ino.toNat k = (f.file ino)[k]? := by
  rw [at_plain, if_pos (UInt32.lt_iff_toNat_lt.mp h), UInt32.ofNat_toNat]

/-- A file with other blocks is an inode with other blocks. -/
theorem plain_setFile (h : ino < f.count) {p : Plain} (hsize : p.size = f.count.toNat)
    {blocks : List Block} (free : Nat) (hself : ∀ k, p.at_ ino.toNat k = blocks[k]?)
    (hother : ∀ i k, i ≠ ino.toNat → p.at_ i k = f.plain.at_ i k) :
    (f.setFile ino blocks free).plain = p := by
  refine Plain.ext_at ((size_plain _).trans hsize.symm) fun i k => ?_
  -- The file that was set is seen as it was set, and the others as they were.
  by_cases hi : i = ino.toNat
  · rw [hi, hself, at_plain_of_lt (show ino < (f.setFile ino blocks free).count from h),
      file_setFile_self]
  · rw [hother i k hi, at_plain, at_plain,
      show (f.setFile ino blocks free).count = f.count from rfl]
    split
    · rename_i hlt
      have hcount := f.count.toNat_lt
      rw [file_setFile_of_ne]
      rintro rfl
      exact hi (UInt32.toNat_ofNat_of_lt' (show i < 4294967296 by omega)).symm
    · rfl

/-- A change of one file that loses no block and makes none. -/
theorem Whole.setFile (hf : f.Whole) (h : ino < f.count) {blocks : List Block} {free : Nat}
    (hblocks : free + blocks.length = f.free + (f.file ino).length) :
    (f.setFile ino blocks free).Whole := by
  have hused := used_setFile h blocks free
  unfold Whole at hf ⊢
  show free + (f.setFile ino blocks free).used = f.total.toNat
  omega

/-- The number of blocks of a file is a word. -/
theorem Whole.toNat_length (hf : f.Whole) (h : ino < f.count) :
    (UInt32.ofNat (f.file ino).length).toNat = (f.file ino).length := by
  -- A file has at most the blocks that are used, and these are counted by a word.
  have hused := length_le_used h
  have htotal := f.total.toNat_lt
  unfold Whole at hf
  exact UInt32.toNat_ofNat_of_lt' (show _ < 4294967296 by omega)

/-- A write to a file is a write to an inode. -/
theorem plain_written (h : ino < f.count) (offset : UInt32) (data : Block) (free : Nat) :
    (f.setFile ino (written (f.file ino) offset.toNat data) free).plain =
      f.plain.write ⟨ino, offset⟩ data := by
  have hino : (⟨ino, offset⟩ : Address).ino.toNat < f.plain.size :=
    Nat.lt_of_lt_of_eq (UInt32.lt_iff_toNat_lt.mp h) (size_plain f).symm
  -- Both fill the blocks before the offset with zeros.
  refine plain_setFile h ((Plain.size_write ..).trans (size_plain f)) free (fun k => ?_)
    fun i k hi => ?_
  · rw [Plain.at_write data hino, getElem?_written, at_plain_of_lt h]
    simp only [true_and]
  · rw [Plain.at_write data hino, if_neg (fun hat => hi hat.1), if_neg (fun hat => hi hat.1)]

/-- A resize of a file to its own size changes nothing. -/
theorem plain_resize_self (hf : f.Whole) (h : ino < f.count) :
    f.plain = f.plain.resize ino (UInt32.ofNat (f.file ino).length) := by
  have hino : ino.toNat < f.plain.size :=
    Nat.lt_of_lt_of_eq (UInt32.lt_iff_toNat_lt.mp h) (size_plain f).symm
  refine Plain.ext_at (Plain.size_resize ..).symm fun i k => ?_
  rw [Plain.at_resize _ hino, hf.toNat_length h]
  -- Within the file its blocks are there, and behind its end there are none.
  split_ifs with hi hk
  · rw [hi, at_plain_of_lt h, List.getElem?_eq_getElem hk]
    rfl
  · rw [hi, at_plain_of_lt h, List.getElem?_eq_none (Nat.not_lt.mp hk)]
  · rfl

/-- A resize of a file to nothing is one of an inode. -/
theorem plain_emptied (h : ino < f.count) (free : Nat) :
    (f.setFile ino [] free).plain = f.plain.resize ino 0 := by
  have hino : ino.toNat < f.plain.size :=
    Nat.lt_of_lt_of_eq (UInt32.lt_iff_toNat_lt.mp h) (size_plain f).symm
  refine plain_setFile h ((Plain.size_resize ..).trans (size_plain f)) free (fun k => ?_)
    fun i k hi => ?_
  · rw [Plain.at_resize _ hino, if_pos rfl, UInt32.toNat_zero,
      if_neg (Nat.not_lt_zero k)]
    rfl
  · rw [Plain.at_resize _ hino, if_neg hi]

/-- A map of files keeps what is written to it, and refuses what it has
no file or no block for. -/
theorem backing (allowed : UInt32 → Prop) :
    Backing store allowed (fun _ _ _ _ => True) (fun _ _ _ _ => True)
      (fun _ f p => f.Whole ∧ f.plain = p) where
  read := by
    rintro _ f _ a ⟨hf, rfl⟩
    by_cases h : a.ino < f.count
    · cases hblock : (f.file a.ino)[a.offset.toNat]? with
      | some block =>
        exact .of_ok (read_apply h hblock) ⟨⟨hf, rfl⟩, (at_plain_of_lt h _).trans hblock⟩
      | none =>
        exact .of_fault (read_pastEnd h (List.getElem?_eq_none_iff.mp hblock)) ⟨⟨hf, rfl⟩, trivial⟩
    · have hrun : read a f = _ := within_refused (UInt32.not_lt.mp h)
      exact .of_fault hrun ⟨⟨hf, rfl⟩, trivial⟩
  write := by
    rintro _ f _ a data ⟨hf, rfl⟩ - -
    by_cases h : a.ino < f.count
    · have hino : a.ino.toNat < f.plain.size :=
        Nat.lt_of_lt_of_eq (UInt32.lt_iff_toNat_lt.mp h) (size_plain f).symm
      by_cases hroom : a.offset.toNat + 1 - (f.file a.ino).length ≤ f.free
      · refine .of_ok (write_apply h data hroom) ⟨⟨hf.setFile h ?_, plain_written h ..⟩, hino⟩
        rw [length_written]
        omega
      · exact .of_fault (write_noSpace h data (Nat.not_le.mp hroom)) ⟨⟨hf, rfl⟩, trivial⟩
    · have hrun : write a data f = _ := within_refused (UInt32.not_lt.mp h)
      exact .of_fault hrun ⟨⟨hf, rfl⟩, trivial⟩
  resize := by
    rintro _ f _ ino blocks ⟨hf, rfl⟩ - -
    by_cases h : ino < f.count
    · have hino : ino.toNat < f.plain.size :=
        Nat.lt_of_lt_of_eq (UInt32.lt_iff_toNat_lt.mp h) (size_plain f).symm
      have hrun : resize ino blocks f = _ := resize_apply h rfl
      -- Only its own size and nothing are offered; growth and a smaller size are refused.
      split_ifs at hrun with hsame hmore hsome
      · subst hsame
        exact .of_ok hrun ⟨⟨hf, plain_resize_self hf h⟩, hino⟩
      · exact .of_fault hrun ⟨⟨hf, rfl⟩, trivial⟩
      · exact .of_fault hrun ⟨⟨hf, rfl⟩, trivial⟩
      · obtain rfl : blocks = 0 := by
          rw [UInt32.not_lt] at hsome
          exact UInt32.le_antisymm hsome (UInt32.zero_le)
        refine .of_ok hrun ⟨⟨hf.setFile h ?_, plain_emptied h _⟩, hino⟩
        rfl
    · have hrun : resize ino blocks f = _ := within_refused (UInt32.not_lt.mp h)
      exact .of_fault hrun ⟨⟨hf, rfl⟩, trivial⟩
  sync := fun _ hs _ => hs
  size := by
    rintro _ f _ ino ⟨hf, rfl⟩
    by_cases h : ino < f.count
    · exact .of_ok (within_apply h) ⟨hf, rfl⟩
    · exact .of_fault (within_refused (UInt32.not_lt.mp h)) ⟨hf, rfl⟩
  capacity := fun hs => hs
  note := fun _ hs => hs

end BlockLayers.Fat.FileMap
