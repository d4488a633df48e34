import BlockLayers.Host.File
import BlockLayers.Proofs.Verify
import Mathlib.Data.List.GetD

/-!
# `BlockLayers.Proofs.Host.File`: a file as a byte string

A file keeps the blocks that were written to it, by their numbers. What
it is to its users is a byte string: `File.Has` says that a file is as
long as a byte string and that its blocks are those of the string, with
zeros behind the end.

Main statements: `has_ofBytes` and `Has.content`, and what the two
changes make of the byte string. `Has.putBlock` puts a block between the
bytes before it, filled up with zeros, and the bytes behind it, and
`Has.setLength` cuts the string or adds zeros to it.
-/

set_option autoImplicit false

namespace BlockLayers

namespace Block

/-! ### The blocks of a byte string -/

/-- Zeros behind the end of a byte string are in its blocks anyway. -/
theorem padded_append_zeros (bytes : List UInt8) (m k : Nat) :
    padded (bytes ++ List.replicate m 0) k = padded bytes k := by
  refine Vector.ext fun i hi => ?_
  simp only [padded, Vector.getElem_ofFn, List.getD_eq_getElem?_getD, List.getElem?_append,
    List.getElem?_replicate]
  split
  · rfl
  · rw [List.getElem?_eq_none (by omega)]
    split <;> rfl

/-- Behind the end of a byte string there are zeros. -/
theorem padded_of_le {bytes : List UInt8} {k : Nat} (h : bytes.length ≤ 512 * k) :
    padded bytes k = zero := by
  refine Vector.ext fun i hi => ?_
  simp only [padded, zero, Vector.getElem_ofFn, Vector.getElem_replicate,
    List.getD_eq_getElem?_getD]
  rw [List.getElem?_eq_none (by omega), Option.getD_none]

/-- The blocks of a byte string one after the other, without the zeros
that fill up the last. -/
theorem take_flatMap_padded (bytes : List UInt8) (n : Nat) (h : bytes.length ≤ 512 * n) :
    ((List.range n).flatMap fun k => (padded bytes k).toList).take bytes.length = bytes := by
  -- The first piece is the first block, and the later blocks are those of the rest.
  induction n generalizing bytes with
  | zero =>
    obtain rfl : bytes = [] := List.length_eq_zero_iff.mp (by omega)
    rfl
  | succ n ih =>
    have hrest := ih (bytes.drop 512) (by rw [List.length_drop]; omega)
    have hfirst : (padded bytes 0).toList.take bytes.length = bytes.take 512 := by
      rw [← take_padded, List.length_take, List.take_eq_take_iff, Vector.length_toList]
      omega
    rw [List.length_drop] at hrest
    rw [List.range_succ_eq_map, List.flatMap_cons, List.flatMap_map, List.take_append, hfirst,
      Vector.length_toList]
    simp only [← padded_drop, hrest]
    exact List.take_append_drop 512 bytes

/-- The blocks of a byte string, and zeros behind them. -/
theorem getD_blocksOf (bytes : List UInt8) (k : Nat) :
    (blocksOf bytes)[k]?.getD zero = padded bytes k := by
  rw [blocksOf, List.getElem?_map]
  by_cases hk : k < (bytes.length + 511) / 512
  · rw [List.getElem?_range hk, Option.map_some, Option.getD_some]
  · rw [List.getElem?_eq_none (by rw [List.length_range]; omega), padded_of_le (by omega)]
    rfl

/-- The bytes of some blocks. -/
def joined (blocks : List Block) : List UInt8 := blocks.flatMap Vector.toList

/-- Each block has 512 bytes. -/
@[simp] theorem length_joined (blocks : List Block) :
    (joined blocks).length = 512 * blocks.length := by
  induction blocks with
  | nil => rfl
  | cons block rest ih =>
    rw [joined, List.flatMap_cons, List.length_append, Vector.length_toList, List.length_cons]
    rw [joined] at ih
    omega

/-- The blocks of the bytes of some blocks are those blocks. -/
theorem padded_joined (blocks : List Block) (k : Nat) :
    padded (joined blocks) k = blocks.getD k zero := by
  refine Vector.ext fun i hi => ?_
  simp only [padded, Vector.getElem_ofFn]
  -- By induction on the blocks: block 0 is the first, and any later one is one of the rest.
  induction blocks generalizing k with
  | nil => simp [joined, zero]
  | cons block rest ih =>
    rw [joined, List.flatMap_cons, ← joined, List.getD_eq_getElem?_getD, List.getElem?_append,
      Vector.length_toList]
    cases k with
    | zero => simp [hi]
    | succ k =>
      have hnot : ¬ 512 * (k + 1) + i < 512 := by omega
      have hplace : 512 * (k + 1) + i - 512 = 512 * k + i := by omega
      rw [if_neg hnot, hplace, List.getD_cons_succ, ← ih k, List.getD_eq_getElem?_getD]

end Block

namespace Host.File

open Block (padded)

variable {f : File} {bytes : List UInt8}

/-! ### Blocks after a change -/

/-- A block that is not cut stays as it is. -/
theorem firstBytes_of_le (block : Block) {count : Nat} (h : 512 ≤ count) :
    firstBytes block count = block := by
  refine Vector.ext fun i hi => ?_
  simp only [firstBytes, Vector.getElem_ofFn]
  exact if_pos (Nat.lt_of_lt_of_le hi h)

/-- Of a block without its bytes only zeros are left. -/
@[simp] theorem firstBytes_zero (block : Block) : firstBytes block 0 = Block.zero := by
  refine Vector.ext fun i hi => ?_
  simp [firstBytes, Block.zero]

/-- A block of zeros that is cut is a block of zeros. -/
@[simp] theorem firstBytes_of_zero (count : Nat) : firstBytes Block.zero count = Block.zero := by
  refine Vector.ext fun i hi => ?_
  simp [firstBytes, Block.zero]

/-- The blocks of a byte string that is cut. -/
theorem padded_take (bytes : List UInt8) (n k : Nat) :
    padded (bytes.take n) k = firstBytes (padded bytes k) (n - 512 * k) := by
  refine Vector.ext fun i hi => ?_
  simp only [padded, firstBytes, Vector.getElem_ofFn, Fin.getElem_fin, List.getD_eq_getElem?_getD,
    List.getElem?_take]
  by_cases hlt : 512 * k + i < n
  · rw [if_pos hlt, if_pos (by omega)]
  · rw [if_neg hlt, if_neg (by omega)]
    rfl

/-- A block is found under the number that it was put under, and every
other one as before. -/
theorem blockAt_putBlock (f : File) (n : Nat) (block : Block) (k : Nat) :
    (f.putBlock n block).blockAt k = if k = n then block else f.blockAt k := by
  simp only [blockAt, putBlock, Std.TreeMap.getD_insert, Nat.compare_eq_eq]
  simp only [eq_comm]

/-- A file has the length that it was given, whether it was cut or has
grown. -/
@[simp] theorem length_setLength (f : File) (n : Nat) : (f.setLength n).length = n := by
  unfold setLength
  split <;> rfl

/-- A block that is not kept counts as zeros, also after it was cut. -/
theorem getD_map_firstBytes (block? : Option Block) (count : Nat) :
    (block?.map fun block => firstBytes block count).getD Block.zero =
      firstBytes (block?.getD Block.zero) count := by
  cases block? with
  | none => rw [Option.map_none, Option.getD_none, firstBytes_of_zero]
  | some block => rfl

/-- A file that is cut keeps the bytes before its new end. -/
theorem blockAt_setLength (f : File) (n k : Nat) :
    (f.setLength n).blockAt k =
      if f.length ≤ n then f.blockAt k else firstBytes (f.blockAt k) (n - 512 * k) := by
  let kept := f.pages.filter fun number _ => 512 * number < n
  -- The blocks that begin behind the new end are forgotten.
  have hkept : kept.getD k Block.zero = if 512 * k < n then f.blockAt k else Block.zero := by
    rw [Std.TreeMap.getD_filter', blockAt, Std.TreeMap.getD_eq_getD_getElem?]
    cases f.pages[k]? with
    | none => split <;> rfl
    | some block =>
      by_cases hk : 512 * k < n
      · simp [Option.filter, hk]
      · simp [Option.filter, hk]
  have hother (h : n % 512 = 0 ∨ n / 512 ≠ k) :
      kept.getD k Block.zero = firstBytes (f.blockAt k) (n - 512 * k) := by
    rw [hkept]
    split
    · rw [firstBytes_of_le _ (by omega)]
    · rw [Nat.sub_eq_zero_of_le (by omega), firstBytes_zero]
  unfold setLength
  split
  · rfl
  show (if n % 512 = 0 then kept
    else kept.modify (n / 512) fun block => firstBytes block (n % 512)).getD k Block.zero = _
  split
  · rename_i hwhole
    exact hother (.inl hwhole)
  · rename_i hpart
    rw [Std.TreeMap.getD_modify]
    simp only [Nat.compare_eq_eq]
    split
    · -- Of the block in which the file ends now, the first bytes stay.
      rename_i hlast
      have hcount : n % 512 = n - 512 * k := by omega
      rw [getD_map_firstBytes, hlast, ← Std.TreeMap.getD_eq_getD_getElem?, hkept,
        if_pos (by omega), hcount]
    · rename_i hne
      exact hother (.inr hne)

/-- Blocks that are kept one after the other, from number `start` on. -/
theorem getD_insertAll (pieces : List (List UInt8)) (start k : Nat)
    (pages : Std.TreeMap Nat Block) :
    ((pieces.zipIdx start).foldl
        (fun pages (piece, number) => pages.insert number (Block.ofBytes piece)) pages).getD
      k Block.zero =
      if k < start then pages.getD k Block.zero
      else ((pieces.map Block.ofBytes)[k - start]?).getD (pages.getD k Block.zero) := by
  -- By induction on the pieces; the first is not overwritten by the later ones, whose numbers are
  -- greater.
  induction pieces generalizing start pages with
  | nil => split <;> rfl
  | cons piece rest ih =>
    rw [List.zipIdx_cons, List.foldl_cons, ih, Std.TreeMap.getD_insert]
    simp only [Nat.compare_eq_eq]
    rcases Nat.lt_trichotomy k start with hlt | rfl | hgt
    · rw [if_pos (by omega), if_neg (by omega), if_pos hlt]
    · rw [if_pos (by omega), if_pos rfl, if_neg (by omega), Nat.sub_self]
      rfl
    · have hplace : k - start = k - (start + 1) + 1 := by omega
      rw [if_neg (by omega), if_neg (by omega), if_neg (by omega), hplace, List.map_cons,
        List.getElem?_cons_succ]

/-! ### Byte strings -/

/-- The file has the bytes of a string, and none behind its end. -/
structure Has (f : File) (bytes : List UInt8) : Prop where
  length : f.length = bytes.length
  blockAt : ∀ k, f.blockAt k = padded bytes k

/-- A byte string with another block `n`, with zeros before it where the
string is too short. -/
def spliced (bytes : List UInt8) (n : Nat) (block : Block) : List UInt8 :=
  bytes.take (512 * n) ++ List.replicate (512 * n - bytes.length) 0 ++
    (block.toList ++ bytes.drop (512 * (n + 1)))

/-- A byte string reaches at least to the end of the block that was put
into it. -/
theorem length_spliced (bytes : List UInt8) (n : Nat) (block : Block) :
    (spliced bytes n block).length = max bytes.length (512 * (n + 1)) := by
  simp only [spliced, List.length_append, List.length_take, List.length_replicate,
    Vector.length_toList, List.length_drop]
  omega

/-- Only one block becomes another. -/
theorem padded_spliced (bytes : List UInt8) (n : Nat) (block : Block) (k : Nat) :
    padded (spliced bytes n block) k = if k = n then block else padded bytes k := by
  have hfront : (bytes.take (512 * n) ++
      List.replicate (512 * n - bytes.length) 0).length = 512 * n := by
    rw [List.length_append, List.length_take, List.length_replicate]
    omega
  rcases Nat.lt_trichotomy k n with hlt | rfl | hgt
  · -- The block lies in front, where zeros change nothing.
    have hpadded := Block.padded_append_zeros (bytes.take (512 * n)) (512 * n - bytes.length) k
    rw [padded_take, firstBytes_of_le _ (by omega)] at hpadded
    rw [if_neg (Nat.ne_of_lt hlt), ← hpadded]
    refine Vector.ext fun i hi => ?_
    simp only [padded, spliced, Vector.getElem_ofFn]
    exact List.getD_append _ _ _ _ (by omega)
  · -- The block itself stands right behind the front.
    rw [if_pos rfl]
    refine Vector.ext fun i hi => ?_
    have hplace : 512 * k + i - 512 * k = i := by omega
    simp only [padded, spliced, Vector.getElem_ofFn]
    rw [List.getD_append_right _ _ _ _ (by omega), hfront, hplace,
      List.getD_append _ _ _ _ (by rw [Vector.length_toList]; exact hi)]
    simp [hi]
  · -- Behind the block are the bytes that were there before, at their old places.
    rw [if_neg (Nat.ne_of_gt hgt)]
    refine Vector.ext fun i hi => ?_
    have hplace : 512 * (n + 1) + (512 * k + i - 512 * n - 512) = 512 * k + i := by omega
    simp only [padded, spliced, Vector.getElem_ofFn]
    rw [List.getD_append_right _ _ _ _ (by omega), hfront,
      List.getD_append_right _ _ _ _ (by rw [Vector.length_toList]; omega), Vector.length_toList,
      List.getD_eq_getElem?_getD, List.getElem?_drop, hplace, List.getD_eq_getElem?_getD]

/-- A file that is made of a byte string has its bytes. -/
theorem has_ofBytes (bytes : List UInt8) : (ofBytes bytes).Has bytes where
  length := rfl
  blockAt k := by
    rw [blockAt, ofBytes, getD_insertAll, if_neg (Nat.not_lt_zero k), Nat.sub_zero,
      Block.map_ofBytes_chunks, Std.TreeMap.getD_emptyc]
    exact Block.getD_blocksOf bytes k

/-- An empty file has no bytes. -/
theorem has_empty : empty.Has [] where
  length := rfl
  blockAt k := by
    rw [blockAt, Block.padded_of_le (Nat.zero_le _)]
    exact Std.TreeMap.getD_emptyc

namespace Has

/-- A file has the bytes of one string only. -/
theorem content (h : f.Has bytes) : f.content = bytes := by
  have hlast : (f.length - 1) / 512 + 1 - 0 / 512 = (f.length - 1) / 512 + 1 := rfl
  simp only [File.content, File.bytes, Nat.zero_add, Nat.min_self, hlast, h.blockAt]
  split
  · obtain rfl : bytes = [] := List.length_eq_zero_iff.mp (by rw [← h.length]; omega)
    rfl
  · -- The blocks up to the one of the last byte, without what fills up that block.
    have htake := Block.take_flatMap_padded bytes ((f.length - 1) / 512 + 1)
      (by rw [← h.length]; omega)
    rw [List.range_eq_range', ← h.length] at htake
    exact htake

/-- A block is put into the byte string, behind zeros where the string is
too short. -/
theorem putBlock (h : f.Has bytes) (n : Nat) (block : Block) :
    (f.putBlock n block).Has (spliced bytes n block) where
  length := by
    rw [length_spliced, ← h.length]
    rfl
  blockAt k := by rw [blockAt_putBlock, h.blockAt, padded_spliced]

/-- The byte string is cut, or filled up with zeros. -/
theorem setLength (h : f.Has bytes) (n : Nat) :
    (f.setLength n).Has (bytes.take n ++ List.replicate (n - bytes.length) 0) where
  length := by
    rw [length_setLength, List.length_append, List.length_take, List.length_replicate]
    omega
  blockAt k := by
    rw [blockAt_setLength, h.blockAt, h.length, Block.padded_append_zeros]
    split
    · rename_i hle
      rw [List.take_of_length_le hle]
    · rw [padded_take]

end Has

end Host.File

end BlockLayers
