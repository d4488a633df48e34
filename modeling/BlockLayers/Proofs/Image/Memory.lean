import BlockLayers.Proofs.Image.Calls

/-!
# `BlockLayers.Proofs.Image.Memory`: an image in the place of a store in memory

An image is a file, and its blocks are pieces of one byte string whose
length tells how many there are. A store in memory with one inode keeps
an array of blocks. As long as the file has the bytes of the array
(`Image.Holds`) the two end every call alike and stay so: a block that is
written behind the end brings zeros before it in both, and a new size
cuts both or adds zeros to both (`store_agrees`).

The number of a write is the one limit. Behind the greatest number there
is no word for the size, which an image would tell as 0.

Main statement: `outcomes_eq_memory`.
-/

set_option autoImplicit false

namespace BlockLayers

open Host (Machine File Directory)

namespace Memory

/-! ### The array after a change -/

/-- A block that is put behind the end makes the array reach to it. -/
theorem size_put (blocks : Array Block) (i : Nat) (block : Block) :
    (put blocks i block).size = max blocks.size (i + 1) := by
  unfold put
  split
  · rw [Array.size_set]
    omega
  · rw [Array.size_push, Array.size_append, Array.size_replicate]
    omega

/-- The block stands in its place, and every other one is as before,
with zeros behind the end. -/
theorem getD_put (blocks : Array Block) (i : Nat) (block : Block) (k : Nat) :
    (put blocks i block)[k]?.getD Block.zero =
      if k = i then block else blocks[k]?.getD Block.zero := by
  by_cases hk : k = i
  · rw [hk, put_getElem?_self, if_pos rfl, Option.getD_some]
  · rw [put_getElem?_of_ne _ _ hk, if_neg hk]
    split
    · rfl
    · rw [Array.getElem?_eq_none (by omega)]
      split <;> rfl

/-- An array has the size that it was given. -/
theorem size_resized (blocks : Array Block) (n : Nat) : (resized blocks n).size = n := by
  unfold resized
  split
  · rw [Array.take_eq_extract, Array.size_extract]
    omega
  · rw [Array.size_append, Array.size_replicate]
    omega

/-- The blocks before the new end stay, and behind the old one there are
zeros. -/
theorem getD_resized (blocks : Array Block) (n k : Nat) :
    (resized blocks n)[k]?.getD Block.zero =
      if k < n then blocks[k]?.getD Block.zero else Block.zero := by
  unfold resized
  split
  · rename_i hle
    rw [Array.take_eq_extract, Array.getElem?_extract, Nat.zero_add, Nat.min_eq_left hle,
      Nat.sub_zero]
    split <;> rfl
  · rename_i hle
    rw [Array.getElem?_append, Array.getElem?_replicate]
    by_cases hlt : k < blocks.size
    · rw [if_pos hlt, if_pos (by omega)]
    · rw [if_neg hlt, Array.getElem?_eq_none (Nat.not_lt.mp hlt)]
      split <;> split <;> rfl

end Memory

namespace Image

/-- The bytes of an array of blocks, as they stand in a file. -/
theorem has_joined_iff {file : File} {blocks : Array Block} :
    file.Has (Block.joined blocks.toList) ↔
      file.length = 512 * blocks.size ∧ ∀ k, file.blockAt k = blocks[k]?.getD Block.zero := by
  have hlength : (Block.joined blocks.toList).length = 512 * blocks.size := by
    rw [Block.length_joined, Array.length_toList]
  have hblock (k : Nat) :
      Block.padded (Block.joined blocks.toList) k = blocks[k]?.getD Block.zero := by
    rw [Block.padded_joined, List.getD_eq_getElem?_getD, Array.getElem?_toList]
  constructor
  · intro h
    exact ⟨h.length.trans hlength, fun k => (h.blockAt k).trans (hblock k)⟩
  · intro h
    exact ⟨h.1.trans hlength.symm, fun k => (h.2 k).trans (hblock k).symm⟩

/-- The file with a kept name has the bytes of the one inode of a store
in memory that is not dead. -/
structure Holds (name : String) (blocks : Array Block) (m : Machine) (ram : Memory) : Prop where
  file : name ∈ m.directory.files
  alive : ram.dead = false
  inodes : ram.inodes = #[blocks]
  size_lt : blocks.size < 4294967296
  bytes : (m.directory.get name).Has (Block.joined blocks.toList)

namespace Holds

variable {name : String} {blocks : Array Block} {m : Machine} {ram : Memory}

/-- The store has one inode. -/
theorem size_inodes (h : Holds name blocks m ram) : ram.inodes.size = 1 := by
  rw [h.inodes]
  rfl

/-- The image tells the size of the array. -/
theorem told_eq (h : Holds name blocks m ram) : told name m = UInt32.ofNat blocks.size := by
  have hlength := (has_joined_iff.mp h.bytes).1
  rw [told, hlength, Nat.mul_div_cancel_left _ (by decide)]

/-- A block is read where the array has one. -/
theorem read_eq (h : Holds name blocks m ram) (offset : UInt32) :
    (ofFile name).store (.read ⟨0, offset⟩) m = match blocks[offset.toNat]? with
      | some block => .ok block m
      | none => .error (.fault (.pastEnd 0 offset (UInt32.ofNat blocks.size))) m := by
  have htold : told name m ≤ offset ↔ blocks.size ≤ offset.toNat := by
    rw [h.told_eq, UInt32.le_iff_toNat_le, UInt32.toNat_ofNat', Nat.mod_eq_of_lt h.size_lt]
  rw [read_apply, (has_joined_iff.mp h.bytes).2]
  by_cases hend : blocks.size ≤ offset.toNat
  · rw [if_pos (htold.mpr hend), Array.getElem?_eq_none hend, h.told_eq]
  · rw [if_neg fun hle => hend (htold.mp hle), Array.getElem?_eq_getElem (Nat.not_le.mp hend)]
    rfl

/-- Both have been changed, and have the same bytes again. -/
theorem changed (h : Holds name blocks m ram) {f : File → File} {blocks' : Array Block}
    {ram' : Memory} (halive : ram'.dead = false) (hinodes : ram'.inodes = #[blocks'])
    (hsize : blocks'.size < 4294967296)
    (hbytes : (f (m.directory.get name)).Has (Block.joined blocks'.toList)) :
    Holds name blocks' (Image.changed name f m) ram' where
  file := mem_changed.mpr h.file
  alive := halive
  inodes := hinodes
  size_lt := hsize
  bytes := by
    rw [get_changed h.file]
    exact hbytes

end Holds

/-- A block is written to the file as it is to the array. -/
theorem has_put {file : File} {blocks : Array Block} (h : file.Has (Block.joined blocks.toList))
    (n : Nat) (block : Block) :
    (file.putBlock n block).Has (Block.joined (Memory.put blocks n block).toList) := by
  obtain ⟨hlength, hblocks⟩ := has_joined_iff.mp h
  refine has_joined_iff.mpr ⟨?_, fun k => ?_⟩
  · rw [Memory.size_put]
    simp only [File.putBlock, hlength]
    omega
  · rw [File.blockAt_putBlock, Memory.getD_put, hblocks]

/-- The file is cut or grows as the array does. -/
theorem has_resized {file : File} {blocks : Array Block}
    (h : file.Has (Block.joined blocks.toList)) (n : Nat) :
    (file.setLength (512 * n)).Has (Block.joined (Memory.resized blocks n).toList) := by
  obtain ⟨hlength, hblocks⟩ := has_joined_iff.mp h
  refine has_joined_iff.mpr ⟨?_, fun k => ?_⟩
  · rw [Memory.size_resized, File.length_setLength]
  · rw [File.blockAt_setLength, Memory.getD_resized, hblocks]
    by_cases hk : k < n
    · rw [if_pos hk, File.firstBytes_of_le _ (by omega), ite_self]
    · rw [if_neg hk, Nat.sub_eq_zero_of_le (by omega), File.firstBytes_zero]
      split
      · -- The array ends before the block.
        rw [Array.getElem?_eq_none (by omega), Option.getD_none]
      · rfl

/-- A call that is no write behind the greatest number ends alike on an
image and on the store in memory with the same bytes, and leaves them
with the same bytes. -/
theorem store_agrees (name : String) {q : Request}
    (hq : ∀ a block, q = .write a block → a.offset.toNat < 4294967295) :
    Op.Agrees (fun m ram => ∃ blocks, Holds name blocks m ram) ((ofFile name).store q)
      (Memory.store q) := by
  rintro m ram ⟨blocks, h⟩
  refine Op.Ends.agree (R := fun m ram => ∃ blocks, Holds name blocks m ram) ?_
  have hone := h.size_inodes
  have hcalled : Holds name blocks m ram.called := ⟨h.file, h.alive, h.inodes, h.size_lt, h.bytes⟩
  have hfirst : (0 : UInt32).toNat < ram.inodes.size := by
    rw [hone]
    exact Nat.one_pos
  have hgetD : ram.inodes.getD (0 : UInt32).toNat #[] = blocks := by
    rw [h.inodes]
    rfl
  cases asks q with
  | @other q ino hino hne =>
    -- The store in memory has one inode too, so it refuses the same inodes.
    have hle : ram.inodes.size ≤ ino.toNat := by
      rw [hone]
      exact Nat.pos_of_ne_zero fun hzero => hne (UInt32.toNat_inj.mp hzero)
    have hrun := Memory.store_apply_of_le h.alive hino hle
    rw [hone] at hrun
    exact .of_fault (store_apply_of_ne hino hne) ⟨_, hrun, blocks, hcalled⟩
  | capacity =>
    refine .of_ok rfl ⟨_, ?_, blocks, hcalled⟩
    simp only [Memory.store, Op.bind_apply, Memory.enter_apply h.alive]
    show EStateM.Result.ok (UInt32.ofNat ram.inodes.size) ram.called = _
    rw [hone]
    rfl
  | size =>
    refine .of_ok size_apply ⟨_, ?_, blocks, hcalled⟩
    rw [Memory.size_apply h.alive hfirst, hgetD, h.told_eq]
  | resize count =>
    -- Both tell the old size and take the new one.
    have hrun := Memory.resize_apply h.alive count hfirst
    rw [hgetD, ← h.told_eq] at hrun
    refine .of_ok (resize_apply count) ⟨_, hrun, _, h.changed h.alive ?_ ?_ (has_resized h.bytes _)⟩
    · show Plain.resize 0 count ram.inodes = _
      rw [h.inodes]
      rfl
    · rw [Memory.size_resized]
      exact count.toNat_lt
  | read offset =>
    -- The array has the block or not, and the image ends as the array says.
    have hrun := h.read_eq offset
    have hread := Memory.read_eq h.alive (a := ⟨0, offset⟩) hfirst
    rw [Plain.block?, Plain.at_, hgetD] at hread
    cases hblock : blocks[offset.toNat]? with
    | some block =>
      simp only [hblock] at hrun hread
      exact .of_ok hrun ⟨_, hread, blocks, hcalled⟩
    | none =>
      simp only [hblock] at hrun hread
      exact .of_fault hrun ⟨_, hread, blocks, hcalled⟩
  | write offset block =>
    -- The number is not the greatest, so that the size is a word also after the write.
    have hoffset := hq _ _ rfl
    refine .of_ok (write_apply offset block)
      ⟨_, Memory.write_apply h.alive block hfirst, _, h.changed h.alive ?_ ?_ (has_put h.bytes _ _)⟩
    · show Plain.write ⟨0, offset⟩ block ram.inodes = _
      rw [h.inodes]
      rfl
    · have hsize := h.size_lt
      rw [Memory.size_put]
      exact Nat.max_lt.mpr ⟨hsize, Nat.succ_lt_succ hoffset⟩
  | sync => exact .of_ok sync_apply ⟨_, Memory.sync_apply h.alive hfirst, blocks, hcalled⟩

/-- A file of whole blocks and a store in memory that is not dead, whose
one inode has the blocks of the file, end every list of calls alike in
which no write has the greatest number. After the calls the file has the
bytes of the inode. -/
theorem outcomes_eq_memory {name : String} {m : Machine} {ram : Memory} {bytes : List UInt8}
    {calls : List Request} (hfile : name ∈ m.directory.files)
    (hbytes : (m.directory.get name).Has bytes) (hwhole : 512 ∣ bytes.length)
    (hlength : bytes.length < 512 * 4294967296) (halive : ram.dead = false)
    (hblocks : ram.inodes = #[(Block.blocksOf bytes).toArray])
    (hcalls : ∀ a block, Request.write a block ∈ calls → a.offset.toNat < 4294967295) :
    let file := (Op.after (ofFile name).store calls m).directory.get name
    Op.outcomes (ofFile name).store calls m = Op.outcomes Memory.store calls ram ∧
    ∃ blocks : Array Block, (Op.after Memory.store calls ram).inodes = #[blocks] ∧
      file.length = 512 * blocks.size ∧ file.content = Block.joined blocks.toList := by
  intro file
  have hsize : (Block.blocksOf bytes).toArray.size = (bytes.length + 511) / 512 := by
    rw [List.size_toArray, Block.length_blocksOf]
  -- The file and the inode have the same bytes at the start.
  have hstart : Holds name (Block.blocksOf bytes).toArray m ram := by
    refine ⟨hfile, halive, hblocks, by omega, has_joined_iff.mpr ⟨?_, fun k => ?_⟩⟩
    · rw [hbytes.length, hsize]
      omega
    · rw [hbytes.blockAt, List.getElem?_toArray, Block.getD_blocksOf]
  obtain ⟨houtcomes, blocks, hafter⟩ := Op.outcomes_after_of_mem
    (R := fun m ram => ∃ blocks, Holds name blocks m ram)
    (fun q hq => store_agrees name fun a block heq => hcalls a block (heq ▸ hq)) ⟨_, hstart⟩
  exact ⟨houtcomes, blocks, hafter.inodes, (has_joined_iff.mp hafter.bytes).1, hafter.bytes.content⟩

/-- A file of one block grows by three blocks and is cut again. -/
theorem outcomes_eq_memory_one_block :
    let bytes : List UInt8 := List.replicate 512 7
    let m := Machine.start (Directory.empty.put "image" (File.ofBytes bytes))
      (Event.Filter.upTo none)
    let ram : Memory := ⟨#[(Block.blocksOf bytes).toArray], false, 0⟩
    let calls : List Request := [.write ⟨0, 3⟩ (Block.fill 9), .size 0, .resize 0 1, .size 5]
    Op.outcomes (ofFile "image").store calls m = Op.outcomes Memory.store calls ram ∧
      ((Op.after (ofFile "image").store calls m).directory.get "image").length = 512 := by
  intro bytes m ram calls
  have hfile : m.directory.get "image" = File.ofBytes bytes := Std.HashMap.getD_insert_self
  have hlength : bytes.length = 512 := List.length_replicate
  have hcalls : ∀ a block, Request.write a block ∈ calls → a.offset.toNat < 4294967295 := by
    intro a block hmem
    simp only [calls, List.mem_cons, Request.write.injEq, reduceCtorEq, List.not_mem_nil,
      or_false] at hmem
    rw [hmem.1]
    decide
  obtain ⟨houtcomes, blocks, hblocks, hafter, -⟩ := @outcomes_eq_memory "image" m ram bytes calls
    Std.HashMap.mem_insert_self (hfile ▸ File.has_ofBytes bytes) ⟨1, hlength⟩
    (by rw [hlength]; decide) rfl rfl hcalls
  -- What the two changes make of the array: it is cut to one block again.
  have hcut : (Op.after Memory.store calls ram).inodes =
      #[Memory.resized (Memory.put (Block.blocksOf bytes).toArray 3 (Block.fill 9)) 1] := rfl
  obtain rfl : Memory.resized _ 1 = blocks := by simpa using hcut.symm.trans hblocks
  exact ⟨houtcomes, hafter.trans (by rw [Memory.size_resized])⟩

end Image

end BlockLayers
