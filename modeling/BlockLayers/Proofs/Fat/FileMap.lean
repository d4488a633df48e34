import BlockLayers.Fat.Occupancy
import Mathlib.Logic.Function.Basic
import Mathlib.Tactic.SplitIfs

/-!
# `BlockLayers.Proofs.Fat.FileMap`: files as lists of blocks

What a file system is to its user: a list of blocks for each file, and a
number of blocks that are free. `FileMap` answers the calls of a file
system from that alone, without tables and without chains.

Main statements: `FileMap.store_cases`, which says what a request can do
to the files, and what follows from it for the number of all blocks
(`FileMap.free_add_used`) and for each block of a file
(`FileMap.of_getElem?_store`).
-/

set_option autoImplicit false

namespace BlockLayers.Fat

/-- A call to a file system: a request to it as a store, or the count of
its entries. -/
inductive Call where
  /-- A request to the store. -/
  | request (q : Request)
  /-- The count of the entries. -/
  | occupancy

/-- What a call is answered with. -/
@[reducible] def Call.Answer : Call → Type
  | .request q => q.Answer
  | .occupancy => Occupancy

/-- The calls of a volume. -/
def Volume.serve {σ : Type} [Journal σ] (v : Volume) (below : Store σ) : (c : Call) → Op σ c.Answer
  | .request q => v.store below q
  | .occupancy => v.occupancy below

/-- The blocks of each file, and how many more there are. -/
structure FileMap where
  /-- The number of files, empty ones included. -/
  count : UInt32
  /-- The number of blocks that the files can have together. -/
  total : UInt32
  /-- The blocks of each file. -/
  file : UInt32 → List Block
  /-- The number of blocks that no file has. -/
  free : Nat

namespace FileMap

/-- A map of empty files. -/
def empty (count total : UInt32) : FileMap where
  count := count
  total := total
  file _ := []
  free := total.toNat

/-- The number of blocks of the first `n` files. -/
def usedBelow (f : FileMap) : Nat → Nat
  | 0 => 0
  | n + 1 => f.usedBelow n + (f.file (UInt32.ofNat n)).length

/-- The number of blocks of all files. -/
def used (f : FileMap) : Nat := f.usedBelow f.count.toNat

/-- A file with a block written to it. A block behind the end comes
after as many zeros as are missing. -/
def written (blocks : List Block) (offset : Nat) (data : Block) : List Block :=
  if offset < blocks.length then blocks.set offset data
  else blocks ++ List.replicate (offset - blocks.length) Block.zero ++ [data]

/-- The map with other blocks of a file. -/
def setFile (f : FileMap) (ino : UInt32) (blocks : List Block) (free : Nat) : FileMap :=
  { f with file := Function.update f.file ino blocks, free := free }

/-- A call to a file, refused if there is no such file. -/
def within {α : Type} (ino : UInt32) (x : FileMap → EStateM.Result Stop FileMap α) :
    Op FileMap α := fun f =>
  if f.count ≤ ino then .error (.fault (.noInode ino f.count)) f else x f

/-- The number of blocks of a file. -/
def size (ino : UInt32) : Op FileMap UInt32 := within ino fun f =>
  .ok (UInt32.ofNat (f.file ino).length) f

/-- Resize a file. Only its own size and zero are offered. -/
def resize (ino blocks : UInt32) : Op FileMap UInt32 := within ino fun f =>
  let before := UInt32.ofNat (f.file ino).length
  if blocks = before then .ok before f
  else if before < blocks then .error (.fault (.unsupported .emptyGrowth)) f
  else if 0 < blocks then .error (.fault (.unsupported .partialShrink)) f
  else .ok before (f.setFile ino [] (f.free + (f.file ino).length))

/-- Read a block of a file. -/
def read (a : Address) : Op FileMap Block := within a.ino fun f =>
  match (f.file a.ino)[a.offset.toNat]? with
  | some block => .ok block f
  | none => .error (.fault (.pastEnd a.ino a.offset (UInt32.ofNat (f.file a.ino).length))) f

/-- Write a block of a file, which grows if it does not have the block
and there are enough free ones. -/
def write (a : Address) (data : Block) : Op FileMap Unit := within a.ino fun f =>
  let gained := a.offset.toNat + 1 - (f.file a.ino).length
  if gained ≤ f.free then
    .ok () (f.setFile a.ino (written (f.file a.ino) a.offset.toNat data) (f.free - gained))
  else .error (.fault .noSpace) f

/-- The map of files as a store. -/
def store : Store FileMap
  | .capacity => fun f => .ok f.count f
  | .size ino => size ino
  | .resize ino blocks => resize ino blocks
  | .read a => read a
  | .write a data => write a data
  | .sync _ => fun f => .ok () f

/-- The calls of a map of files. -/
def serve : (c : Call) → Op FileMap c.Answer
  | .request q => store q
  | .occupancy => fun f => .ok ⟨f.total, UInt32.ofNat f.free, UInt32.ofNat f.used⟩ f

variable {f : FileMap}

/-- A call to a file that is there. -/
theorem within_apply {α : Type} {ino : UInt32} {x : FileMap → EStateM.Result Stop FileMap α}
    (h : ino < f.count) : within ino x f = x f := by
  rw [within, if_neg (UInt32.not_le.mpr h)]

/-- A call to a file that is not there. -/
theorem within_refused {α : Type} {ino : UInt32} {x : FileMap → EStateM.Result Stop FileMap α}
    (h : f.count ≤ ino) : within ino x f = .error (.fault (.noInode ino f.count)) f := by
  rw [within, if_pos h]

/-- A call to a file that is answered is one to a file that is there. -/
theorem of_within_ok {α : Type} {ino : UInt32} {x : FileMap → EStateM.Result Stop FileMap α}
    {f' : FileMap} {value : α} (h : within ino x f = .ok value f') :
    ino < f.count ∧ x f = .ok value f' := by
  unfold within at h
  split at h
  · cases h
  · exact ⟨UInt32.not_le.mp ‹_›, h⟩

/-- A block that a file has is read. -/
theorem read_apply {a : Address} {block : Block} (h : a.ino < f.count)
    (hblock : (f.file a.ino)[a.offset.toNat]? = some block) : read a f = .ok block f := by
  unfold read
  rw [within_apply h, hblock]

/-- A block behind the end of a file is refused. -/
theorem read_pastEnd {a : Address} (h : a.ino < f.count)
    (hend : (f.file a.ino).length ≤ a.offset.toNat) :
    read a f =
      .error (.fault (.pastEnd a.ino a.offset (UInt32.ofNat (f.file a.ino).length))) f := by
  unfold read
  rw [within_apply h, List.getElem?_eq_none hend]

/-- A block for which there is room is written. -/
theorem write_apply {a : Address} (h : a.ino < f.count) (data : Block)
    (hroom : a.offset.toNat + 1 - (f.file a.ino).length ≤ f.free) :
    write a data f =
      .ok () (f.setFile a.ino (written (f.file a.ino) a.offset.toNat data)
        (f.free - (a.offset.toNat + 1 - (f.file a.ino).length))) := by
  unfold write
  rw [within_apply h]
  exact if_pos hroom

/-- A block for which there is no room is refused. -/
theorem write_noSpace {a : Address} (h : a.ino < f.count) (data : Block)
    (hroom : f.free < a.offset.toNat + 1 - (f.file a.ino).length) :
    write a data f = .error (.fault .noSpace) f := by
  unfold write
  rw [within_apply h]
  exact if_neg (Nat.not_le.mpr hroom)

/-- What a resize of a file comes to. -/
theorem resize_apply {ino blocks before : UInt32} (h : ino < f.count)
    (hbefore : UInt32.ofNat (f.file ino).length = before) :
    resize ino blocks f =
      if blocks = before then .ok before f
      else if before < blocks then .error (.fault (.unsupported .emptyGrowth)) f
      else if 0 < blocks then .error (.fault (.unsupported .partialShrink)) f
      else .ok before (f.setFile ino [] (f.free + (f.file ino).length)) := by
  subst hbefore
  unfold resize
  rw [within_apply h]

/-- The file that was set has the blocks that it was set to. -/
theorem file_setFile_self (ino : UInt32) (blocks : List Block) (free : Nat) :
    (f.setFile ino blocks free).file ino = blocks := Function.update_self _ _ _

/-- The other files stay. -/
theorem file_setFile_of_ne {ino other : UInt32} (blocks : List Block) (free : Nat)
    (h : other ≠ ino) : (f.setFile ino blocks free).file other = f.file other :=
  Function.update_of_ne h _ _

/-- A write makes a file as long as it has to be. -/
theorem length_written (blocks : List Block) (offset : Nat) (data : Block) :
    (written blocks offset data).length = blocks.length + (offset + 1 - blocks.length) := by
  unfold written
  split
  · rw [List.length_set]
    omega
  · simp only [List.length_append, List.length_replicate, List.length_singleton]
    omega

/-- The blocks of a file after a write. -/
theorem getElem?_written (blocks : List Block) (offset : Nat) (data : Block) (k : Nat) :
    (written blocks offset data)[k]? =
      if k = offset then some data
      else if k < offset then some (blocks[k]?.getD Block.zero)
      else blocks[k]? := by
  unfold written
  split_ifs with hlt hk hbefore hk hbefore
  · rw [hk, List.getElem?_set_self hlt]
  · rw [List.getElem?_set_ne (Ne.symm hk), List.getElem?_eq_getElem (by omega)]
    rfl
  · rw [List.getElem?_set_ne (Ne.symm hk)]
  -- Behind the end of the file come the zeros, and then the block.
  all_goals
    rw [List.append_assoc, List.getElem?_append]
    split_ifs with hin
  · omega
  · rw [List.getElem?_append_right (by simp; omega), List.length_replicate, hk, Nat.sub_self]
    rfl
  · rw [List.getElem?_eq_getElem hin]
    rfl
  · rw [List.getElem?_append_left (by simp; omega), List.getElem?_replicate_of_lt (by omega),
      List.getElem?_eq_none (by omega)]
    rfl
  · rfl
  · rw [List.getElem?_eq_none (by simp; omega), List.getElem?_eq_none (by omega)]

/-- The blocks of one more file. -/
theorem usedBelow_succ (f : FileMap) (n : Nat) :
    f.usedBelow (n + 1) = f.usedBelow n + (f.file (UInt32.ofNat n)).length := rfl

/-- Empty files have no blocks. -/
theorem usedBelow_empty (count total : UInt32) (n : Nat) : (empty count total).usedBelow n = 0 := by
  induction n with
  | zero => rfl
  | succ n ih => rw [usedBelow_succ, ih, empty, List.length_nil]

/-- The blocks of a file are counted once. -/
theorem usedBelow_setFile (f : FileMap) (ino : UInt32) (blocks : List Block) (free : Nat) {n : Nat}
    (hn : n ≤ 4294967296) :
    (f.setFile ino blocks free).usedBelow n + (if ino.toNat < n then (f.file ino).length else 0) =
      f.usedBelow n + if ino.toNat < n then blocks.length else 0 := by
  -- By induction on the number of files; the one that was set is met once.
  induction n with
  | zero => rfl
  | succ n ih =>
    have hstep := ih (by omega)
    have hlt : n < 4294967296 := by omega
    rw [usedBelow_succ, usedBelow_succ]
    -- Either this is the file, and none before it was, or it counts as before.
    by_cases hhere : UInt32.ofNat n = ino
    · have hnat : ino.toNat = n := by
        rw [← hhere]
        exact UInt32.toNat_ofNat_of_lt' hlt
      rw [if_neg (by omega), if_neg (by omega)] at hstep
      rw [if_pos (by omega), if_pos (by omega), hhere, file_setFile_self]
      omega
    · have hnat : ino.toNat ≠ n := by
        intro heq
        exact hhere (by rw [← heq]; exact UInt32.ofNat_toNat)
      have hbound : ino.toNat < n + 1 ↔ ino.toNat < n := by omega
      rw [file_setFile_of_ne _ _ hhere]
      simp only [hbound]
      omega

/-- The number of blocks in use after a change to one file. -/
theorem used_setFile {ino : UInt32} (h : ino < f.count) (blocks : List Block) (free : Nat) :
    (f.setFile ino blocks free).used + (f.file ino).length = f.used + blocks.length := by
  have hlt := UInt32.lt_iff_toNat_lt.mp h
  have hcount := f.usedBelow_setFile ino blocks free (Nat.le_of_lt f.count.toNat_lt)
  rw [if_pos hlt, if_pos hlt] at hcount
  exact hcount

/-- No file has more blocks than all files together. -/
theorem length_le_used {ino : UInt32} (h : ino < f.count) : (f.file ino).length ≤ f.used := by
  have hcount := used_setFile h [] 0
  rw [List.length_nil] at hcount
  omega

/-- What a request that is answered does to the files. A write gives a
file a block, a resize may empty one, and everything else is no
change. -/
theorem store_cases {f' : FileMap} {q : Request} {value : q.Answer}
    (h : store q f = .ok value f') :
    f' = f ∧ (∀ addr data, q ≠ .write addr data) ∨
      (∃ ino, q = .resize ino 0 ∧ ino < f.count ∧
        f' = f.setFile ino [] (f.free + (f.file ino).length)) ∨
      ∃ addr data, q = .write addr data ∧ addr.ino < f.count ∧
        addr.offset.toNat + 1 - (f.file addr.ino).length ≤ f.free ∧
        f' = f.setFile addr.ino (written (f.file addr.ino) addr.offset.toNat data)
          (f.free - (addr.offset.toNat + 1 - (f.file addr.ino).length)) := by
  cases q with
  | capacity | sync =>
    cases h
    exact .inl ⟨rfl, nofun⟩
  | size ino =>
    obtain ⟨-, h⟩ := of_within_ok (show size ino f = .ok _ f' from h)
    cases h
    exact .inl ⟨rfl, nofun⟩
  | read addr =>
    obtain ⟨-, h⟩ := of_within_ok (show read addr f = .ok _ f' from h)
    split at h <;> cases h
    exact .inl ⟨rfl, nofun⟩
  | resize ino blocks =>
    obtain ⟨hino, h⟩ := of_within_ok (show resize ino blocks f = .ok _ f' from h)
    dsimp only at h
    split_ifs at h with hsame hgrows hpos <;> cases h
    · exact .inl ⟨rfl, nofun⟩
    · -- Of the sizes that are not the file's own, only zero is offered.
      have hzero : blocks = 0 := by
        rw [← UInt32.toNat_inj, UInt32.toNat_zero]
        rw [UInt32.lt_iff_toNat_lt, UInt32.toNat_zero] at hpos
        omega
      exact .inr (.inl ⟨ino, hzero ▸ rfl, hino, rfl⟩)
  | write addr data =>
    obtain ⟨hino, h⟩ := of_within_ok (show write addr data f = .ok _ f' from h)
    dsimp only at h
    split_ifs at h with hroom
    cases h
    exact .inr (.inr ⟨addr, data, rfl, hino, hroom, rfl⟩)

/-- No request makes blocks or loses any. -/
theorem free_add_used {f' : FileMap} {q : Request} {value : q.Answer}
    (h : store q f = .ok value f') : f'.free + f'.used = f.free + f.used := by
  rcases store_cases h with ⟨rfl, -⟩ | ⟨ino, -, hino, rfl⟩ | ⟨addr, data, -, hino, hroom, rfl⟩
  · rfl
  · have hused := used_setFile hino [] (f.free + (f.file ino).length)
    rw [List.length_nil] at hused
    show f.free + (f.file ino).length + _ = _
    omega
  · have hused := used_setFile hino (written (f.file addr.ino) addr.offset.toNat data)
      (f.free - (addr.offset.toNat + 1 - (f.file addr.ino).length))
    rw [length_written] at hused
    show f.free - (addr.offset.toNat + 1 - (f.file addr.ino).length) + _ = _
    omega

/-- A file that was resized to nothing has no blocks. -/
theorem size_emptied {f' : FileMap} {ino value : UInt32}
    (h : store (.resize ino 0) f = .ok value f') : UInt32.ofNat (f'.file ino).length = 0 := by
  obtain ⟨-, h⟩ := of_within_ok (show resize ino 0 f = .ok _ f' from h)
  dsimp only at h
  split_ifs at h with hsize <;> cases h
  · exact hsize.symm
  · rw [file_setFile_self]
    rfl

/-- A block of a file after a write: the block that was written, one that
the file had before, or zeros. -/
theorem of_getElem?_written {blocks : List Block} {offset k : Nat} {data block : Block}
    (h : (written blocks offset data)[k]? = some block) :
    k = offset ∧ data = block ∨ k ≠ offset ∧ blocks[k]? = some block ∨ block = Block.zero := by
  rw [getElem?_written] at h
  split_ifs at h with hhere
  · exact .inl ⟨hhere, Option.some.inj h⟩
  · cases hold : blocks[k]? with
    | none =>
      rw [hold] at h
      exact .inr (.inr (Option.some.inj h).symm)
    | some old =>
      rw [hold] at h
      exact .inr (.inl ⟨hhere, h⟩)
  · exact .inr (.inl ⟨hhere, h⟩)

/-- A block of a file after a request: the block of a write to the place,
one that the file had there before, or zeros. -/
theorem of_getElem?_store {f' : FileMap} {q : Request} {value : q.Answer}
    (h : store q f = .ok value f') {addr : Address} {block : Block}
    (hblock : (f'.file addr.ino)[addr.offset.toNat]? = some block) :
    block = Block.zero ∨ q = .write addr block ∨
      (f.file addr.ino)[addr.offset.toNat]? = some block ∧ ∀ data, q ≠ .write addr data := by
  rcases store_cases h with ⟨rfl, hlook⟩ | ⟨ino, rfl, -, rfl⟩ | ⟨a, data, rfl, -, -, rfl⟩
  · exact .inr (.inr ⟨hblock, hlook addr⟩)
  · by_cases hino : addr.ino = ino
    · rw [hino, file_setFile_self] at hblock
      cases hblock
    · rw [file_setFile_of_ne _ _ hino] at hblock
      exact .inr (.inr ⟨hblock, nofun⟩)
  · by_cases hino : addr.ino = a.ino
    · obtain ⟨ino, offset⟩ := addr
      obtain rfl : ino = a.ino := hino
      rw [file_setFile_self] at hblock
      rcases of_getElem?_written hblock with ⟨hhere, rfl⟩ | ⟨hthere, hbefore⟩ | hzero
      · obtain rfl : offset = a.offset := UInt32.toNat_inj.mp hhere
        exact .inr (.inl rfl)
      · refine .inr (.inr ⟨hbefore, fun other hq => hthere ?_⟩)
        rw [(Request.write.inj hq).1]
      · exact .inl hzero
    -- The write went to another file.
    · rw [file_setFile_of_ne _ _ hino] at hblock
      refine .inr (.inr ⟨hblock, fun other hq => hino ?_⟩)
      rw [(Request.write.inj hq).1]

end FileMap

end BlockLayers.Fat
