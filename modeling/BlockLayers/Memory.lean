import BlockLayers.Store

/-!
# `BlockLayers.Memory`: a store in memory

The bottom of a stack: every inode is an array of blocks. A block
written past the end of its inode makes the inode grow, with blocks of
zeros in between. The store counts its calls, and it can be killed:
until it is revived every call is counted and fails.

Main statements: `Memory.put_getElem?_self` and
`Memory.put_getElem?_of_ne` describe the array after a write, for every
offset inside and outside of it.
-/

set_option autoImplicit false

namespace BlockLayers

/-- A store in memory. -/
structure Memory where
  /-- The blocks of each inode. -/
  inodes : Array (Array Block)
  /-- Whether every call fails. -/
  dead : Bool
  /-- The number of calls so far, those that failed included. -/
  calls : Nat

namespace Memory

/-- A store with a number of empty inodes. -/
def empty (inodes : UInt32) : Memory where
  inodes := Array.replicate inodes.toNat #[]
  dead := false
  calls := 0

/-- The store that answers no call. -/
def kill (m : Memory) : Memory := { m with dead := true }

/-- The store that answers again. -/
def revive (m : Memory) : Memory := { m with dead := false }

/-- The array with `block` at place `i`, and zeros up to there. -/
def put (blocks : Array Block) (i : Nat) (block : Block) : Array Block :=
  if h : i < blocks.size then blocks.set i block
  else (blocks ++ Array.replicate (i - blocks.size) Block.zero).push block

/-- The array cut or filled up with zeros to `n` blocks. -/
def resized (blocks : Array Block) (n : Nat) : Array Block :=
  if n ≤ blocks.size then blocks.take n
  else blocks ++ Array.replicate (n - blocks.size) Block.zero

/-- Count a call, and fail if the store is dead. -/
def enter : Op Memory Unit := do
  -- A call that a dead store refuses counts too.
  modify fun m => { m with calls := m.calls + 1 }
  if (← get).dead then Op.fail .io

/-- Fail unless the inode exists. -/
def checkInode (ino : UInt32) : Op Memory Unit := do
  let count := (← get).inodes.size
  if count ≤ ino.toNat then Op.fail (.noInode ino (UInt32.ofNat count))

/-- The number of blocks of an inode that exists. -/
def sizeOf (ino : UInt32) : Op Memory UInt32 := do
  return UInt32.ofNat ((← get).inodes.getD ino.toNat #[]).size

/-- Change the blocks of an inode. -/
def update (ino : UInt32) (f : Array Block → Array Block) : Op Memory Unit :=
  modify fun m => { m with inodes := m.inodes.modify ino.toNat f }

/-- The store in memory. -/
def store : Store Memory
  | .capacity => do
    enter
    return UInt32.ofNat (← get).inodes.size
  | .size ino => do
    enter
    checkInode ino
    sizeOf ino
  | .resize ino blocks => do
    enter
    checkInode ino
    let before ← sizeOf ino
    update ino fun kept => resized kept blocks.toNat
    return before
  | .read a => do
    enter
    checkInode a.ino
    match ((← get).inodes.getD a.ino.toNat #[])[a.offset.toNat]? with
    | some block => return block
    | none => Op.fail (.pastEnd a.ino a.offset (← sizeOf a.ino))
  | .write a block => do
    enter
    checkInode a.ino
    update a.ino fun kept => put kept a.offset.toNat block
  | .sync ino => do
    enter
    checkInode ino

/-- A store in memory has no room for events. -/
instance : Journal Memory := Journal.silent Memory

/-! ### The array after a write -/

/-- The written block stands at its place. -/
theorem put_getElem?_self (blocks : Array Block) (i : Nat) (block : Block) :
    (put blocks i block)[i]? = some block := by
  unfold put
  split
  · simp
  · rename_i h
    rw [Array.getElem?_push]
    simp only [Array.size_append, Array.size_replicate]
    rw [if_pos (by omega)]

/-- Every other block that was there keeps its value, and the places
between the old end and the written block hold zeros. -/
theorem put_getElem?_of_ne (blocks : Array Block) {i j : Nat} (block : Block) (h : j ≠ i) :
    (put blocks i block)[j]? =
      if j < blocks.size then blocks[j]? else if j < i then some Block.zero else none := by
  unfold put
  split
  · rename_i hi
    rw [Array.getElem?_set_ne hi (Ne.symm h)]
    split
    · rfl
    · rename_i hj
      rw [if_neg (by omega), Array.getElem?_eq_none (by omega)]
  · rename_i hi
    rw [Array.getElem?_push]
    simp only [Array.size_append, Array.size_replicate]
    rw [if_neg (by omega), Array.getElem?_append]
    split
    · rfl
    · rw [Array.getElem?_replicate]
      split
      · rw [if_pos (by omega)]
      · rw [if_neg (by omega)]

end Memory

end BlockLayers
