import BlockLayers.Store

/-!
# `BlockLayers.Copy`: a byte string in an inode

`copyIn` replaces the content of an inode by a byte string: the inode is
emptied, the string is written block by block with zeros behind its end,
and the inode is synced. `verify` reads the blocks back and compares
them with the string, as far as the string goes.
-/

set_option autoImplicit false

namespace BlockLayers

variable {σ : Type}

/-- Write pieces to the blocks of an inode from `number` on. Returns the
number of the block behind the last. -/
def writePieces (store : Store σ) (ino : UInt32) : List (List UInt8) → UInt32 → Op σ UInt32
  | [], number => return number
  | piece :: rest, number => do
    store (.write ⟨ino, number⟩ (Block.ofBytes piece))
    -- The next number is formed even when no piece is left for it.
    let after ← Checked.add number 1
    writePieces store ino rest after

/-- Replace the content of an inode. Returns the number of blocks. -/
def copyIn (store : Store σ) (ino : UInt32) (bytes : List UInt8) : Op σ UInt32 := do
  let _ ← store (.resize ino 0)
  let blocks ← writePieces store ino (Block.chunks bytes) 0
  store (.sync ino)
  return blocks

section Journal

variable [Journal σ]

/-- Compare pieces with the blocks of an inode from `number` on. -/
def comparePieces (store : Store σ) (ino : UInt32) : List (List UInt8) → UInt32 → Op σ Unit
  | [], _ => return ()
  | piece :: rest, number => do
    let block ← store (.read ⟨ino, number⟩)
    unless block.toList.take piece.length = piece do
      Op.note (.contentDiffers ⟨ino, number⟩)
      Op.fail (.corrupted .contentDiffers)
    comparePieces store ino rest (number + 1)

/-- Fail unless an inode starts with the given bytes. -/
def verify (store : Store σ) (ino : UInt32) (bytes : List UInt8) : Op σ Unit :=
  comparePieces store ino (Block.chunks bytes) 0

end Journal

end BlockLayers
