import BlockLayers.Block
import BlockLayers.Checked
import BlockLayers.Fat.Link

/-!
# `BlockLayers.Fat.Layout`: the tables on a medium

A file system lives in one inode of the store below, its medium:

    superblock | file records | allocation table | data blocks

The superblock is block 0 and gives the sizes of the tables and the head
of the free chain. A medium whose superblock counts no blocks of file
records holds no file system. A block of file records has 64 `Record`s,
each the head of a file's chain and the number of its blocks; a block of
the allocation table has 128 links. All numbers are words, least
significant byte first.

The sizes derived from a superblock (`Superblock.tableStart`,
`Superblock.dataStart` and others) are checked sums and products, since
a damaged superblock can hold any words.

Main statements: `Superblock.decode_encode`, `record_setRecord_self`
and `record_setRecord_of_ne`.
-/

set_option autoImplicit false

namespace BlockLayers.Fat

/-! ### The superblock -/

/-- The first block of a medium. -/
structure Superblock where
  /-- The number of blocks of file records; zero means that the medium
  holds no file system. -/
  recordBlocks : UInt32
  /-- The number of blocks of the allocation table. -/
  tableBlocks : UInt32
  /-- The head of the free chain. -/
  freeHead : Link
  deriving DecidableEq, Repr

namespace Superblock

/-- The superblock in a block. -/
def decode (block : Block) : Superblock where
  recordBlocks := block.word 0
  tableBlocks := block.word 1
  freeHead := ⟨block.word 2⟩

/-- The block that holds a superblock, with zeros behind it. -/
def encode (sb : Superblock) : Block :=
  ((Block.zero.setWord 0 sb.recordBlocks).setWord 1 sb.tableBlocks).setWord 2 sb.freeHead.word

/-- Whether there is a file system. -/
def formatted (sb : Superblock) : Bool := sb.recordBlocks != 0

/-- The number of files, empty ones included. -/
def files (sb : Superblock) : Except Abort UInt32 := Checked.mul sb.recordBlocks 64

/-- The first block of the allocation table. -/
def tableStart (sb : Superblock) : Except Abort UInt32 := Checked.add 1 sb.recordBlocks

/-- The first data block. -/
def dataStart (sb : Superblock) : Except Abort UInt32 := do
  Checked.add (← sb.tableStart) sb.tableBlocks

/-- The number of entries that the allocation table has room for. -/
def tableCapacity (sb : Superblock) : Except Abort UInt32 := Checked.mul sb.tableBlocks 128

/-- The block of the medium that is the data block of an entry. -/
def dataBlock (sb : Superblock) (entry : Link) : Except Abort UInt32 := do
  Checked.add (← sb.dataStart) entry.word

/-- What is encoded is decoded again. -/
theorem decode_encode (sb : Superblock) : decode sb.encode = sb := by
  have h01 : (0 : Fin 128) ≠ 1 := by decide
  have h02 : (0 : Fin 128) ≠ 2 := by decide
  have h12 : (1 : Fin 128) ≠ 2 := by decide
  simp only [decode, encode, Block.word_setWord_self, Block.word_setWord_of_ne _ _ h01,
    Block.word_setWord_of_ne _ _ h02, Block.word_setWord_of_ne _ _ h12]

end Superblock

/-! ### File records -/

/-- What the medium knows of a file. -/
structure Record where
  /-- The first entry of the file's chain. -/
  head : Link
  /-- The number of blocks of the file. -/
  blocks : UInt32
  deriving DecidableEq, Repr

/-- The record of a file without blocks. -/
def Record.empty : Record := ⟨Link.endMark, 0⟩

/-- The block of the medium and the place in it where the record of a
file stands. -/
def recordPosition (ino : UInt32) : UInt32 × Fin 64 :=
  (1 + ino / 64, ⟨ino.toNat % 64, Nat.mod_lt _ (by decide)⟩)

/-- The record at a place of a block. -/
def recordAt (block : Block) (place : Fin 64) : Record where
  head := ⟨block.word ⟨2 * place.val, by omega⟩⟩
  blocks := block.word ⟨2 * place.val + 1, by omega⟩

/-- The block with another record at a place. -/
def setRecord (block : Block) (place : Fin 64) (record : Record) : Block :=
  (block.setWord ⟨2 * place.val, by omega⟩ record.head.word).setWord
    ⟨2 * place.val + 1, by omega⟩ record.blocks

/-- The block of records of files without blocks. -/
def emptyRecords : Block :=
  (List.finRange 64).foldl (fun block place => setRecord block place Record.empty) Block.zero

/-- The record that was set is read back. -/
theorem record_setRecord_self (block : Block) (place : Fin 64) (record : Record) :
    recordAt (setRecord block place record) place = record := by
  have h : (⟨2 * place.val, by omega⟩ : Fin 128) ≠ ⟨2 * place.val + 1, by omega⟩ := by
    simp only [ne_eq, Fin.mk.injEq]
    omega
  simp only [recordAt, setRecord, Block.word_setWord_self, Block.word_setWord_of_ne _ _ h]

/-- The other records keep their value. -/
theorem record_setRecord_of_ne (block : Block) {place other : Fin 64} (record : Record)
    (h : other ≠ place) : recordAt (setRecord block place record) other = recordAt block other := by
  have hval : other.val ≠ place.val := fun e => h (Fin.ext e)
  have word : ∀ (i j : Nat) (hi : i < 128) (hj : j < 128) (w : UInt32) (b : Block), i ≠ j →
      (b.setWord ⟨j, hj⟩ w).word ⟨i, hi⟩ = b.word ⟨i, hi⟩ := by
    intro i j hi hj w b hne
    exact Block.word_setWord_of_ne b w (by simpa [Fin.ext_iff] using hne)
  simp only [recordAt, setRecord]
  rw [word _ _ _ _ _ _ (by omega), word _ _ _ _ _ _ (by omega), word _ _ _ _ _ _ (by omega),
    word _ _ _ _ _ _ (by omega)]

/-! ### Links in a table block -/

/-- The link at a place of a table block. -/
def linkAt (block : Block) (place : Fin 128) : Link := ⟨block.word place⟩

/-- The table block with another link at a place. -/
def setLink (block : Block) (place : Fin 128) (link : Link) : Block :=
  block.setWord place link.word

end BlockLayers.Fat
