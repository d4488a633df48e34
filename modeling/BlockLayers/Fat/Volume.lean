import BlockLayers.Fat.Cursor

/-!
# `BlockLayers.Fat.Volume`: many files on one inode

A volume divides one inode of the store below, its medium, into files
that grow one by one. It keeps no tables between calls: every call reads
the superblock and the record of its file from the medium.

A file grows when a block is written behind its end: a run of entries is
taken from the head of the free chain and joined to the file's chain.
The superblock is written first, then the table, then the record, so a
growth that is interrupted can lose entries but never puts one on two
chains. A file shrinks to nothing: its whole chain goes back to the free
chain, and here the record is written first and the superblock last.

Main definitions: `Volume.store` (the layer), `Volume.grow` and
`Volume.free`.
-/

set_option autoImplicit false

namespace BlockLayers.Fat

/-- A file system on an inode of the store below. -/
structure Volume where
  /-- The inode of the store below that is the medium. -/
  medium : UInt32
  deriving DecidableEq, Repr

/-- What a call reads from the medium before it does anything: the
superblock and the record of its file, with the block it stands in. -/
structure Located where
  /-- The superblock. -/
  superblock : Superblock
  /-- The block of the medium that holds the record. -/
  blockNumber : UInt32
  /-- The content of that block. -/
  block : Block
  /-- The place of the record in the block. -/
  place : Fin 64
  /-- The record of the file. -/
  record : Record

namespace Volume

variable {σ : Type}

/-- Read a block of the medium. -/
def readBlock (v : Volume) (below : Store σ) (number : UInt32) : Op σ Block :=
  below (.read ⟨v.medium, number⟩)

/-- Write a block of the medium. -/
def writeBlock (v : Volume) (below : Store σ) (number : UInt32) (block : Block) : Op σ Unit :=
  below (.write ⟨v.medium, number⟩ block)

/-! ### Reading the tables -/

/-- The superblock of a medium that holds a file system. -/
def superblock (v : Volume) (below : Store σ) : Op σ Superblock := do
  let sb := Superblock.decode (← v.readBlock below 0)
  if sb.formatted then return sb else Op.fail .unformatted

/-- The superblock and the record of a file. -/
def locate (v : Volume) (below : Store σ) (ino : UInt32) : Op σ Located := do
  let sb ← v.superblock below
  let files ← sb.files
  if files ≤ ino then
    Op.fail (.noInode ino files)
  let (number, place) := recordPosition ino
  let block ← v.readBlock below number
  return ⟨sb, number, block, place, recordAt block place⟩

/-- Write the superblock. -/
def writeSuperblock (v : Volume) (below : Store σ) (sb : Superblock) : Op σ Unit :=
  v.writeBlock below 0 sb.encode

/-- Write the record of a file, with the other records of its block. -/
def writeRecord (v : Volume) (below : Store σ) (l : Located) (record : Record) : Op σ Unit :=
  v.writeBlock below l.blockNumber (setRecord l.block l.place record)

section Journal

variable [Journal σ]

/-- The entry of a block that the file has. -/
def entryOf (v : Volume) (below : Store σ) (l : Located) (offset : UInt32) : Op σ Link := do
  let cursor ← Cursor.open_ v.medium l.superblock
  let (entry, _) ← Op.withOwn cursor (Cursor.walk below l.record.head offset)
  return entry

/-! ### Growth -/

/-- A run of entries taken from the free chain. -/
structure Run where
  /-- The entries of the run before the last, in order. -/
  gap : List Link
  /-- The last entry of the run. -/
  last : Link
  /-- The entry behind the run. -/
  rest : Link

/-- The first entry of a run. -/
def Run.first (run : Run) : Link := run.gap.headD run.last

/-- The entry behind an entry of the free chain, which has to be there
for a growth by `wanted`. -/
def takeEntry (below : Store σ) (wanted : UInt32) (entry : Link) : Op (Cursor × σ) Link := do
  if entry.isEnd then
    Op.note (.freeChainExhausted wanted)
    Op.fail .noSpace
  Cursor.next below entry

/-- Take `gap + 1` entries from a free chain, for a growth by `wanted`. -/
def takeRun (below : Store σ) (wanted : UInt32) : Nat → Link → Op (Cursor × σ) Run
  | 0, entry => do
    let rest ← takeEntry below wanted entry
    return ⟨[], entry, rest⟩
  | gap + 1, entry => do
    let after ← takeEntry below wanted entry
    let run ← takeRun below wanted gap after
    return { run with gap := entry :: run.gap }

/-- The last entry of a file's chain, if the file has blocks. -/
def tailOf (below : Store σ) (record : Record) : Op (Cursor × σ) (Option Link) :=
  if record.blocks = 0 then return none
  else do return some (← Cursor.walk below record.head (record.blocks - 1))

/-- Cut a run off behind its last entry and write that to the table. -/
def cutRun (below : Store σ) (run : Run) : Op (Cursor × σ) Unit := do
  Cursor.setNext below run.last Link.endMark
  Cursor.flush below

/-- Join a run to the end of a file's chain and write that to the table.
Returns the head of the chain, which is the run itself when the file had
no blocks. -/
def joinRun (below : Store σ) (head : Link) (tail : Option Link) (run : Run) :
    Op (Cursor × σ) Link :=
  match tail with
  | some tail => do
    Cursor.setNext below tail run.first
    Cursor.flush below
    return head
  | none => return run.first

/-- Join a run of free entries to the chain of a file, so that the file
has the block `offset`, which it has not yet. The superblock is written
first, then the table, where the run is cut off before it is joined, and
the record last. -/
def grow (v : Volume) (below : Store σ) (l : Located) (offset : UInt32) :
    Op (Cursor × σ) Run := do
  let wanted ← Checked.sub (offset + 1) l.record.blocks
  let run ← takeRun below wanted (offset - l.record.blocks).toNat l.superblock.freeHead
  let tail ← tailOf below l.record
  -- Nothing is written before this line, and from here on only the run can be lost.
  Op.lower (v.writeSuperblock below { l.superblock with freeHead := run.rest })
  cutRun below run
  let head ← joinRun below l.record.head tail run
  Op.note (.chainExtended head wanted run.first run.last run.rest)
  Op.lower (v.writeRecord below l ⟨head, offset + 1⟩)
  return run

/-! ### Shrinking to nothing -/

/-- Turn the links of the first `left` entries of a chain around, so
that they lead to the free chain `free`. Returns what is left of the
chain and the new free chain. -/
def turnAround (below : Store σ) : Nat → Link → Link → Op (Cursor × σ) (Link × Link)
  | 0, entry, free => return (entry, free)
  | left + 1, entry, free => do
    if entry.isEnd then
      Op.fail (.corrupted .shortChain)
    let after ← Cursor.next below entry
    Cursor.setNext below entry free
    turnAround below left after entry

/-- Fail unless a chain ended where its file does. -/
def checkEnded (blocks : UInt32) (rest : Link) : Op (Cursor × σ) Unit :=
  if rest.isEnd then return ()
  else do
    Op.note (.chainOverrun blocks rest)
    Op.fail (.corrupted .longChain)

/-- Give the whole chain of a file back to the free chain. The record is
written first, then the table, and the superblock last. -/
def free (v : Volume) (below : Store σ) (l : Located) : Op (Cursor × σ) Unit := do
  let (rest, head) ←
    turnAround below l.record.blocks.toNat l.record.head l.superblock.freeHead
  -- The links are turned around in the cursor alone until the chain has been checked.
  checkEnded l.record.blocks rest
  Op.note (.chainFreed l.record.head l.record.blocks)
  Op.lower (v.writeRecord below l Record.empty)
  Cursor.flush below
  Op.lower (v.writeSuperblock below { l.superblock with freeHead := head })

/-! ### The layer -/

/-- Resize a file. Only its own size and zero are offered. -/
def resize (v : Volume) (below : Store σ) (ino blocks : UInt32) : Op σ UInt32 := do
  let l ← v.locate below ino
  let before := l.record.blocks
  if blocks = before then
    return before
  if before < blocks then
    Op.fail (.unsupported .emptyGrowth)
  if 0 < blocks then
    Op.fail (.unsupported .partialShrink)
  let cursor ← Cursor.open_ v.medium l.superblock
  let _ ← Op.withOwn cursor (v.free below l)
  return before

/-- Read a block of a file. -/
def read (v : Volume) (below : Store σ) (a : Address) : Op σ Block := do
  let l ← v.locate below a.ino
  if l.record.blocks ≤ a.offset then
    Op.fail (.pastEnd a.ino a.offset l.record.blocks)
  let entry ← v.entryOf below l a.offset
  let number ← l.superblock.dataBlock entry
  v.readBlock below number

/-- Write zeros to the data blocks of some entries. -/
def clear (v : Volume) (below : Store σ) (sb : Superblock) : List Link → Op σ Unit
  | [] => return ()
  | entry :: rest => do
    let number ← sb.dataBlock entry
    v.writeBlock below number Block.zero
    clear v below sb rest

/-- The entry of a block that a file gains. The blocks that it gains
before this one are zeros. -/
def gain (v : Volume) (below : Store σ) (l : Located) (offset : UInt32) : Op σ Link := do
  let cursor ← Cursor.open_ v.medium l.superblock
  let (run, _) ← Op.withOwn cursor (v.grow below l offset)
  -- The block of a free entry still holds what was written to it last.
  v.clear below l.superblock run.gap
  return run.last

/-- The entry of a block that is about to be written. A file that does
not have the block grows; no file can have a block behind the largest
number. -/
def entryFor (v : Volume) (below : Store σ) (l : Located) (offset : UInt32) : Op σ Link :=
  if offset < l.record.blocks then v.entryOf below l offset
  else if offset = 0xffffffff then Op.fail .noSpace
  else v.gain below l offset

/-- Write a block of a file, which grows if it does not have the block. -/
def write (v : Volume) (below : Store σ) (a : Address) (data : Block) : Op σ Unit := do
  let l ← v.locate below a.ino
  let entry ← v.entryFor below l a.offset
  let number ← l.superblock.dataBlock entry
  v.writeBlock below number data

/-- The files of a volume as a store. -/
def store (v : Volume) (below : Store σ) : Store σ
  | .capacity => do
    let sb ← v.superblock below
    let files ← sb.files
    return files
  | .size ino => do return (← v.locate below ino).record.blocks
  | .resize ino blocks => v.resize below ino blocks
  | .read a => v.read below a
  | .write a data => v.write below a data
  | .sync _ => below (.sync v.medium)

end Journal

end Volume

end BlockLayers.Fat
