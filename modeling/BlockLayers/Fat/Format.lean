import BlockLayers.Fat.Plan
import BlockLayers.Fat.Volume

/-!
# `BlockLayers.Fat.Format`: putting a file system on a medium

A medium is formatted by a `Plan`: the blocks of file records are
written, then the allocation table, each from its first block on, and
the superblock last. A medium counts as formatted by its superblock
alone, so one whose formatting was interrupted still holds no file
system and can be formatted again.

Main definition: `Volume.format`, which writes to no medium that holds a
file system already. The plan is made before the first block is
written, so a medium that is too small is left as it is.
-/

set_option autoImplicit false

namespace BlockLayers.Fat.Volume

variable {σ : Type} [Journal σ]

/-- Write the same block to a number of blocks of the medium in turn. -/
def writeAll (v : Volume) (below : Store σ) (block : Block) : Nat → UInt32 → Op σ Unit
  | 0, _ => return ()
  | left + 1, number => do
    v.writeBlock below number block
    writeAll v below block left (number + 1)

/-- Write the allocation table of a new file system from block `index`
of the table on. -/
def writeTable (v : Volume) (below : Store σ) (plan : Plan) (start : UInt32) :
    Nat → UInt32 → Op σ Unit
  | 0, _ => return ()
  | left + 1, index => do
    let block ← plan.tableBlock index
    let at_ ← Checked.add start index
    v.writeBlock below at_ block
    writeTable v below plan start left (index + 1)

/-- Write the tables of a new file system, the superblock last. -/
def layOut (v : Volume) (below : Store σ) (plan : Plan) : Op σ Unit := do
  let start ← plan.superblock.tableStart
  v.writeAll below emptyRecords plan.recordBlocks.toNat 1
  v.writeTable below plan start plan.tableBlocks.toNat 0
  -- Up to here the first word of the medium counts no records.
  v.writeSuperblock below plan.superblock

/-- Report a new file system. The number of its files is worked out only
for a journal that keeps the report. -/
def announce (v : Volume) (total : UInt32) (plan : Plan) : Op σ Unit := do
  if ← Op.keeps .info then
    let files ← plan.superblock.files
    Op.note (.formatted v.medium total files plan.tableBlocks plan.entries)

/-- Divide the medium into at least `files` files. A medium that already
holds a file system is left as it is. -/
def format (v : Volume) (below : Store σ) (files : UInt32) : Op σ Unit := do
  let total ← below (.size v.medium)
  if total = 0 then
    Op.fail .noSpace
  let first ← v.readBlock below 0
  if (Superblock.decode first).formatted then
    Op.note (.alreadyFormatted v.medium)
  else
    let plan ← Op.ofResult (Plan.make total files)
    v.layOut below plan
    v.announce total plan

end BlockLayers.Fat.Volume
