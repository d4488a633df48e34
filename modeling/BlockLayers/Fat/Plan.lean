import BlockLayers.Fat.Layout
import BlockLayers.Store

/-!
# `BlockLayers.Fat.Plan`: how a medium is divided

Before a medium is formatted a `Plan` settles how its blocks are
divided: the superblock, enough blocks of records for the files that
are asked for, and of the rest one table block for each group of 129,
since one table block describes 128 data blocks. A group that is not
full has its table block too.

A plan needs at least one data block. A new file system has all of its
entries on the free chain, in ascending order (`Plan.tableBlock`).
-/

set_option autoImplicit false

namespace BlockLayers.Fat

/-- How a medium is divided. -/
structure Plan where
  /-- The number of blocks of file records. -/
  recordBlocks : UInt32
  /-- The number of blocks of the allocation table. -/
  tableBlocks : UInt32
  /-- The number of data blocks, each with an entry of its own. -/
  entries : UInt32
  deriving DecidableEq, Repr

namespace Plan

/-- The quotient of two words, rounded up. -/
def ceilDiv (a b : UInt32) : UInt32 :=
  if a % b = 0 then a / b else a / b + 1

/-- The plan for a medium of `total` blocks and at least `files` files. -/
def make (total files : UInt32) : Except Stop Plan := do
  if files = 0 then
    throw (.fault (.unsupported .noFiles))
  let recordBlocks := ceilDiv files 64
  let before ← (Checked.add 1 recordBlocks).mapError Stop.abort
  if total < before then
    throw (.fault .noSpace)
  let rest := total - before
  -- A group is one table block and the 128 data blocks that it describes.
  let tableBlocks := ceilDiv rest 129
  let entries ← (Checked.sub rest tableBlocks).mapError Stop.abort
  if entries = 0 then
    throw (.fault .noSpace)
  return { recordBlocks, tableBlocks, entries }

/-- The superblock of a new file system: every entry is free. -/
def superblock (p : Plan) : Superblock where
  recordBlocks := p.recordBlocks
  tableBlocks := p.tableBlocks
  freeHead := ⟨0⟩

/-- The link of entry `128 * index + place` in a new file system: the
entry after it, or the end for the last entry and for those behind it. -/
def firstLink (p : Plan) (index : UInt32) (place : Fin 128) : Except Abort Link := do
  let entry ← Checked.add (← Checked.mul index 128) (UInt32.ofNat place.val)
  let after ← Checked.add entry 1
  return if after < p.entries then ⟨after⟩ else Link.endMark

/-- Block `index` of the allocation table of a new file system. -/
def tableBlock (p : Plan) (index : UInt32) : Except Abort Block := do
  let links ← (Vector.finRange 128).mapM (p.firstLink index)
  return Block.ofWords (links.map Link.word)

end Plan

end BlockLayers.Fat
