import BlockLayers.Cache.Ring
import BlockLayers.Cache.Tally
import BlockLayers.Store

/-!
# `BlockLayers.Cache`: a bounded cache of blocks

A cache keeps some blocks of the store below in its slots. A read of a
block that it holds does not go below. Under the policy `writeThrough`
every write goes below at once; under `writeBack` it only changes the
slot, and the block is written below when its slot is needed, on a sync
of its inode, or when the cache is closed. Whatever is in the slots, a
read returns the block that was last written.

When a changed block cannot be written below to free its slot, the call
fails and the slot stays as it is. A sync stops at the first block that
it cannot write. A closing cache tries every changed block and reports
those that are lost.

Main definitions: `Cache.store` (the layer), `Cache.close` (the last
flush) and `Cache.ofCapacity` (a cache has at least one slot).
-/

set_option autoImplicit false

namespace BlockLayers

/-- When a written block goes to the store below. -/
inductive Cache.Policy where
  /-- When its slot is needed, on a sync, or on closing. -/
  | writeBack
  /-- At once. -/
  | writeThrough
  deriving DecidableEq, Repr

/-- The state of a cache with `n` slots. -/
structure Cache (n : Nat) where
  /-- When a written block goes to the store below. -/
  policy : Cache.Policy
  /-- The slots. -/
  ring : Cache.Ring n
  /-- How often the block was found. -/
  tally : Cache.Tally

namespace Cache

variable {σ : Type} {n : Nat}

/-- An empty cache. -/
def empty (policy : Policy) (n : Nat) (h : 0 < n) : Cache n where
  policy
  ring := Ring.empty n h
  tally := Tally.zero

/-- The number of bytes that a slot takes: a block, and its address and
marks beside it. -/
def slotSize : Nat := 528

/-- The number of bytes that all of the slots together may take. -/
def slotsLimit : Nat := 0x800000000

/-- The number of bytes that can be addressed. -/
def addressLimit : Nat := 0x7fffffffffffffff

/-- An empty cache with `n` slots; there must be one at least, and they
must fit the memory. -/
def ofCapacity (policy : Policy) (n : Nat) : Except Abort (Cache n) :=
  if addressLimit < slotSize * n then .error .capacityOverflow
  else if slotsLimit < slotSize * n then .error .outOfMemory
  else if h : 0 < n then .ok (empty policy n h)
  else .error .emptyCache

/-- The cache with another ring. -/
def onRing (f : Ring n → Ring n) (c : Cache n) : Cache n := { c with ring := f c.ring }

/-- The cache with another account. -/
def onTally (f : Tally → Tally) (c : Cache n) : Cache n := { c with tally := f c.tally }

/-- The slot that holds the block of an address, and its line. -/
def lookup (a : Address) : Op (Cache n × σ) (Option (Fin n × Line)) := do
  return (← Op.own).ring.find? a

/-- Put a line into a slot. -/
def install (i : Fin n) (line : Line) : Op (Cache n × σ) Unit :=
  Op.modifyOwn (onRing (Ring.put i (some line)))

section Journal

variable [Journal σ]

/-- What a slot holds. -/
def slotAt (i : Fin n) : Op (Cache n × σ) (Option Line) := do
  return Row.at_ (← Op.own).ring.slots i

/-- Write a block that has to leave its slot below, if it was changed. -/
def writeVictim (below : Store σ) (old : Line) : Op (Cache n × σ) Unit :=
  if old.dirty then do
    Op.note (.victimFlushed old.key)
    Op.lower (below (.write old.key old.data))
  else return ()

/-- Make a slot ready for another block. -/
def vacate (below : Store σ) (i : Fin n) : Op (Cache n × σ) Unit := do
  match ← slotAt i with
  | some old => do
    writeVictim below old
    Op.note (.evicted old.key i)
  | none => return ()

/-- Choose a slot for a line that no slot holds, make it ready, and
install the line. -/
def takeIn (below : Store σ) (line : Line) : Op (Cache n × σ) Unit := do
  -- The hand stays where it has moved to, also when the slot cannot be made ready.
  Op.modifyOwn (onRing Ring.victim)
  let hand := (← Op.own).ring.hand
  vacate below hand
  install hand line

/-- Read a block, from its slot if it has one. -/
def read (below : Store σ) (a : Address) : Op (Cache n × σ) Block := do
  match ← lookup a with
  | some (i, line) => do
    Op.modifyOwn (onTally (Tally.countRead true))
    install i { line with referenced := true }
    Op.note (.readHit a)
    return line.data
  | none => do
    -- The miss counts whether or not the block can be read.
    Op.modifyOwn (onTally (Tally.countRead false))
    Op.note (.readMiss a)
    let data ← Op.lower (below (.read a))
    takeIn below ⟨a, data, true, false⟩
    return data

/-- Write a block below, if the policy says so. -/
def writeBelow (below : Store σ) (policy : Policy) (a : Address) (data : Block) :
    Op (Cache n × σ) Unit :=
  match policy with
  | .writeThrough => Op.lower (below (.write a data))
  | .writeBack => return ()

/-- Write a block to its slot and, as the policy says, below. Below
comes first, so that a block that cannot be written there is not in the
cache either. -/
def write (below : Store σ) (a : Address) (data : Block) : Op (Cache n × σ) Unit := do
  let found ← lookup a
  Op.modifyOwn (onTally (Tally.countWrite found.isSome))
  let policy := (← Op.own).policy
  writeBelow below policy a data
  let line : Line := ⟨a, data, true, policy = .writeBack⟩
  match found with
  | some (i, _) => install i line
  | none => takeIn below line

/-- Resize an inode below and drop the blocks that it no longer has. -/
def resize (below : Store σ) (ino blocks : UInt32) : Op (Cache n × σ) UInt32 := do
  let before ← Op.lower (below (.resize ino blocks))
  let dropped := (← Op.own).ring.countFrom ino blocks
  Op.modifyOwn (onRing (Ring.dropFrom ino blocks))
  Op.note (.cacheResized ino before blocks dropped)
  return before

/-- Write the block of a slot below, if it was changed and belongs to the
inode. -/
def flushSlot (below : Store σ) (ino : UInt32) (i : Fin n) : Op (Cache n × σ) Unit := do
  match ← slotAt i with
  | some line =>
    if line.dirty ∧ line.key.ino = ino then do
      Op.lower (below (.write line.key line.data))
      -- A line whose write fails stays dirty.
      install i { line with dirty := false }
    else return ()
  | none => return ()

/-- Write the changed blocks of an inode below, in the order of the
slots, up to the first that fails. -/
def flush (below : Store σ) (ino : UInt32) : List (Fin n) → Op (Cache n × σ) Unit
  | [] => return ()
  | i :: rest => do
    flushSlot below ino i
    flush below ino rest

/-- Write the changed blocks of an inode below and sync it there. -/
def sync (below : Store σ) (ino : UInt32) : Op (Cache n × σ) Unit := do
  match (← Op.own).policy with
  | .writeBack => do
    flush below ino (List.finRange n)
    Op.lower (below (.sync ino))
  | .writeThrough => Op.lower (below (.sync ino))

/-- The cache in front of a store. -/
def store (below : Store σ) : Store (Cache n × σ)
  | .capacity => Op.lower (below .capacity)
  | .size ino => Op.lower (below (.size ino))
  | .resize ino blocks => resize below ino blocks
  | .read a => read below a
  | .write a data => write below a data
  | .sync ino => sync below ino

/-- Write the block of a slot below, if it was changed, and report it
when that fails. -/
def rescueSlot (below : Store σ) (i : Fin n) : Op (Cache n × σ) Unit := do
  match ← slotAt i with
  | some line =>
    if line.dirty then do
      match ← Op.lower (below (.write line.key line.data)).attempt with
      | .ok _ => install i { line with dirty := false }
      | .error fault => Op.note (.blockLost line.key fault)
    else return ()
  | none => return ()

/-- Write every changed block in the given slots below, and report
those that cannot be written. -/
def rescue (below : Store σ) : List (Fin n) → Op (Cache n × σ) Unit
  | [] => return ()
  | i :: rest => do
    rescueSlot below i
    rescue below rest

/-- The end of a cache: what is changed goes below or is lost. -/
def close (below : Store σ) : Op (Cache n × σ) Unit := do
  match (← Op.own).policy with
  | .writeBack => rescue below (List.finRange n)
  | .writeThrough => return ()

/-- Report the account of a cache, line by line. -/
def report (t : Tally) : Op σ Unit :=
  t.lines.forM fun line => Op.note (.tallyLine line)

end Journal

end Cache

end BlockLayers
