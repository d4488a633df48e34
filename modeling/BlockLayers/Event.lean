import BlockLayers.Block
import BlockLayers.Fault
import BlockLayers.Fat.Link
import BlockLayers.Host.Failure

/-!
# `BlockLayers.Event`: what the layers report

Besides its answer a call may leave reports: a cache names the blocks
that it loses, a mirror the members that it gives up, a file system the
links that it cannot follow. An `Event` is such a report as a value;
`Event.level` ranks it, `Event.origin` names the part that reports it,
and `Event.text` words it.

Who collects events sets a threshold for all of them or for those of an
origin. `Level.passes` says which levels a threshold lets through.
-/

set_option autoImplicit false

namespace BlockLayers

/-- How much an event matters, from the most severe to the least. -/
inductive Level where
  | error
  | warn
  | info
  | debug
  | trace
  deriving DecidableEq, Repr

namespace Level

/-- The rank of a level; a more severe one is smaller. -/
def rank : Level → Nat
  | .error => 1
  | .warn => 2
  | .info => 3
  | .debug => 4
  | .trace => 5

/-- Whether a threshold lets a level through: those at least as severe
as the threshold pass, and without a threshold none does. -/
def passes (threshold : Option Level) (level : Level) : Bool :=
  match threshold with
  | some least => level.rank ≤ least.rank
  | none => false

/-- The name of a level in a report. -/
def text : Level → String
  | .error => "ERROR"
  | .warn => "WARN"
  | .info => "INFO"
  | .debug => "DEBUG"
  | .trace => "TRACE"

end Level

/-- Something that a layer reports besides its answer. -/
inductive Event where
  /-- A memory store was told to stop answering. -/
  | memoryKilled
  /-- A block was read from the cache. -/
  | readHit (at_ : Address)
  /-- A block that the cache does not hold was asked for. -/
  | readMiss (at_ : Address)
  /-- A changed block is about to be written below to free its slot. -/
  | victimFlushed (at_ : Address)
  /-- A block has left its slot. -/
  | evicted (at_ : Address) (slot : Nat)
  /-- An inode changed its size, and the cache dropped blocks past it. -/
  | cacheResized (ino before after : UInt32) (dropped : Nat)
  /-- A closing cache could not write a changed block below. -/
  | blockLost (at_ : Address) (fault : Fault)
  /-- One line of a cache's account of hits and misses. -/
  | tallyLine (line : String)
  /-- A mirror gave a member up. -/
  | memberBroken (member : Nat) (fault : Fault)
  /-- A member could not read a block, and the next one is asked. -/
  | memberUnread (at_ : Address) (member : Nat) (fault : Fault)
  /-- A link does not lead to an entry of the table. -/
  | danglingLink (link : Fat.Link) (capacity : UInt32)
  /-- A chain ended while it was being followed. -/
  | chainEnded (head : Fat.Link) (steps : UInt32)
  /-- The free chain is too short. -/
  | freeChainExhausted (wanted : UInt32)
  /-- A file grew by a run of free entries. -/
  | chainExtended (head : Fat.Link) (count : UInt32) (first last free : Fat.Link)
  /-- A chain goes on after as many entries as its file has blocks. -/
  | chainOverrun (blocks : UInt32) (link : Fat.Link)
  /-- A chain is about to join the free chain. -/
  | chainFreed (head : Fat.Link) (blocks : UInt32)
  /-- A medium to be formatted already holds a file system. -/
  | alreadyFormatted (ino : UInt32)
  /-- A medium was formatted. -/
  | formatted (ino total inodes tableBlocks dataBlocks : UInt32)
  /-- The record of a file and its chain differ in length. -/
  | lengthMismatch (ino claimed : UInt32) (found : Nat)
  /-- An entry was reached twice. -/
  | claimedTwice (link : Fat.Link)
  /-- Entries were never reached. -/
  | orphaned (count total : Nat)
  /-- The host refused an operation on an image. -/
  | imageFailed (failure : Host.Failure)
  /-- A block read back is not the one that was copied in. -/
  | contentDiffers (at_ : Address)
  /-- The account of the cache over an image follows. -/
  | cacheOver (path : String)
  /-- Some members of the mirror were given up. -/
  | membersBroken (flags : List Bool)
  deriving DecidableEq, Repr

namespace Event

/-- How much an event matters. -/
def level : Event → Level
  | .danglingLink .. | .chainEnded .. | .chainOverrun .. | .lengthMismatch .. | .claimedTwice _
  | .orphaned .. | .imageFailed _ | .contentDiffers _ => .error
  | .blockLost .. | .memberBroken .. | .membersBroken _ => .warn
  | .tallyLine _ | .alreadyFormatted _ | .formatted .. | .cacheOver _ => .info
  | .memoryKilled | .victimFlushed _ | .evicted .. | .cacheResized .. | .memberUnread ..
  | .freeChainExhausted _ | .chainExtended .. | .chainFreed .. => .debug
  | .readHit _ | .readMiss _ => .trace

/-- The name under which the part that reports an event is known to a
filter. A colon pair separates a part from the layer that it is in. -/
def origin : Event → String
  | .memoryKilled => "block_dev::ram_disk"
  | .readHit _ | .readMiss _ | .victimFlushed _ | .evicted .. | .cacheResized .. | .blockLost ..
  | .tallyLine _ => "clockdisk"
  | .memberBroken .. | .memberUnread .. => "raid1disk"
  | .danglingLink .. | .chainEnded .. => "fatdisk::table"
  | .freeChainExhausted _ | .chainExtended .. | .chainOverrun .. | .chainFreed ..
  | .alreadyFormatted _ | .formatted .. => "fatdisk"
  | .lengthMismatch .. | .claimedTwice _ | .orphaned .. => "fatdisk::usage"
  | .imageFailed _ => "stack_fuse::block_file"
  | .contentDiffers _ | .cacheOver _ | .membersBroken _ => "stack_fuse"

/-- The wording of an event. -/
def text : Event → String
  | .memoryKilled => "ramdisk killed"
  | .readHit a => s!"read hit ino={a.ino} offset={a.offset}"
  | .readMiss a => s!"read miss ino={a.ino} offset={a.offset}"
  | .victimFlushed a => s!"flush victim ino={a.ino} offset={a.offset}"
  | .evicted a slot => s!"evict ino={a.ino} offset={a.offset} slot={slot}"
  | .cacheResized ino before after dropped =>
    s!"set_size ino={ino} {before} -> {after}, invalidated {dropped} slots"
  | .blockLost a fault => s!"lost dirty block ino={a.ino} offset={a.offset}: {fault.message}"
  | .tallyLine line => s!"CLOCK: {line}"
  | .memberBroken member fault => s!"mirror member {member} marked broken: {fault.message}"
  | .memberUnread a member fault =>
    s!"read ino={a.ino} offset={a.offset} failed on member {member}: {fault.message}"
  | .danglingLink link capacity => s!"dangling FAT link {link.text} (capacity {capacity})"
  | .chainEnded head steps => s!"chain from {head.text} ended before {steps} steps"
  | .freeChainExhausted wanted => s!"free list exhausted, wanted {wanted} entries"
  | .chainExtended head count first last free =>
    s!"extend chain {head.text} by {count} entries ({first.text}..={last.text}), " ++
      s!"free head now {free.text}"
  | .chainOverrun blocks link => s!"chain of {blocks} blocks continues at {link.text}"
  | .chainFreed head blocks => s!"free chain {head.text} of {blocks} blocks"
  | .alreadyFormatted ino => s!"inode {ino} already holds a FAT file system"
  | .formatted ino total inodes tableBlocks dataBlocks =>
    s!"formatted inode {ino}: {total} blocks, {inodes} inodes, {tableBlocks} FAT blocks, " ++
      s!"{dataBlocks} data blocks"
  | .lengthMismatch ino claimed found =>
    s!"inode {ino} claims {claimed} blocks but its chain has {found}"
  | .claimedTwice link => s!"FAT entry {link.text} is claimed twice"
  | .orphaned count total => s!"{count} of {total} entries are on no chain"
  | .imageFailed failure => s!"image I/O failed: {failure.message}"
  | .contentDiffers a => s!"block {a.offset} of inode {a.ino} differs from the input"
  | .cacheOver path => "cache over " ++ Text.quoted path
  | .membersBroken flags =>
    "broken mirror members: [" ++ ", ".intercalate (flags.map toString) ++ "]"

end Event

end BlockLayers
