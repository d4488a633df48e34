import BlockLayers.Text.Quoted

/-!
# `BlockLayers.Fault`: why a store refuses a call

Every layer answers a call with a value or with a `Fault`. A fault is
a cause, kept apart from its wording: `Fault.message` is the sentence
for a reader, `Fault.kind` the name of the cause alone, and
`Fault.describe` the cause together with its numbers.

Layers above a store either deal with a fault (a mirror asks another
member) or pass it on as it is. A mirror that has no member left to
ask wraps the last fault in `allFailed`.
-/

set_option autoImplicit false

namespace BlockLayers

/-- What is wrong with the tables on a medium. -/
inductive Damage where
  /-- A link that is needed is the end mark or leaves the table. -/
  | danglingLink
  /-- A chain ends before its file does. -/
  | shortChain
  /-- A chain goes on after its file has ended. -/
  | longChain
  /-- A chain and the record of its file differ in length. -/
  | lengthMismatch
  /-- A chain reaches an entry that has no data block. -/
  | beyondData
  /-- Two chains share an entry, or one chain has it twice. -/
  | claimedTwice
  /-- An entry is on no chain. -/
  | orphaned
  /-- The medium is shorter than its own tables. -/
  | truncatedMedium
  /-- A block read back is not the one that was stored. -/
  | contentDiffers
  /-- Damage that a store outside this library has put into words. -/
  | described (text : String)
  deriving DecidableEq, Repr

/-- The wording of a kind of damage. -/
def Damage.text : Damage → String
  | .danglingLink => "dangling FAT link"
  | .shortChain => "chain shorter than file"
  | .longChain => "chain longer than file"
  | .lengthMismatch => "chain length mismatch"
  | .beyondData => "entry beyond data area"
  | .claimedTwice => "entry claimed twice"
  | .orphaned => "entry owned by no chain"
  | .truncatedMedium => "backing inode smaller than metadata"
  | .contentDiffers => "read back differs from input"
  | .described text => text

/-- What a store does not offer. -/
inductive Limit where
  /-- A file system without files. -/
  | noFiles
  /-- Growth of a file other than by writing its new last block. -/
  | emptyGrowth
  /-- Shrinking a file to a size other than zero. -/
  | partialShrink
  /-- A limit that a store outside this library has put into words. -/
  | described (text : String)
  deriving DecidableEq, Repr

/-- The wording of a limit. -/
def Limit.text : Limit → String
  | .noFiles => "file system without inodes"
  | .emptyGrowth => "growing a file without writing it"
  | .partialShrink => "shrinking a file to a non-zero size"
  | .described text => text

/-- Why a store refuses a call. -/
inductive Fault where
  /-- The device does not answer. -/
  | io
  /-- The store has `capacity` inodes, and `ino` is not one of them. -/
  | noInode (ino capacity : UInt32)
  /-- Inode `ino` has `size` blocks, and `offset` is not one of them. -/
  | pastEnd (ino offset size : UInt32)
  /-- The store does not offer the operation. -/
  | unsupported (limit : Limit)
  /-- No free block is left. -/
  | noSpace
  /-- The medium holds no file system. -/
  | unformatted
  /-- The tables on the medium contradict each other. -/
  | corrupted (damage : Damage)
  /-- Every member that a mirror asked has failed, this one last. -/
  | allFailed (last : Fault)
  /-- A mirror has no member left to ask. -/
  | noneLive
  deriving DecidableEq, Repr

namespace Fault

/-- The sentence that tells a reader what went wrong. -/
def message : Fault → String
  | .io => "device I/O failure"
  | .noInode ino capacity => s!"inode {ino} out of range (capacity {capacity})"
  | .pastEnd ino offset size => s!"block {offset} beyond end of inode {ino} ({size} blocks)"
  | .unsupported limit => s!"unsupported operation: {limit.text}"
  | .noSpace => "no space left on store"
  | .unformatted => "store is not formatted"
  | .corrupted damage => s!"corrupted metadata: {damage.text}"
  | .allFailed last => s!"all mirror members failed, last error: {last.message}"
  | .noneLive => "no live mirror member"

/-- The name of the cause. -/
def kind : Fault → String
  | .io => "Io"
  | .noInode .. => "InodeOutOfRange"
  | .pastEnd .. => "OffsetOutOfRange"
  | .unsupported _ => "Unsupported"
  | .noSpace => "NoSpace"
  | .unformatted => "Unformatted"
  | .corrupted _ => "Corrupted"
  | .allFailed _ => "AllMembersFailed"
  | .noneLive => "NoLiveMembers"

/-- The cause with its numbers, texts and inner faults. -/
def describe : Fault → String
  | .noInode ino capacity => s!"InodeOutOfRange \x7b ino: {ino}, ninodes: {capacity} \x7d"
  | .pastEnd ino offset size =>
    s!"OffsetOutOfRange \x7b ino: {ino}, offset: {offset}, size: {size} \x7d"
  | .unsupported limit => "Unsupported(" ++ Text.quoted limit.text ++ ")"
  | .corrupted damage => "Corrupted(" ++ Text.quoted damage.text ++ ")"
  | .allFailed last => "AllMembersFailed(" ++ last.describe ++ ")"
  | fault => fault.kind

end Fault

end BlockLayers
