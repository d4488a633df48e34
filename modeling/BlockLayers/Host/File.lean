import BlockLayers.Block
import Std.Data.TreeMap

/-!
# `BlockLayers.Host.File`: a file of the host

A file is a string of bytes of some length. Most of the bytes of an
image are zeros that nobody has written, so a file keeps only the blocks
that were written, by their numbers; the rest of its bytes are zeros.
No byte behind the end of the file is kept.

`File.ofBytes` and `File.bytes` are the way from and to byte strings,
`File.blockAt` and `File.putBlock` read and write a block of a file, and
`File.setLength` cuts it or makes it longer with zeros.
-/

set_option autoImplicit false

namespace BlockLayers.Host

/-- A file. -/
structure File where
  /-- The number of bytes. -/
  length : Nat
  /-- The blocks that are not known to be zeros, by their numbers. -/
  pages : Std.TreeMap Nat Block

namespace File

/-- The file without bytes. -/
def empty : File := ⟨0, ∅⟩

/-- The file with the given bytes. -/
def ofBytes (bytes : List UInt8) : File where
  length := bytes.length
  pages := (Block.chunks bytes).zipIdx.foldl
    (fun pages (chunk, number) => pages.insert number (Block.ofBytes chunk)) ∅

/-- Block `number` of the file, with zeros behind the end of the file. -/
def blockAt (f : File) (number : Nat) : Block := f.pages.getD number Block.zero

/-- The `count` bytes of the file from byte `start` on, as far as the
file has them. -/
def bytes (f : File) (start count : Nat) : List UInt8 :=
  let stop := min (start + count) f.length
  if stop ≤ start then []
  else
    let first := start / 512
    let last := (stop - 1) / 512
    let blocks := (List.range' first (last + 1 - first)).flatMap fun number =>
      (f.blockAt number).toList
    (blocks.drop (start - 512 * first)).take (stop - start)

/-- All bytes of the file. -/
def content (f : File) : List UInt8 := f.bytes 0 f.length

/-- The file with another block; the file is long enough for it
afterwards. -/
def putBlock (f : File) (number : Nat) (block : Block) : File where
  length := max f.length (512 * (number + 1))
  pages := f.pages.insert number block

/-- The first `count` bytes of a block, with zeros behind them. -/
def firstBytes (block : Block) (count : Nat) : Block :=
  Vector.ofFn fun i => if i.val < count then block[i] else 0

/-- The file with another length: cut off, or made longer with zeros. -/
def setLength (f : File) (length : Nat) : File :=
  if f.length ≤ length then { f with length }
  else
    -- What is cut off is forgotten, so growing again brings zeros.
    let kept := f.pages.filter fun number _ => 512 * number < length
    let last := length / 512
    { length
      pages := if length % 512 = 0 then kept
        else kept.modify last fun block => firstBytes block (length % 512) }

end File

end BlockLayers.Host
