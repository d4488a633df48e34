import BlockLayers.Checked

/-!
# `BlockLayers.Cache.Tally`: how often a cache had the block

A cache counts, for reads and for writes, the calls that found their
block in it and those that did not. Calls that fail later count too.
-/

set_option autoImplicit false

namespace BlockLayers.Cache

/-- Hits and misses of a cache. -/
structure Tally where
  /-- Reads that found their block. -/
  readHits : Nat
  /-- Reads that did not. -/
  readMisses : Nat
  /-- Writes that found their block. -/
  writeHits : Nat
  /-- Writes that did not. -/
  writeMisses : Nat
  deriving DecidableEq, Repr

namespace Tally

/-- Nothing counted yet. -/
def zero : Tally := ⟨0, 0, 0, 0⟩

/-- One more read. -/
def countRead (hit : Bool) (t : Tally) : Tally :=
  if hit then { t with readHits := t.readHits + 1 } else { t with readMisses := t.readMisses + 1 }

/-- One more write. -/
def countWrite (hit : Bool) (t : Tally) : Tally :=
  if hit then { t with writeHits := t.writeHits + 1 }
  else { t with writeMisses := t.writeMisses + 1 }

/-- The number of reads, as a counter of 64 bits. -/
def reads (t : Tally) : Except Abort Nat := Checked.addCounts t.readHits t.readMisses

/-- The number of writes, as a counter of 64 bits. -/
def writes (t : Tally) : Except Abort Nat := Checked.addCounts t.writeHits t.writeMisses

/-- The account, a line for each counter. -/
def lines (t : Tally) : List String :=
  [s!"#read hits:    {t.readHits}", s!"#read misses:  {t.readMisses}",
    s!"#write hits:   {t.writeHits}", s!"#write misses: {t.writeMisses}"]

/-- The account as one text. -/
def text (t : Tally) : String := "\n".intercalate t.lines

end Tally

end BlockLayers.Cache
