import BlockLayers.Block
import BlockLayers.Row

/-!
# `BlockLayers.Cache.Ring`: slots on a ring and the second chance

A cache holds blocks in `n` slots that stand on a ring. A slot is empty
or holds a `Line`: a block, the address it belongs to, whether it was
used since the hand last passed, and whether it differs from the block
below.

To find the slot for a new block the hand moves along the ring. A line
that was used gets a second chance: the hand takes its mark away and
moves on. It stops at the first slot without a mark, and after one full
turn no mark is left, so `sweep` needs no more than `n` moves.

Main statement: `marked_unmark` (the hand takes away the mark it points
at and no other).
-/

set_option autoImplicit false

namespace BlockLayers.Cache

/-- A block in a cache. -/
structure Line where
  /-- The address that the block belongs to. -/
  key : Address
  /-- The block. -/
  data : Block
  /-- Whether the line was used since the hand last passed. -/
  referenced : Bool
  /-- Whether the block differs from the one below. -/
  dirty : Bool
  deriving DecidableEq

/-- The slots of a cache and the hand that chooses among them. -/
structure Ring (n : Nat) where
  /-- The slots; an empty one holds nothing. -/
  slots : Row (Option Line) n
  /-- The slot that the hand points at. -/
  hand : Fin n

namespace Ring

variable {n : Nat}

/-- A ring of empty slots, with the hand at the first. -/
def empty (n : Nat) (h : 0 < n) : Ring n where
  slots := Row.fill n none
  hand := ⟨0, h⟩

/-- The slot after a slot. -/
def nextSlot (i : Fin n) : Fin n :=
  ⟨(i.val + 1) % n, Nat.mod_lt _ i.pos⟩

/-- The ring with another content of one slot. -/
def put (i : Fin n) (slot : Option Line) (r : Ring n) : Ring n :=
  { r with slots := Row.put r.slots i slot }

/-- The slot that holds the block of an address, and its line. -/
def find? (r : Ring n) (a : Address) : Option (Fin n × Line) :=
  (List.finRange n).findSome? fun i =>
    match Row.at_ r.slots i with
    | some line => if line.key = a then some (i, line) else none
    | none => none

/-- Whether a slot holds a line that was used since the hand last
passed. -/
def marked (r : Ring n) (i : Fin n) : Bool :=
  match Row.at_ r.slots i with
  | some line => line.referenced
  | none => false

/-- The slot at the hand without its mark. -/
def unmark (r : Ring n) : Ring n :=
  r.put r.hand ((Row.at_ r.slots r.hand).map fun line => { line with referenced := false })

/-- Move the hand on while it points at a marked slot, at most `moves`
times, and take the marks away. -/
def sweep : Nat → Ring n → Ring n
  | 0, r => r
  | moves + 1, r =>
    if r.marked r.hand then
      let r := r.unmark
      sweep moves { r with hand := nextSlot r.hand }
    else r

/-- The ring with the hand at the slot that a new block goes to. -/
def victim (r : Ring n) : Ring n := r.sweep n

/-- Whether a slot holds a block of an inode at or behind an offset. -/
def isBehind (ino start : UInt32) (slot : Option Line) : Bool :=
  match slot with
  | some line => line.key.ino = ino && start ≤ line.key.offset
  | none => false

/-- The ring without the blocks of an inode at or behind an offset. -/
def dropFrom (ino start : UInt32) (r : Ring n) : Ring n :=
  { r with slots := r.slots.map fun slot => if isBehind ino start slot then none else slot }

/-- The number of blocks of an inode at or behind an offset. -/
def countFrom (r : Ring n) (ino start : UInt32) : Nat :=
  r.slots.toList.countP (isBehind ino start)

/-- The number of slots that hold a block. -/
def resident (r : Ring n) : Nat :=
  r.slots.toList.countP Option.isSome

/-! ### What the hand takes away -/

/-- The slot at the hand loses its mark, and every other slot keeps
the one it has. -/
theorem marked_unmark (r : Ring n) (i : Fin n) :
    r.unmark.marked i = (!decide (i = r.hand) && r.marked i) := by
  by_cases h : i = r.hand
  · subst h
    simp only [marked, unmark, put, Row.at_put_self]
    cases Row.at_ r.slots r.hand <;> simp
  · simp [marked, unmark, put, Row.at_put_of_ne _ _ h, h]

end Ring

end BlockLayers.Cache
