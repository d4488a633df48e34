/-!
# `BlockLayers.Checked`: arithmetic on words that refuses to wrap

Block numbers, inode numbers and table links are 32-bit words. A sum,
difference or product of such numbers that leaves the word is a defect
of the caller or of the medium, and the operation in which it arises
stops at once with an `Abort`. `Checked.add`, `Checked.sub` and
`Checked.mul` return the exact result or the abort, never a wrapped
number: the lemmas `add_eq_ok_iff`, `sub_eq_ok_iff` and
`mul_eq_ok_iff` say so on natural numbers.

`Abort` also holds the other reasons to stop at once: an index outside
a block, and the constructions that are refused outright.
-/

set_option autoImplicit false

namespace BlockLayers

/-- A reason to stop an operation on the spot. Unlike a store's faults
an abort is never answered by trying something else. -/
inductive Abort where
  /-- A sum left its word. -/
  | addOverflow
  /-- A difference fell below zero. -/
  | subOverflow
  /-- A product left its word. -/
  | mulOverflow
  /-- A record number that its block does not have. -/
  | outOfBounds
  /-- A cache without slots was asked for. -/
  | emptyCache
  /-- A cache was asked for whose slots no memory could address. -/
  | capacityOverflow
  /-- A cache was asked for whose slots do not fit the memory. -/
  | outOfMemory
  /-- A mirror without members was asked for. -/
  | emptyMirror
  deriving DecidableEq, Repr

/-- The wording of an abort. Neither an index out of bounds nor a lack
of memory has one. -/
def Abort.message? : Abort → Option String
  | .addOverflow => some "attempt to add with overflow"
  | .subOverflow => some "attempt to subtract with overflow"
  | .mulOverflow => some "attempt to multiply with overflow"
  | .outOfBounds | .outOfMemory => none
  | .emptyCache => some "cache capacity must be positive"
  | .capacityOverflow => some "capacity overflow"
  | .emptyMirror => some "RAID1 needs at least one member"

namespace Checked

/-- The sum of two words, if it is a word. -/
def add (a b : UInt32) : Except Abort UInt32 :=
  if a.toNat + b.toNat < 4294967296 then .ok (a + b) else .error .addOverflow

/-- The difference of two words, if it is not negative. -/
def sub (a b : UInt32) : Except Abort UInt32 :=
  if b.toNat ≤ a.toNat then .ok (a - b) else .error .subOverflow

/-- The product of two words, if it is a word. -/
def mul (a b : UInt32) : Except Abort UInt32 :=
  if a.toNat * b.toNat < 4294967296 then .ok (a * b) else .error .mulOverflow

/-- The sum of two counters of 64 bits, if it has 64 bits. -/
def addCounts (a b : Nat) : Except Abort Nat :=
  if a + b < 18446744073709551616 then .ok (a + b) else .error .addOverflow

/-- The product of two counters of 64 bits, if it has 64 bits. -/
def mulCounts (a b : Nat) : Except Abort Nat :=
  if a * b < 18446744073709551616 then .ok (a * b) else .error .mulOverflow

/-- An index below `n`, if the number is one. -/
def index (n i : Nat) : Except Abort (Fin n) :=
  if h : i < n then .ok ⟨i, h⟩ else .error .outOfBounds

/-- `add` succeeds with exactly the sum of the numbers. -/
theorem add_eq_ok_iff {a b c : UInt32} :
    add a b = .ok c ↔ a.toNat + b.toNat = c.toNat := by
  have hc := c.toNat_lt
  unfold add
  split
  · rename_i h
    rw [Except.ok.injEq, ← UInt32.toNat_inj, UInt32.toNat_add, Nat.mod_eq_of_lt h]
  · constructor
    · intro h; simp at h
    · intro h; omega

/-- `sub` succeeds with exactly the difference of the numbers. -/
theorem sub_eq_ok_iff {a b c : UInt32} :
    sub a b = .ok c ↔ a.toNat = b.toNat + c.toNat := by
  unfold sub
  split
  · rename_i h
    have hle : b ≤ a := UInt32.le_iff_toNat_le.2 h
    rw [Except.ok.injEq, ← UInt32.toNat_inj, UInt32.toNat_sub_of_le a b hle]
    omega
  · constructor
    · intro h; simp at h
    · intro h; omega

/-- `mul` succeeds with exactly the product of the numbers. -/
theorem mul_eq_ok_iff {a b c : UInt32} :
    mul a b = .ok c ↔ a.toNat * b.toNat = c.toNat := by
  have hc := c.toNat_lt
  unfold mul
  split
  · rename_i h
    rw [Except.ok.injEq, ← UInt32.toNat_inj, UInt32.toNat_mul, Nat.mod_eq_of_lt h]
  · constructor
    · intro h; simp at h
    · intro h; omega

end Checked

end BlockLayers
