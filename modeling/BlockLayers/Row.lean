/-!
# `BlockLayers.Row`: a fixed number of things side by side

The slots of a cache, the flags of a mirror and the caches of a bank are
rows: vectors whose places are numbered by `Fin n`, so that every place
that can be named is there. `Row.at_` looks at a place and `Row.put`
changes one.

Main statements: `Row.at_put_self`, `Row.at_put_of_ne` and
`Row.at_fill`, which say what is found at a place.
-/

set_option autoImplicit false

namespace BlockLayers

/-- `n` things side by side. -/
abbrev Row (α : Type) (n : Nat) := Vector α n

namespace Row

variable {α : Type} {n : Nat}

/-- The row with the same thing in every place. -/
def fill (n : Nat) (a : α) : Row α n := Vector.replicate n a

/-- What stands at a place. -/
def at_ (row : Row α n) (i : Fin n) : α := row.get i

/-- The row with another thing at a place. -/
def put (row : Row α n) (i : Fin n) (a : α) : Row α n := row.set i.val a i.isLt

/-- The place that was changed holds what was put there. -/
theorem at_put_self (row : Row α n) (i : Fin n) (a : α) : at_ (put row i a) i = a :=
  Vector.getElem_set_self i.isLt

/-- Every other place holds what it held before. -/
theorem at_put_of_ne (row : Row α n) {i j : Fin n} (a : α) (h : j ≠ i) :
    at_ (put row i a) j = at_ row j :=
  Vector.getElem_set_ne i.isLt j.isLt fun e => h (Fin.ext e.symm)

/-- Every place of a filled row holds the same thing. -/
theorem at_fill (a : α) (i : Fin n) : at_ (fill n a) i = a :=
  Vector.getElem_replicate i.isLt

end Row

end BlockLayers
