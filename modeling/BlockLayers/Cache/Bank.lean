import BlockLayers.Cache

/-!
# `BlockLayers.Cache.Bank`: caches side by side

A bank is a row of caches of one size, each over a store of its own.
The stores below may share their state, and the caches do not touch each
other: a request to one leaves the slots of the others alone
(`Bank.at_apply`).

The caches of a bank close in order. One that is aborted does not keep
the others from closing, but a second one does (`Bank.Closing`).
-/

set_option autoImplicit false

namespace BlockLayers

/-- `width` caches with `n` slots each. -/
abbrev Bank (width n : Nat) := Row (Cache n) width

/-- How the closing of the caches of a bank ends. -/
inductive Bank.Closing where
  /-- Every cache closed. -/
  | complete
  /-- One cache was aborted, and the others closed. -/
  | aborted
  /-- Two caches were aborted, and those behind the second did not
  close. -/
  | broken
  deriving DecidableEq, Repr

namespace Bank

variable {σ α : Type} {width n : Nat}

/-- Run an operation of one cache of a bank. -/
def at_ (i : Fin width) (x : Op (Cache n × σ) α) : Op (Bank width n × σ) α := fun (bank, s) =>
  match x (Row.at_ bank i, s) with
  | .ok value (cache, after) => .ok value (Row.put bank i cache, after)
  | .error stop (cache, after) => .error stop (Row.put bank i cache, after)

section Journal

variable [Journal σ]

/-- One cache of a bank as a store. -/
def store (below : Fin width → Store σ) (i : Fin width) : Store (Bank width n × σ) := fun q =>
  at_ i (Cache.store (below i) q)

/-- Close the given caches in turn. `aborted` says that one before them
was aborted. -/
def closeEach (below : Fin width → Store σ) (aborted : Bool) :
    List (Fin width) → Op (Bank width n × σ) Closing
  | [] => return if aborted then .aborted else .complete
  | i :: rest => do
    match ← (at_ i (Cache.close (below i))).trial with
    | .ok _ => closeEach below aborted rest
    -- The second abort leaves the caches behind it as they are.
    | .error _ => if aborted then return .broken else closeEach below true rest

/-- Close every cache of a bank, in order. -/
def close (below : Fin width → Store σ) : Op (Bank width n × σ) Closing :=
  closeEach below false (List.finRange width)

end Journal

/-- An operation of one cache leaves the other caches alone. -/
theorem at_apply (i : Fin width) (x : Op (Cache n × σ) α) (bank : Bank width n) (s : σ) :
    at_ i x (bank, s) = match x (Row.at_ bank i, s) with
      | .ok value (cache, after) => .ok value (Row.put bank i cache, after)
      | .error stop (cache, after) => .error stop (Row.put bank i cache, after) := rfl

end Bank

end BlockLayers
