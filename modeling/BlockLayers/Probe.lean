import BlockLayers.Store

/-!
# `BlockLayers.Probe`: a layer that watches and disturbs

A probe forwards every request and keeps a record of it. It can be told
to fail: reads or writes of single addresses (`Probe.breakRead`,
`Probe.breakWrite`), or every request of one kind after a number of them
has passed (`Probe.setBudget`). A request that fails is recorded and not
forwarded. Writes far behind the end of any medium in use always fail.

Main statements: `Probe.judge_records` (every request is recorded, and
counted once) and `Probe.store_apply` (what is not let through never
reaches the store below).
-/

set_option autoImplicit false

namespace BlockLayers

/-- The kinds of request. -/
inductive Request.Kind where
  | capacity
  | size
  | resize
  | read
  | write
  | sync
  deriving DecidableEq, Repr

/-- The kind of a request. -/
def Request.kind : Request → Request.Kind
  | .capacity => .capacity
  | .size _ => .size
  | .resize .. => .resize
  | .read _ => .read
  | .write .. => .write
  | .sync _ => .sync

/-- The state of a probe. -/
structure Probe where
  /-- The number of requests so far. -/
  calls : Nat
  /-- The requests since the record was last taken, in order. -/
  seen : Array Request
  /-- How many more requests of a kind pass, for each kind that is
  limited. -/
  limits : List (Request.Kind × Nat)
  /-- The addresses whose reads fail. -/
  badReads : List Address
  /-- The addresses whose writes fail. -/
  badWrites : List Address

namespace Probe

variable {σ : Type}

/-- A probe that lets everything through. -/
def fresh : Probe where
  calls := 0
  seen := #[]
  limits := []
  badReads := []
  badWrites := []

/-- The first block offset at which writes always fail. -/
def writeLimit : UInt32 := 65536

/-- How many more requests of a kind pass, if that is limited. -/
def budget (p : Probe) (kind : Request.Kind) : Option Nat :=
  (p.limits.find? fun entry => entry.1 = kind).map Prod.snd

/-- Limit the requests of a kind that pass from now on, or lift the
limit. -/
def setBudget (kind : Request.Kind) (left : Option Nat) (p : Probe) : Probe :=
  let others := p.limits.filter fun entry => entry.1 ≠ kind
  { p with limits := match left with
      | some count => (kind, count) :: others
      | none => others }

/-- Make the reads of an address fail. -/
def breakRead (a : Address) (p : Probe) : Probe := { p with badReads := a :: p.badReads }

/-- Make the writes of an address fail. -/
def breakWrite (a : Address) (p : Probe) : Probe := { p with badWrites := a :: p.badWrites }

/-- Lift every limit and mend every address. -/
def heal (p : Probe) : Probe :=
  { p with limits := [], badReads := [], badWrites := [] }

/-- The record so far, and the probe with an empty record. -/
def takeSeen (p : Probe) : Array Request × Probe :=
  (p.seen, { p with seen := #[] })

/-- Whether a request is to a broken address. -/
def hitsBadBlock (p : Probe) : Request → Bool
  | .read a => p.badReads.contains a
  | .write a _ => p.badWrites.contains a
  | _ => false

/-- Whether a request writes at or behind the limit. -/
def beyondLimit : Request → Bool
  | .write a _ => writeLimit ≤ a.offset
  | _ => false

/-- Record a request and decide whether it is let through. One that
hits a broken address leaves its budget alone. -/
def judge (q : Request) (p : Probe) : Bool × Probe :=
  let p := { p with calls := p.calls + 1, seen := p.seen.push q }
  if p.hitsBadBlock q then (false, p)
  else
    -- A write behind the limit uses up its budget before it fails.
    match p.budget q.kind with
    | some 0 => (false, p)
    | some (left + 1) => (!beyondLimit q, p.setBudget q.kind (some left))
    | none => (!beyondLimit q, p)

/-- The probe in front of a store. -/
def store (below : Store σ) : Store (Probe × σ) := fun q => do
  let (passes, after) := (← Op.own).judge q
  Op.modifyOwn fun _ => after
  if passes then Op.lower (below q) else Op.fail .io

/-- Whatever is decided, the request is at the end of the record and
has been counted. -/
theorem judge_records (q : Request) (p : Probe) :
    (judge q p).2.seen = p.seen.push q ∧ (judge q p).2.calls = p.calls + 1 := by
  unfold judge setBudget
  dsimp only
  split
  · exact ⟨rfl, rfl⟩
  · split <;> exact ⟨rfl, rfl⟩

/-- A request that is let through is answered by the store below; any
other fails and leaves that store alone. -/
theorem store_apply (below : Store σ) (q : Request) (p : Probe) (s : σ) :
    store below q (p, s) =
      if (p.judge q).1 then Op.lower (below q) ((p.judge q).2, s)
      else .error (.fault .io) ((p.judge q).2, s) := by
  simp only [store, Op.bind_apply, Op.own, Op.modifyOwn]
  split
  · rfl
  · rfl

end Probe

end BlockLayers
