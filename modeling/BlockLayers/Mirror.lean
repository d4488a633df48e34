import BlockLayers.Row
import BlockLayers.Store

/-!
# `BlockLayers.Mirror`: the same content on several stores

A mirror keeps one content on every member. A request that changes
something goes to every member that is in use, in order, and is answered
by the last that succeeds; a request that only asks goes to one member
after the other until one succeeds. A member that fails is given up and
never called again, except that a failed read leaves it in use.

The mirror's own state is a flag for each member (`Mirror`), set when
the member is given up and never cleared. When no member succeeds the
answer is `allFailed` with the last fault, or `noneLive` when there was
no member to call.

Main statement: `giveUp_eq_true` (a flag that is set stays set).
-/

set_option autoImplicit false

namespace BlockLayers

/-- The flags of a mirror with `n` members: which were given up. -/
structure Mirror (n : Nat) where
  /-- Whether each member was given up. -/
  broken : Row Bool n
  deriving DecidableEq, Repr

namespace Mirror

variable {σ α : Type} {n : Nat}

/-- A mirror with every member in use. -/
def fresh (n : Nat) : Mirror n := ⟨Row.fill n false⟩

/-- The number of members in use. -/
def live (m : Mirror n) : Nat := m.broken.toList.countP fun flag => !flag

/-- The mirror without one more member. -/
def giveUp (i : Fin n) (m : Mirror n) : Mirror n := ⟨Row.put m.broken i true⟩

/-- The fault of a request that no member could answer. -/
def exhausted (last : Option Fault) : Fault :=
  match last with
  | some fault => .allFailed fault
  | none => .noneLive

/-- The members in use, in order. -/
def inUse (m : Mirror n) : List (Fin n) :=
  (List.finRange n).filter fun i => !Row.at_ m.broken i

section Journal

variable [Journal σ]

/-- Give a member up because of a fault, and report it the first time. -/
def drop (i : Fin n) (fault : Fault) : Op (Mirror n × σ) Unit := do
  let already := Row.at_ (← Op.own).broken i
  Op.modifyOwn (giveUp i)
  unless already do Op.note (.memberBroken i fault)

/-- Ask members in turn until one succeeds. Those that fail before are
given up. -/
def askFirst (ask : Fin n → Op σ α) (last : Option Fault) : List (Fin n) → Op (Mirror n × σ) α
  | [] => Op.fail (exhausted last)
  | i :: rest => do
    match ← Op.lower (ask i).attempt with
    | .ok value => return value
    | .error fault => do
      drop i fault
      askFirst ask (some fault) rest

/-- Ask every member and answer with the last that succeeds. Those that
fail are given up. -/
def askAll (ask : Fin n → Op σ α) (found : Option α) (last : Option Fault) :
    List (Fin n) → Op (Mirror n × σ) α
  | [] =>
    match found with
    | some value => return value
    | none => Op.fail (exhausted last)
  | i :: rest => do
    match ← Op.lower (ask i).attempt with
    | .ok value => askAll ask (some value) last rest
    | .error fault => do
      drop i fault
      askAll ask found (some fault) rest

/-- Read from members in turn until one succeeds. Those that fail stay
in use. -/
def readFirst (members : Fin n → Store σ) (a : Address) (last : Option Fault) :
    List (Fin n) → Op (Mirror n × σ) Block
  | [] => Op.fail (exhausted last)
  | i :: rest => do
    match ← Op.lower (members i (.read a)).attempt with
    | .ok block => return block
    | .error fault => do
      Op.note (.memberUnread a i fault)
      readFirst members a (some fault) rest

/-- The mirror over its members, which share the state `σ`. -/
def store (members : Fin n → Store σ) : Store (Mirror n × σ)
  | .capacity => do askFirst (fun i => members i .capacity) none (← Op.own).inUse
  | .size ino => do askFirst (fun i => members i (.size ino)) none (← Op.own).inUse
  | .resize ino blocks => do
    askAll (fun i => members i (.resize ino blocks)) none none (← Op.own).inUse
  | .read a => do readFirst members a none (← Op.own).inUse
  | .write a block => do askAll (fun i => members i (.write a block)) none none (← Op.own).inUse
  | .sync ino => do askAll (fun i => members i (.sync ino)) none none (← Op.own).inUse

end Journal

/-- Giving a member up sets its flag and leaves every other as it is. -/
theorem giveUp_eq_true {m : Mirror n} {i j : Fin n} :
    Row.at_ (m.giveUp i).broken j = true ↔ j = i ∨ Row.at_ m.broken j = true := by
  by_cases h : j = i
  · subst h
    simp [giveUp, Row.at_put_self]
  · simp [giveUp, Row.at_put_of_ne _ _ h, h]

end Mirror

end BlockLayers
