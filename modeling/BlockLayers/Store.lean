import BlockLayers.Checked
import BlockLayers.Event

/-!
# `BlockLayers.Store`: what every layer offers

A store keeps a number of inodes, each a run of blocks that can grow.
It answers six requests (`Request`), each with an answer of its own
type (`Request.Answer`). A `Store σ` is a function from requests to
operations on a state `σ`, and a layer is a function from the store
below it to a store: layers stack because both sides have this one type.

An operation `Op σ α` starts from a state and ends in a state, whether
it succeeds or stops. The state it ends in is kept also when it stops:
a call that fails half way leaves the half that was done. It stops with
a fault, which a layer above may deal with (`Op.attempt`), or with an
abort, which ends the whole call (`Stop`).

A layer that has a state of its own runs on pairs, its own state and
that of the store below: `Op.lower` is the way down, `Op.own` and
`Op.modifyOwn` reach the layer's half.

Main statements: `Op.bind_apply` (running two operations in turn),
`Op.attempt_apply` and `Op.lower_apply`.
-/

set_option autoImplicit false

namespace BlockLayers

/-! ### Requests -/

/-- A request to a store. -/
inductive Request where
  /-- The number of inodes. -/
  | capacity
  /-- The number of blocks of an inode. -/
  | size (ino : UInt32)
  /-- Give an inode another number of blocks. -/
  | resize (ino blocks : UInt32)
  /-- The block at an address. -/
  | read (place : Address)
  /-- Store a block at an address. -/
  | write (place : Address) (block : Block)
  /-- Make the changes to an inode durable. -/
  | sync (ino : UInt32)
  deriving DecidableEq

/-- What a request is answered with. Resizing answers the size that the
inode had before. -/
@[reducible] def Request.Answer : Request → Type
  | .capacity => UInt32
  | .size _ => UInt32
  | .resize _ _ => UInt32
  | .read _ => Block
  | .write _ _ => Unit
  | .sync _ => Unit

/-! ### Operations -/

/-- Why an operation did not reach its end. -/
inductive Stop where
  /-- The store refused; a layer above may deal with it. -/
  | fault (fault : Fault)
  /-- The call as a whole ends here. -/
  | abort (abort : Abort)
  deriving DecidableEq, Repr

/-- An operation on a state: from the state before to the state after,
with a value or the reason to stop. -/
abbrev Op (σ α : Type) := EStateM Stop σ α

/-- A store: an operation for each request. -/
abbrev Store (σ : Type) := (q : Request) → Op σ q.Answer

namespace Op

variable {σ τ α β : Type}

/-- Stop with a fault. -/
def fail (fault : Fault) : Op σ α := throw (.fault fault)

/-- The value of a checked computation, or its abort. -/
def checked (result : Except Abort α) : Op σ α :=
  match result with
  | .ok value => pure value
  | .error abort => throw (.abort abort)

instance : MonadLift (Except Abort) (Op σ) where
  monadLift := checked

/-- The value of a computation, or the reason why it stopped. -/
def ofResult (result : Except Stop α) : Op σ α :=
  match result with
  | .ok value => pure value
  | .error stop => throw stop

/-- Run an operation and take its fault, if it ends with one, as its
value. An abort is not taken. -/
def attempt (x : Op σ α) : Op σ (Except Fault α) := fun s =>
  match x s with
  | .ok value after => .ok (.ok value) after
  | .error (.fault fault) after => .ok (.error fault) after
  | .error (.abort abort) after => .error (.abort abort) after

/-- Run an operation and take whatever becomes of it as its value. -/
def trial (x : Op σ α) : Op σ (Except Stop α) := fun s =>
  match x s with
  | .ok value after => .ok (.ok value) after
  | .error stop after => .ok (.error stop) after

/-- Run an operation of the store below a layer. -/
def lower (x : Op σ α) : Op (τ × σ) α := fun (own, s) =>
  match x s with
  | .ok value after => .ok value (own, after)
  | .error stop after => .error stop (own, after)

/-- Run an operation on the layer's own state alone. -/
def upper (x : Op τ α) : Op (τ × σ) α := fun (mine, s) =>
  match x mine with
  | .ok value after => .ok value (after, s)
  | .error stop after => .error stop (after, s)

/-- Run a second operation whatever becomes of the first. The first
reason to stop is the one that stands. -/
def finishing (x y : Op σ Unit) : Op σ Unit := fun s =>
  match x s with
  | .ok _ after => y after
  | .error stop after =>
    match y after with
    | .ok _ final => .error stop final
    | .error _ final => .error stop final

/-- The layer's own state. -/
def own : Op (τ × σ) τ := fun (mine, s) => .ok mine (mine, s)

/-- Change the layer's own state. -/
def modifyOwn (f : τ → τ) : Op (τ × σ) Unit := fun (mine, s) => .ok () (f mine, s)

/-- Run an operation of a layer with a state of its own from the own
state `mine`, and return what becomes of that state. When the operation
stops, its own state is lost. -/
def withOwn (mine : τ) (x : Op (τ × σ) α) : Op σ (α × τ) := fun s =>
  match x (mine, s) with
  | .ok value (mine', after) => .ok (value, mine') after
  | .error stop (_, after) => .error stop after

/-- Two operations in turn: the second starts from the state in which
the first ends, and does not start when the first stops. -/
theorem bind_apply (x : Op σ α) (f : α → Op σ β) (s : σ) :
    (x >>= f) s = match x s with
      | .ok value after => f value after
      | .error stop after => .error stop after := by
  show EStateM.bind x f s = _
  unfold EStateM.bind
  cases x s <;> rfl

/-- The operation that only has a value leaves the state alone. -/
theorem pure_apply (value : α) (s : σ) : (pure value : Op σ α) s = .ok value s := rfl

/-- A checked computation leaves the state alone and stops with its
abort. -/
theorem lift_apply (result : Except Abort α) (s : σ) :
    (liftM result : Op σ α) s = match result with
      | .ok value => .ok value s
      | .error abort => .error (.abort abort) s := by
  cases result <;> rfl

/-- A failing operation leaves the state alone. -/
theorem fail_apply (fault : Fault) (s : σ) :
    (fail fault : Op σ α) s = .error (.fault fault) s := rfl

/-- An attempt ends in the state in which the operation ends. -/
theorem attempt_apply (x : Op σ α) (s : σ) :
    attempt x s = match x s with
      | .ok value after => .ok (.ok value) after
      | .error (.fault fault) after => .ok (.error fault) after
      | .error (.abort abort) after => .error (.abort abort) after := rfl

/-- An operation of the store below leaves the layer's own state alone. -/
theorem lower_apply (x : Op σ α) (mine : τ) (s : σ) :
    lower x (mine, s) = match x s with
      | .ok value after => .ok value (mine, after)
      | .error stop after => .error stop (mine, after) := rfl

end Op

/-! ### Events -/

/-- A state that takes events. A state may let some levels through and
others not, and layers may ask before they word an event. -/
class Journal (σ : Type) where
  /-- Whether events of a level are kept. -/
  keeps : σ → Level → Bool
  /-- Take an event. -/
  enter : Event → σ → σ

/-- A layer's events go where those of the store below it go. -/
instance {σ τ : Type} [Journal σ] : Journal (τ × σ) where
  keeps := fun (_, s) level => Journal.keeps s level
  enter := fun event (mine, s) => (mine, Journal.enter event s)

/-- The journal of a state that has no room for events. -/
@[reducible] def Journal.silent (σ : Type) : Journal σ where
  keeps := fun _ _ => false
  enter := fun _ s => s

namespace Op

variable {σ : Type} [Journal σ]

/-- Report an event. -/
def note (event : Event) : Op σ Unit := fun s => .ok () (Journal.enter event s)

/-- Whether events of a level are kept. -/
def keeps (level : Level) : Op σ Bool := fun s => .ok (Journal.keeps s level) s

end Op

end BlockLayers
