import BlockLayers.Cache
import BlockLayers.Fat.Occupancy
import BlockLayers.Image
import BlockLayers.Memory
import BlockLayers.Mirror
import BlockLayers.Probe

/-!
# `BlockLayers.Pool`: layers that hold each other

A pool keeps layers by number. A layer names the layers it stands on,
and only ones that are older, so every stack in a pool has a bottom and
`Pool.serve` is a recursion on the layer's number. Several layers may
stand on the same one.

A layer lives as long as somebody holds it: a layer above, or a user of
the pool. When the last holder lets it go (`Pool.release`), a cache
flushes what it still has to write, and then the layer lets go of those
it stands on.
-/

set_option autoImplicit false

namespace BlockLayers

/-- A layer with the numbers of the layers below it. -/
inductive Layer where
  /-- A store in memory. -/
  | memory (m : Memory)
  /-- An image on the host. -/
  | image (image : Image)
  /-- A cache over a layer. -/
  | cache (slots : Nat) (c : Cache slots) (below : Nat)
  /-- A file system on an inode of a layer. -/
  | volume (v : Fat.Volume) (below : Nat)
  /-- A mirror of some layers. -/
  | mirror (width : Nat) (m : Mirror width) (members : Row Nat width)
  /-- A probe in front of a layer. -/
  | probe (p : Probe) (below : Nat)
  /-- A layer that has been let go. -/
  | gone

/-- The numbers of the layers that a layer stands on, in order. -/
def Layer.supports : Layer → List Nat
  | .memory _ | .image _ | .gone => []
  | .cache _ _ below | .volume _ below | .probe _ below => [below]
  | .mirror _ _ members => members.toList

/-- A place in a pool. -/
structure Cell where
  /-- The layer. -/
  layer : Layer
  /-- How many hold it. -/
  holders : Nat

/-- Layers by number, and the world outside of them. -/
structure Pool where
  /-- The layers, the oldest first. -/
  cells : Array Cell
  /-- The files and the log. -/
  machine : Host.Machine

namespace Pool

/-- A pool without layers. -/
def start (machine : Host.Machine) : Pool := ⟨#[], machine⟩

instance : Journal Pool where
  keeps := fun pool level => Journal.keeps pool.machine level
  enter := fun event pool => { pool with machine := Journal.enter event pool.machine }

/-- Run an operation on the world outside. -/
def onMachine {α : Type} (x : Op Host.Machine α) : Op Pool α := fun pool =>
  match x pool.machine with
  | .ok value machine => .ok value { pool with machine }
  | .error stop machine => .error stop { pool with machine }

/-- The layer with a number. -/
def layer (id : Nat) (pool : Pool) : Layer :=
  match pool.cells[id]? with
  | some cell => cell.layer
  | none => .gone

/-- The pool with another layer under a number. -/
def put (id : Nat) (layer : Layer) (pool : Pool) : Pool :=
  { pool with cells := pool.cells.modify id fun cell => { cell with layer } }

/-- The pool with one holder more of a layer. -/
def hold (id : Nat) (pool : Pool) : Pool :=
  { pool with cells := pool.cells.modify id fun cell => { cell with holders := cell.holders + 1 } }

/-- The pool with one holder less of a layer. -/
def loosen (id : Nat) (pool : Pool) : Pool :=
  { pool with cells := pool.cells.modify id fun cell => { cell with holders := cell.holders - 1 } }

/-- How many hold a layer. -/
def holders (id : Nat) (pool : Pool) : Nat :=
  match pool.cells[id]? with
  | some cell => cell.holders
  | none => 0

/-- Take a layer out of its place; nothing stands there until it is put
back. -/
def take (id : Nat) : Op Pool Layer := fun pool =>
  .ok (pool.layer id) (pool.put id .gone)

/-- Run an operation of a layer whose state `mine` was taken out of its
place, and put back what becomes of it, also when the operation stops. -/
def running {τ α : Type} (id : Nat) (wrap : τ → Layer) (mine : τ) (x : Op (τ × Pool) α) :
    Op Pool α := fun pool =>
  match x (mine, pool) with
  | .ok value (mine', after) => .ok value (after.put id (wrap mine'))
  | .error stop (mine', after) => .error stop (after.put id (wrap mine'))

/-- The store that answers no request. -/
def silent : Store Pool := fun _ => Op.fail .io

/-- A layer as a store. A layer that is gone answers no request. -/
def serve (id : Nat) (q : Request) : Op Pool q.Answer := do
  -- A layer's place is empty while it runs, so its state is never copied.
  match ← take id with
  | .memory m => running id .memory m (Op.upper (Memory.store q))
  | .image image => do
    modify (put id (.image image))
    onMachine (image.store q)
  | .cache slots c below =>
    running id (fun c => .cache slots c below) c
      (Cache.store (if _h : below < id then serve below else silent) q)
  | .volume v below => do
    modify (put id (.volume v below))
    v.store (if _h : below < id then serve below else silent) q
  | .mirror width m members =>
    running id (fun m => .mirror width m members) m
      (Mirror.store
        (fun i => if _h : Row.at_ members i < id then serve (Row.at_ members i) else silent) q)
  | .probe p below =>
    running id (fun p => .probe p below) p
      (Probe.store (if _h : below < id then serve below else silent) q)
  | .gone => Op.fail .io
termination_by id

/-- Let go of a layer. The last holder to do so ends the layer: a cache
flushes, and the layers below are let go in order. -/
def release (id : Nat) : Op Pool Unit := do
  modify (loosen id)
  if (← get).holders id = 0 then
    let ended ← take id
    let below := ended.supports.foldr
      (fun support rest =>
        (if _h : support < id then release support else pure ()).finishing rest) (pure ())
    -- The layers below are let go even when the flush is aborted.
    match ended with
    | .cache _ c support =>
      Op.finishing (do let _ ← Op.withOwn c (Cache.close (serve support))) below
    | _ => below
termination_by id

/-- Add a layer and hold it. The layers below gain a holder each.
Returns the number of the layer. -/
def add (layer : Layer) : Op Pool Nat := do
  modify fun pool => layer.supports.foldl (fun pool support => pool.hold support) pool
  let id := (← get).cells.size
  modify fun pool => { pool with cells := pool.cells.push ⟨layer, 1⟩ }
  return id

end Pool

end BlockLayers
