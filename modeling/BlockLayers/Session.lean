import BlockLayers.Command.Run
import BlockLayers.Copy
import BlockLayers.Pool

/-!
# `BlockLayers.Session`: building and using stacks by name

A session is a pool of layers in which some have names. A `Step` builds
a layer over named ones, sends a request to one, or looks at one, and
each step has an `Outcome`. Giving a name to a new layer lets go of the
one that had it before.

A step that names a layer that does not exist, or one of the wrong kind,
is refused and does nothing. A step that stops half way keeps what it
has done, and the session goes on with the next step.

Main definition: `Session.step`.
-/

set_option autoImplicit false

namespace BlockLayers

open Host

/-- Layers, some of which have names. -/
structure Session where
  /-- The layers. -/
  pool : Pool
  /-- The names and the numbers of the layers they stand for. -/
  names : List (String × Nat)

namespace Session

/-- A layer to be built over named layers. -/
inductive Blueprint where
  /-- A store in memory with a number of inodes. -/
  | memory (inodes : UInt32)
  /-- A cache over a layer. -/
  | cache (below : String) (slots : Nat) (policy : Cache.Policy)
  /-- A file system on an inode of a layer. -/
  | volume (below : String) (medium : UInt32)
  /-- A mirror of layers. -/
  | mirror (members : List String)
  /-- A probe in front of a layer. -/
  | probe (below : String)
  /-- A file of the host. -/
  | image (path : String) (access : Image.Access)
  /-- The file system on a file of the host, which is made if need be. -/
  | formatted (path : String) (length : Nat) (files : UInt32)
  /-- The same file system once more. -/
  | duplicate (volume : String)

/-- A step of a session. -/
inductive Step where
  /-- Build a layer and name it. -/
  | build (name : String) (blueprint : Blueprint)
  /-- Send a request to a layer. -/
  | request (on : String) (q : Request)
  /-- Let go of a layer. -/
  | release (on : String)
  /-- Replace words of a block. -/
  | poke (on : String) (at_ : Address) (words : List (Fin 128 × UInt32))
  /-- Read every block of an inode. -/
  | dump (on : String) (ino : UInt32)
  /-- Put a file system on an inode of a layer. -/
  | format (on : String) (ino files : UInt32)
  /-- Count the entries of a file system. -/
  | occupancy (on : String)
  /-- Look at the account of a cache, and report it. -/
  | account (on : String)
  /-- Look at the members of a mirror. -/
  | health (on : String)
  /-- Make a store in memory stop answering. -/
  | kill (on : String)
  /-- Make it answer again. -/
  | revive (on : String)
  /-- Count the calls of a store in memory. -/
  | calls (on : String)
  /-- Limit the requests of a kind that pass a probe. -/
  | limit (on : String) (kind : Request.Kind) (left : Option Nat)
  /-- Make the reads of an address fail at a probe. -/
  | breakRead (on : String) (at_ : Address)
  /-- Make the writes of an address fail at a probe. -/
  | breakWrite (on : String) (at_ : Address)
  /-- Make a probe let everything through. -/
  | heal (on : String)
  /-- Take the record of a probe. -/
  | takeSeen (on : String)
  /-- Replace the content of an inode by a byte string. -/
  | copyIn (on : String) (ino : UInt32) (bytes : List UInt8)
  /-- Compare the content of an inode with a byte string. -/
  | verify (on : String) (ino : UInt32) (bytes : List UInt8)
  /-- Write a file of the host. -/
  | makeFile (path : String) (bytes : List UInt8)
  /-- The number of bytes of a file of the host. -/
  | fileLength (path : String)
  /-- Bytes of a file of the host. -/
  | fileBytes (path : String) (start count : Nat)
  /-- Run the command, with a filter for its log if it has one. -/
  | command (words : List String) (filter : Option String)

/-- What a step returns. -/
inductive Reply where
  /-- Nothing. -/
  | done
  /-- A number. -/
  | number (n : Nat)
  /-- A block. -/
  | block (block : Block)
  /-- What became of reading each block of an inode. -/
  | blocks (results : List (Except Stop Block))
  /-- The count of the entries of a file system. -/
  | occupancy (counted : Fat.Occupancy)
  /-- The account of a cache, its sums, and its slots and policy. -/
  | account (tally : Cache.Tally) (reads writes slots resident : Nat) (policy : Cache.Policy)
  /-- The flags of a mirror and the number of its members in use. -/
  | health (broken : List Bool) (live : Nat)
  /-- The record of a probe. -/
  | seen (requests : List Request)
  /-- Bytes. -/
  | bytes (bytes : List UInt8)
  /-- What the command left, and its log. -/
  | ran (report : Command.Report) (log : List Event)

/-- How a step ends. -/
inductive Outcome where
  /-- It was done. -/
  | done (reply : Reply)
  /-- It stopped with a fault or an abort. -/
  | stopped (stop : Stop)
  /-- The host refused. -/
  | hostFailed (failure : Failure)
  /-- It made no sense here. -/
  | refused

/-- What can be seen of a layer without calling it. -/
inductive Glimpse where
  /-- The number of calls of a store in memory or a probe. -/
  | calls (n : Nat)
  /-- The account of a cache and the number of blocks in it. -/
  | cache (tally : Cache.Tally) (resident : Nat)
  /-- The flags of a mirror. -/
  | mirror (broken : List Bool)
  /-- Nothing. -/
  | nothing

/-- A session without layers, in a directory of its own. -/
def start (threshold : Option Level) : Session where
  pool := Pool.start (Machine.start Directory.onHost (Event.Filter.upTo threshold))
  names := []

/-- The number of the layer with a name. -/
def find? (s : Session) (name : String) : Option Nat :=
  (s.names.find? fun entry => entry.1 = name).map Prod.snd

/-- The layer with a name. -/
def layer? (s : Session) (name : String) : Option Layer :=
  (s.find? name).map fun id => s.pool.layer id

/-- The session without a name. -/
def forget (name : String) (s : Session) : Session :=
  { s with names := s.names.filter fun entry => entry.1 ≠ name }

/-- The session with a name for a layer. -/
def remember (name : String) (id : Nat) (s : Session) : Session :=
  { s.forget name with names := (name, id) :: (s.forget name).names }

/-- What can be seen of the layer with a name. -/
def glimpse (s : Session) (name : String) : Glimpse :=
  match s.layer? name with
  | some (.memory m) => .calls m.calls
  | some (.probe p _) => .calls p.calls
  | some (.cache _ c _) => .cache c.tally c.ring.resident
  | some (.mirror _ m _) => .mirror m.broken.toList
  | _ => .nothing

/-- Run an operation on the layers. -/
def onPool {α : Type} (x : Op Pool α) : Op Session α := fun s =>
  match x s.pool with
  | .ok value pool => .ok value { s with pool }
  | .error stop pool => .error stop { s with pool }

/-- Run an operation on the world outside. -/
def onMachine {α : Type} (x : Op Machine α) : Op Session α := onPool (Pool.onMachine x)

/-- The number of the layer with a name. -/
def idOf (name : String) : Op Session (Option Nat) := do return (← get).find? name

/-- Do something with the number of a named layer. -/
def withId (name : String) (f : Nat → Op Session Outcome) : Op Session Outcome := do
  match ← idOf name with
  | some id => f id
  | none => return .refused

/-- Do something with a named layer as a store. -/
def withStore (name : String) (f : Store Pool → Op Pool Reply) : Op Session Outcome :=
  withId name fun id => do return .done (← onPool (f (Pool.serve id)))

/-- Look at a named layer. -/
def look (name : String) (f : Layer → Option Reply) : Op Session Outcome :=
  withId name fun id => do
    match f ((← get).pool.layer id) with
    | some reply => return .done reply
    | none => return .refused

/-- Change a named layer, if it is of the right kind. -/
def change (name : String) (f : Layer → Option (Layer × Reply)) : Op Session Outcome :=
  withId name fun id => do
    match f (← onPool (Pool.take id)) with
    | some (layer, reply) => do
      onPool (modify (Pool.put id layer))
      return .done reply
    | none => return .refused

/-- Change a named probe. -/
def changeProbe (name : String) (f : Probe → Probe × Reply) : Op Session Outcome := do
  match (← get).layer? name with
  | some (.probe ..) =>
    change name fun
      | .probe p below => let (p, reply) := f p; some (.probe p below, reply)
      | _ => none
  | _ => return .refused

/-- Change a named store in memory. -/
def changeMemory (name : String) (f : Memory → Memory) : Op Session Outcome := do
  match (← get).layer? name with
  | some (.memory _) =>
    change name fun
      | .memory m => some (.memory (f m), .done)
      | _ => none
  | _ => return .refused

/-- Give a name to a layer that the session holds, and let go of the one
that had it before. -/
def settle (name : String) (id : Nat) : Op Session Outcome := do
  let before ← idOf name
  modify (remember name id)
  if let some old := before then
    onPool (Pool.release old)
  return .done .done

/-- Add a layer under a name. -/
def introduce (name : String) (layer : Layer) : Op Session Outcome := do
  settle name (← onPool (Pool.add layer))

/-- Whether a path is a plain name in the directory of a session. -/
def isPlain (path : String) : Bool :=
  path ≠ "" && !path.toList.contains '/' && (path.splitOn "..").length = 1

/-- Do something with a path that is a plain name. -/
def withPath (path : String) (x : Op Session Outcome) : Op Session Outcome :=
  if isPlain path then x else return .refused

/-- Look at what a path leads to. -/
def lookAt (path : String) (f : Directory → Opened → Except Failure Reply) :
    Op Session Outcome :=
  withPath path do
    let directory := (← get).pool.machine.directory
    match directory.find false path >>= f directory with
    | .ok reply => return .done reply
    | .error failure => return .hostFailed failure

/-- Build a layer and name it. -/
def build (name : String) : Blueprint → Op Session Outcome
  | .memory inodes => introduce name (.memory (Memory.empty inodes))
  | .cache below slots policy =>
    withId below fun id => do
      let c ← (Cache.ofCapacity policy slots : Except Abort _)
      introduce name (.cache slots c id)
  | .volume below medium =>
    withId below fun id => introduce name (.volume ⟨medium⟩ id)
  | .mirror members => do
    let s ← get
    match members.mapM s.find? with
    | none => return .refused
    | some [] => throw (.abort .emptyMirror)
    | some ids =>
      introduce name (.mirror ids.toArray.size (Mirror.fresh _) ids.toArray.toVector)
  | .probe below => withId below fun id => introduce name (.probe Probe.fresh id)
  | .image path access =>
    withPath path do
      match ← onMachine (Image.open_ path access) with
      | .ok image => introduce name (.image image)
      | .error failure => return .hostFailed failure
  | .formatted path length files =>
    withPath path do
      match ← onMachine (Image.openVolume path length files) with
      | .ok image => do
        let file ← onPool (Pool.add (.image image))
        let id ← onPool (Pool.add (.volume Image.volume file))
        -- From here on the file system alone holds its file.
        onPool (Pool.release file)
        settle name id
      | .error failure => return .hostFailed failure
  | .duplicate volume =>
    withId volume fun id => do
      match (← get).pool.layer id with
      | .volume v below => introduce name (.volume v below)
      | _ => return .refused

/-- What becomes of a request, as a reply. -/
def replyTo (store : Store Pool) : Request → Op Pool Reply
  | .capacity => do return .number (← store .capacity).toNat
  | .size ino => do return .number (← store (.size ino)).toNat
  | .resize ino blocks => do return .number (← store (.resize ino blocks)).toNat
  | .read a => do return .block (← store (.read a))
  | .write a data => do
    store (.write a data)
    return .done
  | .sync ino => do
    store (.sync ino)
    return .done

/-- The block with some words replaced, one after the other. -/
def replaceWords (block : Block) (words : List (Fin 128 × UInt32)) : Block :=
  words.foldl (fun block (i, w) => block.setWord i w) block

/-- Do a step. -/
def perform : Step → Op Session Outcome
  | .build name blueprint => build name blueprint
  | .request on q => withStore on fun store => replyTo store q
  | .release on =>
    withId on fun id => do
      modify (forget on)
      onPool (Pool.release id)
      return .done .done
  | .poke on a words =>
    withStore on fun store => do
      let block ← store (.read a)
      store (.write a (replaceWords block words))
      return .done
  | .dump on ino =>
    withStore on fun store => do
      let size ← store (.size ino)
      let results ← (List.range size.toNat).mapM fun offset =>
        (store (.read ⟨ino, UInt32.ofNat offset⟩)).trial
      return .blocks results
  | .format on ino files =>
    withStore on fun store => do
      (Fat.Volume.mk ino).format store files
      return .done
  | .occupancy on =>
    withId on fun id => do
      match (← get).pool.layer id with
      | .volume v below => return .done (.occupancy (← onPool (v.occupancy (Pool.serve below))))
      | _ => return .refused
  | .account on =>
    withId on fun id => do
      match (← get).pool.layer id with
      | .cache slots c _ =>
        -- The account is reported first, even if a sum does not fit its counter.
        onMachine (Cache.report c.tally)
        let reads ← c.tally.reads
        let writes ← c.tally.writes
        return .done (.account c.tally reads writes slots c.ring.resident c.policy)
      | _ => return .refused
  | .health on =>
    look on fun
      | .mirror _ m _ => some (.health m.broken.toList m.live)
      | _ => none
  | .kill on =>
    withId on fun id => do
      match (← get).pool.layer id with
      | .memory _ => do
        onMachine (Op.note .memoryKilled)
        changeMemory on Memory.kill
      | _ => return .refused
  | .revive on => changeMemory on Memory.revive
  | .calls on =>
    look on fun
      | .memory m => some (.number m.calls)
      | _ => none
  | .limit on kind left => changeProbe on fun p => (p.setBudget kind left, .done)
  | .breakRead on a => changeProbe on fun p => (p.breakRead a, .done)
  | .breakWrite on a => changeProbe on fun p => (p.breakWrite a, .done)
  | .heal on => changeProbe on fun p => (p.heal, .done)
  | .takeSeen on =>
    changeProbe on fun p =>
      let (seen, p) := p.takeSeen
      (p, .seen seen.toList)
  | .copyIn on ino bytes =>
    withStore on fun store => do return .number (← copyIn store ino bytes).toNat
  | .verify on ino bytes =>
    withStore on fun store => do
      verify store ino bytes
      return .done
  | .makeFile path bytes =>
    withPath path do
      match (← get).pool.machine.directory.create path with
      | .error failure => return .hostFailed failure
      | .ok (full, _) => do
        onMachine (modify (Machine.onDirectory (Directory.put full (File.ofBytes bytes))))
        return .done .done
  | .fileLength path =>
    lookAt path fun directory opened => return .number (directory.length opened)
  | .fileBytes path start count =>
    lookAt path fun directory opened => do
      return .bytes ((← directory.fileOf opened).bytes start count)
  | .command words filter =>
    -- The host takes no zero in a word or in the filter.
    if (filter.toList ++ words).any (·.toList.contains '\x00') then
      return .hostFailed .zeroInName
    else do
      let directory := (← get).pool.machine.directory
      let machine := Machine.start directory (Event.Filter.ofText (filter.getD ""))
      let (report, machine) := Command.run words machine
      onMachine (modify (Machine.onDirectory fun _ => machine.directory))
      return .done (.ran report machine.log.toList)

/-- Do a step with an empty log. -/
def step (s : Session) (step : Step) : Outcome × Session :=
  let fresh := { s with pool := { s.pool with machine := s.pool.machine.clearLog } }
  match perform step fresh with
  | .ok outcome after => (outcome, after)
  | .error stop after => (.stopped stop, after)

end Session

end BlockLayers
