import BlockLayers.Cache.Bank
import BlockLayers.Command.Arguments
import BlockLayers.Copy
import BlockLayers.Image
import BlockLayers.Mirror

/-!
# `BlockLayers.Command.Run`: copying a file into mirrored images

The command opens every image, formats those that are new, puts a cache
over each and a mirror over the caches, copies the input file into one
file of the mirror, and reads it back. It prints one line on success,
and reports the account of each cache and the members that were given
up. Whatever becomes of the copy, the caches are closed in the order of
the images before the command ends.

`run` is the whole command as a function on a machine: the words of the
command line go in, the exit code and the printed text come out. A
command that is aborted a second time, while it deals with the first
abort, has no exit code.
-/

set_option autoImplicit false

namespace BlockLayers.Command

open Host

/-- How a run of the command ends. -/
inductive Ending where
  /-- Everything was done. -/
  | finished
  /-- An operation was refused; the text shows why. -/
  | failed (text : String)
  /-- The words on the command line do not fit. -/
  | misused
  /-- An operation stopped on the spot. -/
  | aborted
  /-- The command could not even deal with its own end. -/
  | killed
  deriving DecidableEq, Repr

/-- The exit code of an ending, if there is one. -/
def Ending.code : Ending → Option Nat
  | .finished => some 0
  | .failed _ => some 1
  | .misused => some 2
  | .aborted => some 101
  | .killed => none

/-- The text of a refusal by the host. -/
def hostFailed (failure : Failure) : Ending := .failed failure.describe

/-- The ending that a reason to stop leads to. -/
def Ending.ofStop : Stop → Ending
  | .fault fault => .failed s!"Custom \x7b kind: Other, error: {fault.describe} \x7d"
  | .abort .outOfMemory => .killed
  | .abort _ => .aborted

/-- The ending after the caches were closed. An abort that comes to an
abort ends the command at once. -/
def Ending.afterClosing (ending : Ending) : Bank.Closing → Ending
  | .complete => ending
  | .aborted => if ending = .aborted then .killed else .aborted
  | .broken => .killed

/-- What a run of the command leaves for its caller. -/
structure Report where
  /-- How it ended. -/
  ending : Ending
  /-- What it printed. -/
  printed : String
  deriving DecidableEq, Repr

/-- The line on the error output, for a run that was refused. -/
def Report.complaint? (r : Report) : Option String :=
  match r.ending with
  | .failed text => some ("Error: " ++ text)
  | _ => none

/-- Open the images of some paths in turn, and check after each that the
caches over them can have the number of slots that is asked for. -/
def openImages (settings : Settings) : List String → Op Machine (Except Failure (List Image))
  | [] => return .ok []
  | path :: rest => do
    let length ← Checked.mulCounts settings.sizeMib 0x100000
    match ← Image.openVolume path length settings.files with
    | .error failure => return .error failure
    | .ok image => do
      let _ ← (Cache.ofCapacity settings.policy settings.slots : Except Abort _)
      match ← openImages settings rest with
      | .error failure => return .error failure
      | .ok images => return .ok (image :: images)

/-- The bytes of the file of a path. -/
def readInput (path : String) : Op Machine (Except Failure (List UInt8)) := do
  let directory := (← get).directory
  return do
    let file ← directory.fileOf (← directory.find false path)
    return file.content

section Stack

variable {width slots : Nat}

/-- The file system on each image. -/
def volumes (images : Row Image width) (i : Fin width) : Store Machine :=
  Image.volume.store (Row.at_ images i).store

/-- The mirror over the caches over the file systems. -/
def stack (images : Row Image width) :
    Store (Mirror width × (Bank width slots × Machine)) :=
  Mirror.store (Bank.store (volumes images))

/-- Report the account of each cache, with the path of its image. -/
def reportCaches : List (String × Cache slots) → Op Machine Unit
  | [] => return ()
  | (path, cache) :: rest => do
    Op.note (.cacheOver path)
    Cache.report cache.tally
    reportCaches rest

/-- Copy the bytes in, print a line, compare, and report. The printed
text is the own state of the operation. -/
def copyAndReport (settings : Settings) (images : Row Image width) (bytes : List UInt8) :
    Op (String × (Mirror width × (Bank width slots × Machine))) Unit := do
  let blocks ← Op.lower (copyIn (stack images) settings.ino bytes)
  let shown := Text.quoted settings.input
  Op.modifyOwn fun printed => printed ++
    s!"copied {shown} into inode {settings.ino} ({bytes.length} bytes, {blocks} blocks)\n"
  Op.lower (verify (stack images) settings.ino bytes)
  -- From here on only reports are left, two layers further down.
  let bank ← Op.lower (Op.lower Op.own)
  Op.lower (Op.lower (Op.lower (reportCaches (settings.images.zip bank.toList))))
  let mirror ← Op.lower Op.own
  let flags := mirror.broken.toList
  if flags.contains true then
    Op.note (.membersBroken flags)

/-- Copy the bytes into the images through a fresh stack, and close the
caches at the end. -/
def copyThrough (settings : Settings) (cache : Cache slots) (images : Row Image width)
    (bytes : List UInt8) : Op Machine Report := fun machine =>
  let bank : Bank width slots := Row.fill width cache
  let close (ending : Ending) (printed : String) (bank : Bank width slots) (machine : Machine) :
      EStateM.Result Stop Machine Report :=
    match Bank.close (volumes images) (bank, machine) with
    | .ok closing (_, machine) => .ok ⟨ending.afterClosing closing, printed⟩ machine
    | .error stop (_, machine) => .error stop machine
  -- The caches close in every case, and what they report comes last.
  match copyAndReport settings images bytes ("", (Mirror.fresh width, (bank, machine))) with
  | .ok _ (printed, (_, (bank, machine))) => close .finished printed bank machine
  | .error stop (printed, (_, (bank, machine))) => close (.ofStop stop) printed bank machine

end Stack

/-- Do what the settings ask for. -/
def execute (settings : Settings) : Op Machine Report := do
  match ← openImages settings settings.images with
  | .error failure => return ⟨hostFailed failure, ""⟩
  | .ok images => do
    let cache ← (Cache.ofCapacity settings.policy settings.slots : Except Abort _)
    match ← readInput settings.input with
    | .error failure => return ⟨hostFailed failure, ""⟩
    | .ok bytes => copyThrough settings cache images.toArray.toVector bytes

/-- Run the command with the given words on a machine. -/
def run (words : List String) (machine : Machine) : Report × Machine :=
  match Settings.ofWords words with
  | .error .help => (⟨.finished, ""⟩, machine)
  | .error .misuse => (⟨.misused, ""⟩, machine)
  | .ok settings =>
    match execute settings machine with
    | .ok report machine => (report, machine)
    | .error stop machine => (⟨.ofStop stop, ""⟩, machine)

end BlockLayers.Command
