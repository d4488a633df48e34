import BlockLayers.Fat.Format
import BlockLayers.Host.Machine

/-!
# `BlockLayers.Image`: a file of the host as a store

An image is a file that serves as a store with one inode, number 0, of
as many blocks as the file has whole ones. Blocks are written anywhere;
a file that is too short becomes longer, with zeros in between. A refusal
by the host is reported and answered with the fault `io`.

`openVolume` is how an image becomes a file system: a file that is new or
empty gets the length that is asked for, and a file without a file system
is formatted. The length of a file that has bytes is left alone.
-/

set_option autoImplicit false

namespace BlockLayers

/-- What a file was opened for. -/
inductive Image.Access where
  | readWrite
  | readOnly
  | writeOnly
  deriving DecidableEq, Repr

/-- An open file that serves as a store. -/
structure Image where
  /-- What its path led to. A directory can be open too, for reading. -/
  opened : Host.Opened
  /-- What the file was opened for. -/
  access : Image.Access
  deriving DecidableEq, Repr

namespace Image

open Host

/-- The greatest length that the host can count. -/
def lengthLimit : Nat := 0x7fffffffffffffff

/-- Report a refusal by the host and fail. -/
def refuse {α : Type} (failure : Failure) : Op Machine α := do
  Op.note (.imageFailed failure)
  Op.fail .io

/-- Fail unless the inode is the one that an image has. -/
def checkInode (ino : UInt32) : Op Machine Unit :=
  unless ino = 0 do Op.fail (.noInode ino 1)

/-- The number of whole blocks of the file, as a word. -/
def blockCount (image : Image) : Op Machine UInt32 := do
  return UInt32.ofNat ((← get).directory.length image.opened / 512)

/-- Change the file. -/
def alter (image : Image) (f : File → File) : Op Machine Unit :=
  match image.opened with
  | .file name => modify (Machine.onDirectory (Directory.alter name f))
  | .folder => return ()

/-- The file as a store. -/
def store (image : Image) : Store Machine
  | .capacity => return 1
  | .size ino => do
    checkInode ino
    image.blockCount
  | .resize ino blocks => do
    checkInode ino
    let before ← image.blockCount
    if image.access = .readOnly then
      refuse .invalidArgument
    image.alter fun file => file.setLength (512 * blocks.toNat)
    return before
  | .read a => do
    checkInode a.ino
    let size ← image.blockCount
    if size ≤ a.offset then
      Op.fail (.pastEnd a.ino a.offset size)
    if image.access = .writeOnly then
      refuse .badDescriptor
    match (← get).directory.fileOf image.opened with
    | .ok file => return file.blockAt a.offset.toNat
    | .error failure => refuse failure
  | .write a block => do
    checkInode a.ino
    if image.access = .readOnly then
      refuse .badDescriptor
    image.alter fun file => file.putBlock a.offset.toNat block
  | .sync ino => checkInode ino

/-- Open a path that leads to something. -/
def open_ (path : String) (access : Access) : Op Machine (Except Failure Image) := do
  match (← get).directory.find (access ≠ .readOnly) path with
  | .error failure => return .error failure
  | .ok opened => return .ok ⟨opened, access⟩

/-- The file system of every image. -/
def volume : Fat.Volume := ⟨0⟩

/-- Open the file of a path, which need not exist, give it a length if
it has none, and make sure that it holds a file system. -/
def openVolume (path : String) (length : Nat) (files : UInt32) :
    Op Machine (Except Failure Image) := do
  match (← get).directory.create path with
  | .error failure => return .error failure
  | .ok (file, directory) => do
    -- A new file stays, empty or not, whatever is refused after this.
    modify (Machine.onDirectory fun _ => directory)
    let image : Image := ⟨.file file, .readWrite⟩
    if ((← get).directory.get file).length = 0 then
      if lengthLimit < length then
        return .error .lengthOverflow
      image.alter fun file => file.setLength length
    volume.format image.store files
    return .ok image

end Image

end BlockLayers
