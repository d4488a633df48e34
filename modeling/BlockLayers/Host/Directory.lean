import BlockLayers.Host.Failure
import BlockLayers.Host.File
import Std.Data.HashMap

/-!
# `BlockLayers.Host.Directory`: what a path leads to

A `Directory` holds the files of a directory and of some directories
around it. A path is a list of names between slashes, and following it
leads from place to place: a single dot stays, two dots go up, and any
other name goes down. Every place on the way has to be a directory
(`Directory.follow`). At its end the path has a `Target`: a file, a
directory, or nothing yet, as long as something could be there.

A path that is opened for reading can lead to a directory as well as to
a file; one that is opened for writing leads to a file, and only one
that is opened for creating may lead to nothing yet (`Directory.find`,
`Directory.create`).
-/

set_option autoImplicit false

namespace BlockLayers.Host

/-- A directory of the host. -/
structure Directory where
  /-- The files, by the names of their places. -/
  files : Std.HashMap String File
  /-- The names of the places of the directories around this one. -/
  folders : List String

/-- What a path leads to. -/
inductive Target where
  /-- A directory. -/
  | folder
  /-- The file of a place. -/
  | file (name : String)
  /-- A place where nothing is. -/
  | vacant (name : String)
  deriving DecidableEq, Repr

/-- What an open path gives access to. -/
inductive Opened where
  /-- A directory. -/
  | folder
  /-- The file of a place. -/
  | file (name : String)
  deriving DecidableEq, Repr

namespace Directory

/-- A directory without files. -/
def empty : Directory := ⟨∅, []⟩

/-- A directory without files on a host that has the usual directories
at its root, and among its devices the file that is always empty. -/
def onHost : Directory where
  files := (∅ : Std.HashMap String File).insert "/dev/null" File.empty
  folders := ["/bin", "/boot", "/dev", "/etc", "/home", "/lib", "/mnt", "/opt", "/proc", "/root",
    "/run", "/sbin", "/srv", "/sys", "/tmp", "/usr", "/var"]

/-- The most bytes that a name can have. -/
def nameLimit : Nat := 255

/-- The most bytes that a path can have. -/
def pathLimit : Nat := 4095

/-- The number of bytes that a directory itself is said to have. -/
def folderLength : Nat := 4096

/-! ### Places -/

/-- A place is given by the names on the shortest way to it from the
directory, the last one first. The way from the root starts with an
empty name. -/
abbrev Place := List String

/-- The place of the root. -/
def Place.root : Place := [""]

/-- The place one level up. The root is its own. -/
def Place.up : Place → Place
  | [] => [".."]
  | [""] => [""]
  | ".." :: place => ".." :: ".." :: place
  | _ :: place => place

/-- Where a name leads from a place. -/
def Place.go (place : Place) (name : String) : Place :=
  if name = "." then place else if name = ".." then place.up else name :: place

/-- The name of a place, by which a file is kept. -/
def Place.name (place : Place) : String := "/".intercalate place.reverse

/-- The place at which a path starts. -/
def Place.start (path : String) : Place := if path.startsWith "/" then Place.root else []

/-- The names on a path. -/
def names (path : String) : List String := (path.splitOn "/").filter (· ≠ "")

/-- Whether a place is a directory. The directory itself is one, and so
are those that it is in and the root. -/
def isFolder (d : Directory) (place : Place) : Bool :=
  place.all (· = "..") || place = Place.root || place.name ∈ d.folders

/-- The place to which names lead, if each of them leads to a
directory. -/
def follow (d : Directory) (here : Place) : List String → Except Failure Place
  | [] => .ok here
  | name :: rest =>
    let next := here.go name
    if nameLimit < name.utf8ByteSize then .error .nameTooLong
    else if d.isFolder next then d.follow next rest
    else if d.files.contains next.name then .error .notADirectory
    else .error .notFound

/-! ### Opening -/

/-- What the last name on a path leads to. `slash` says that a slash
stands behind it, and `creating` that a file may come to be there. -/
def last (d : Directory) (creating slash : Bool) (here : Place) (name : String) :
    Except Failure Target :=
  let next := here.go name
  if name = "." ∨ name = ".." then .ok .folder
  -- Nothing that could be created has a slash behind its name.
  else if creating ∧ slash then .error .isADirectory
  else if nameLimit < name.utf8ByteSize then .error .nameTooLong
  else if d.isFolder next then .ok .folder
  else if !d.files.contains next.name then .ok (.vacant next.name)
  else if slash then .error .notADirectory
  else .ok (.file next.name)

/-- What a path leads to. `creating` says that a file may come to be
there. -/
def target (d : Directory) (creating : Bool) (path : String) : Except Failure Target :=
  if path.toList.contains '\x00' then .error .zeroInName
  else if pathLimit < path.utf8ByteSize then .error .nameTooLong
  else if path = "" then .error .notFound
  else
    match (names path).getLast? with
    -- Slashes alone lead to the root.
    | none => .ok .folder
    | some name => do
      let here ← d.follow (Place.start path) (names path).dropLast
      d.last creating (path.endsWith "/") here name

/-- Open a path that leads to something. -/
def find (d : Directory) (writing : Bool) (path : String) : Except Failure Opened := do
  match ← d.target false path with
  | .folder => if writing then throw .isADirectory else return .folder
  | .file name => return .file name
  | .vacant _ => throw .notFound

/-- The file with a kept name; one that is not there has no bytes. -/
def get (d : Directory) (name : String) : File := d.files.getD name File.empty

/-- The directory after a change to the file with a kept name. -/
def alter (name : String) (f : File → File) (d : Directory) : Directory :=
  { d with files := d.files.modify name f }

/-- The directory with the given file under a kept name. -/
def put (name : String) (file : File) (d : Directory) : Directory :=
  { d with files := d.files.insert name file }

/-- The kept name of the file of a path and the directory in which that
file exists, empty if it is new. -/
def create (d : Directory) (path : String) : Except Failure (String × Directory) := do
  match ← d.target true path with
  | .folder => throw .isADirectory
  | .file name => return (name, d)
  | .vacant name => return (name, d.put name File.empty)

/-! ### What is open -/

/-- The number of bytes of what is open. -/
def length (d : Directory) : Opened → Nat
  | .folder => folderLength
  | .file name => (d.get name).length

/-- The file that is open. A directory has no bytes that could be
read. -/
def fileOf (d : Directory) : Opened → Except Failure File
  | .folder => .error .isADirectory
  | .file name => .ok (d.get name)

end Directory

end BlockLayers.Host
