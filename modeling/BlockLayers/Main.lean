import BlockLayers.Command.Run

/-!
# `BlockLayers.Main`: the command line

Reads the files that the command may need into a directory value, runs
the command on it, writes the images back, and prints what the command
printed. Everything in between is `Command.run`.
-/

set_option autoImplicit false

namespace BlockLayers.Main

/-- The paths of the images that the words of the command line name. -/
def imagePaths (words : List String) : List String :=
  match Command.Settings.ofWords words with
  | .ok settings => settings.images
  | .error _ => []

/-- The paths that the words of the command line name. -/
def namedPaths (words : List String) : List String :=
  match Command.Settings.ofWords words with
  | .ok settings => settings.input :: settings.images
  | .error _ => []

/-- Whether a path leads to a directory. -/
def isFolder (path : String) : IO Bool := do
  try
    (← IO.FS.realPath path).isDir
  catch _ => return false

/-- The bytes of the file of a path, if it can be read. -/
def bytesAt (path : String) : IO (Option ByteArray) := do
  try
    return some (← IO.FS.readBinFile path)
  catch _ => return none

/-- The directory in which the given paths, as far as they exist, can be
found. -/
def readDirectory (paths : List String) : IO Host.Directory := do
  let mut directory := Host.Directory.empty
  for path in paths do
    let mut place := Host.Directory.Place.start path
    for name in Host.Directory.names path do
      place := place.go name
      if ← isFolder place.name then
        directory := { directory with folders := place.name :: directory.folders }
      else if let some bytes ← bytesAt place.name then
        directory := directory.put place.name (Host.File.ofBytes bytes.toList)
  return directory

/-- Write the files of the given paths, as far as they exist in the
directory. -/
def writeFiles (directory : Host.Directory) (paths : List String) : IO Unit := do
  for path in paths do
    if let .ok (.file name) := directory.find true path then
      IO.FS.writeBinFile name ⟨(directory.get name).content.toArray⟩

end BlockLayers.Main

open BlockLayers BlockLayers.Main in
/-- Run the command with the words of the command line. -/
def main (words : List String) : IO UInt32 := do
  let filter := Event.Filter.ofText ((← IO.getEnv "BLOCK_LAYERS_LOG").getD "")
  let directory ← readDirectory (namedPaths words)
  let (report, machine) := Command.run words (Host.Machine.start directory filter)
  writeFiles machine.directory (imagePaths words)
  IO.print report.printed
  for event in machine.log do
    IO.eprintln s!"[{event.level.text}] {event.text}"
  if let some complaint := report.complaint? then
    IO.eprintln complaint
  -- What has no exit code is told by the code of an abort.
  return UInt32.ofNat (report.ending.code.getD 134)
