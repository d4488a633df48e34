/-!
# `BlockLayers.Host.Failure`: why the host refuses a file operation

Images and input files live in the file system of the host, which
refuses an operation for reasons of its own. A `Failure` is such a
reason. It has a number and a wording, which `Failure.message` joins,
a kind, and a long form `Failure.describe` that shows all three.
-/

set_option autoImplicit false

namespace BlockLayers.Host

/-- Why the host refuses an operation on a file. -/
inductive Failure where
  /-- The path, or a directory on it, does not exist. -/
  | notFound
  /-- The file was not opened for this kind of access. -/
  | badDescriptor
  /-- A path goes on behind a file that is no directory. -/
  | notADirectory
  /-- A directory stands where a file is needed. -/
  | isADirectory
  /-- A file that is open for reading alone cannot change its length. -/
  | invalidArgument
  /-- A name has more bytes than the host allows. -/
  | nameTooLong
  /-- A name holds the character with the number zero. -/
  | zeroInName
  /-- A length that the host cannot count. -/
  | lengthOverflow
  deriving DecidableEq, Repr

namespace Failure

/-- The kind of failure. -/
def kind : Failure → String
  | .notFound => "NotFound"
  | .badDescriptor => "Uncategorized"
  | .notADirectory => "NotADirectory"
  | .isADirectory => "IsADirectory"
  | .invalidArgument | .zeroInName | .lengthOverflow => "InvalidInput"
  | .nameTooLong => "InvalidFilename"

/-- The host's number for the failure. What is refused before the host
is asked has none. -/
def code? : Failure → Option Nat
  | .notFound => some 2
  | .badDescriptor => some 9
  | .notADirectory => some 20
  | .isADirectory => some 21
  | .invalidArgument => some 22
  | .nameTooLong => some 36
  | .zeroInName | .lengthOverflow => none

/-- The host's words for the failure. -/
def reason : Failure → String
  | .notFound => "No such file or directory"
  | .badDescriptor => "Bad file descriptor"
  | .notADirectory => "Not a directory"
  | .isADirectory => "Is a directory"
  | .invalidArgument => "Invalid argument"
  | .nameTooLong => "File name too long"
  | .zeroInName => "file name contained an unexpected NUL byte"
  | .lengthOverflow => "out of range integral type conversion attempted"

/-- The sentence for a reader: the words and the number. -/
def message (failure : Failure) : String :=
  match failure.code? with
  | some code => s!"{failure.reason} (os error {code})"
  | none => failure.reason

/-- The failure with its number, kind and words. -/
def describe : Failure → String
  | .lengthOverflow =>
    "Custom \x7b kind: InvalidInput, error: TryFromIntError(PosOverflow) \x7d"
  | failure =>
    match failure.code? with
    | some code =>
      s!"Os \x7b code: {code}, kind: {failure.kind}, message: \"{failure.reason}\" \x7d"
    | none => s!"Error \x7b kind: {failure.kind}, message: \"{failure.reason}\" \x7d"

end Failure

end BlockLayers.Host
