import BlockLayers.Cache

/-!
# `BlockLayers.Command.Arguments`: the words on the command line

    --image PATH | -i PATH    an image, once for each mirror member
    --input PATH              the file to copy in
    --size-mib N              the size of a new image (4)
    --inodes N                the number of files of a new image (64)
    --cache-blocks N          the slots of each cache (64)
    --ino N                   the file that receives the copy (0)
    --write-through           write at once instead of on a sync
    --help | -h               ask for help

A value stands behind its option as a word of its own or after an equals
sign, and directly behind a short option. A word of its own that starts
with a hyphen is not a value, unless it is a hyphen alone. Every option
except `--image` may stand once. Words are read from left to right and
the first one that does not fit decides, so help is given only when
everything before it fits.
-/

set_option autoImplicit false

namespace BlockLayers.Command

/-- What the command line asks for. -/
structure Settings where
  /-- The paths of the images, one for each mirror member. -/
  images : List String
  /-- The size of a new image, in units of 2^20 bytes. -/
  sizeMib : Nat
  /-- The number of files of a new image. -/
  files : UInt32
  /-- The number of slots of each cache. -/
  slots : Nat
  /-- When a written block goes to its image. -/
  policy : Cache.Policy
  /-- The file that receives the copy. -/
  ino : UInt32
  /-- The path of the file to copy in. -/
  input : String
  deriving DecidableEq, Repr

/-- Why there are no settings. -/
inductive Unfit where
  /-- Help was asked for. -/
  | help
  /-- The words do not fit. -/
  | misuse
  deriving DecidableEq, Repr

/-- An option that takes a value. -/
inductive Valued where
  | image
  | sizeMib
  | inodes
  | cacheBlocks
  | ino
  | input
  deriving DecidableEq, Repr

/-- The option with a long name, if it takes a value. -/
def Valued.ofName? : String → Option Valued
  | "image" => some .image
  | "size-mib" => some .sizeMib
  | "inodes" => some .inodes
  | "cache-blocks" => some .cacheBlocks
  | "ino" => some .ino
  | "input" => some .input
  | _ => none

/-- The options read so far. -/
structure Draft where
  images : List String
  sizeMib : Option Nat
  files : Option UInt32
  slots : Option Nat
  writeThrough : Bool
  ino : Option UInt32
  input : Option String

/-- No option yet. -/
def Draft.start : Draft := ⟨[], none, none, none, false, none, none⟩

/-- The number that a string of decimal digits stands for. -/
def digits? (cs : List Char) : Option Nat :=
  if cs.isEmpty then none
  else cs.foldl
    (fun acc c => acc.bind fun n => if c.isDigit then some (10 * n + (c.toNat - 48)) else none)
    (some 0)

/-- A number of at most 64 bits, perhaps with a plus sign. -/
def count? (text : String) : Option Nat :=
  let read := match text.toList with
    | '+' :: cs => digits? cs
    | cs => digits? cs
  read.filter (· < 18446744073709551616)

/-- A number of at most 32 bits, perhaps with a sign. Only zero can have
a minus sign. -/
def word? (text : String) : Option UInt32 :=
  let read := match text.toList with
    | '+' :: cs => digits? cs
    | '-' :: cs => (digits? cs).filter (· = 0)
    | cs => digits? cs
  (read.filter (· < 4294967296)).map UInt32.ofNat

/-- A path; it has at least one character. -/
def path? (text : String) : Option String := if text = "" then none else some text

/-- The draft with one option more, if its value fits and the option may
stand here. -/
def Draft.set? (d : Draft) (option : Valued) (value : String) : Option Draft :=
  match option with
  | .image => do return { d with images := d.images ++ [← path? value] }
  | .sizeMib => do
    let n ← count? value
    if d.sizeMib.isSome then none else return { d with sizeMib := some n }
  | .inodes => do
    let n ← word? value
    if d.files.isSome then none else return { d with files := some n }
  | .cacheBlocks => do
    let n ← count? value
    if d.slots.isSome then none else return { d with slots := some n }
  | .ino => do
    let n ← word? value
    if d.ino.isSome then none else return { d with ino := some n }
  | .input => do
    let path ← path? value
    if d.input.isSome then none else return { d with input := some path }

/-- Whether a word of its own can be a value. -/
def isValue (word : String) : Bool := !word.startsWith "-" || word = "-"

/-- A word on the command line. -/
inductive Word where
  /-- An option with its value in the same word. -/
  | complete (option : Valued) (value : String)
  /-- An option whose value is the next word. -/
  | opening (option : Valued)
  /-- The option `--write-through`. -/
  | writeThrough
  /-- A request for help. -/
  | help
  /-- The end of the options. -/
  | separator
  /-- Anything else. -/
  | unknown
  deriving DecidableEq, Repr

/-- A word that starts with two hyphens, without them. -/
def Word.ofLong (text : List Char) : Word :=
  let name := String.ofList (text.takeWhile (· ≠ '='))
  match text.dropWhile (· ≠ '=') with
  | [] =>
    match Valued.ofName? name with
    | some option => .opening option
    | none => if name = "write-through" then .writeThrough
      else if name = "help" then .help
      else .unknown
  | _ :: value =>
    match Valued.ofName? name with
    | some option => .complete option (String.ofList value)
    | none => .unknown

/-- A word that starts with one hyphen, without it. -/
def Word.ofShort : List Char → Word
  | ['i'] => .opening .image
  | 'i' :: '=' :: value => .complete .image (String.ofList value)
  | 'i' :: value => .complete .image (String.ofList value)
  | 'h' :: _ => .help
  | _ => .unknown

/-- What a word on the command line is. -/
def Word.of (text : String) : Word :=
  match text.toList with
  | ['-', '-'] => .separator
  | '-' :: '-' :: rest => .ofLong rest
  | '-' :: rest => .ofShort rest
  | _ => .unknown

/-- Read words into a draft. -/
def readWords (d : Draft) : List String → Except Unfit Draft
  | [] => .ok d
  | word :: rest =>
    match Word.of word with
    | .complete option value =>
      match d.set? option value with
      | some d => readWords d rest
      | none => .error .misuse
    | .opening option =>
      match rest with
      | [] => .error .misuse
      -- The next word is the value; one that could be an option is none.
      | value :: rest =>
        if isValue value then
          match d.set? option value with
          | some d => readWords d rest
          | none => .error .misuse
        else .error .misuse
    | .writeThrough =>
      if d.writeThrough then .error .misuse else readWords { d with writeThrough := true } rest
    | .help => .error .help
    | .separator => if rest.isEmpty then .ok d else .error .misuse
    | .unknown => .error .misuse

/-- The settings that a list of words asks for. -/
def Settings.ofWords (words : List String) : Except Unfit Settings := do
  let d ← readWords Draft.start words
  match d.images, d.input with
  | [], _ | _, none => .error .misuse
  | images, some input =>
    return {
      images, input
      sizeMib := d.sizeMib.getD 4
      files := d.files.getD 64
      slots := d.slots.getD 64
      policy := if d.writeThrough then .writeThrough else .writeBack
      ino := d.ino.getD 0 }

end BlockLayers.Command
