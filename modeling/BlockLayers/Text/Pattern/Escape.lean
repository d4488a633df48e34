import BlockLayers.Text.Pattern.Reading

/-!
# `BlockLayers.Text.Pattern.Escape`: what stands behind a backslash

A backslash takes the meaning from a mark, or gives one to a letter: a
control character (`\n`), a character by its number in base sixteen
(`\x41`, `\x{41}`, `\u0041`), a class (`\d`), or a condition (`\A`,
`\z`, `\b`). A `Mark` is what such an escape, or a character alone,
stands for. Letters and digits without a meaning are refused.
-/

set_option autoImplicit false

namespace BlockLayers.Text.Pattern

/-- A character by its number, if there is one with that number. -/
def charOf (n : Nat) : Reading Char :=
  if n.isValidChar then return Char.ofNat n else failure

/-- The value of a digit in base sixteen. -/
def hexValue? (c : Char) : Option Nat :=
  if c.isDigit then some (c.toNat - 48)
  else if 'a' ≤ c ∧ c ≤ 'f' then some (c.toNat - 87)
  else if 'A' ≤ c ∧ c ≤ 'F' then some (c.toNat - 55)
  else none

/-- Read a digit in base sixteen. -/
def readHexDigit : Reading Nat := do
  let digit ← liftM ((← peek).bind hexValue?)
  advance
  return digit

/-- Read as many digits as there have to be, behind a value. -/
def readHexFixed : Nat → Nat → Reading Nat
  | 0, value => return value
  | count + 1, value => do readHexFixed count (16 * value + (← readHexDigit))

/-- Read digits up to a closing brace, behind a value. -/
def readHexBraced : Nat → Nat → Reading Nat
  | 0, _ => failure
  | fuel + 1, value => do
    if (← peek) = some '\x7d' then do
      advance
      return value
    else readHexBraced fuel (16 * value + (← readHexDigit))

/-- Read the number of a character, in braces or with so many digits.
Also tells whether it stood without braces. -/
def readHex (count : Nat) : Reading (Nat × Bool) := do
  advance
  if (← peek) = some '\x7b' then do
    advance
    -- There has to be one digit at least.
    let first ← readHexDigit
    return (← readHexBraced ((← get).rest.length + 1) first, false)
  else return (← readHexFixed count 0, true)

/-- What a single character or an escape stands for. -/
inductive Mark where
  /-- A character; `byte` if it was given as the number of a byte. -/
  | char (c : Char) (byte : Bool)
  /-- A set of characters. -/
  | set (s : Charset)
  /-- A condition. -/
  | boundary (b : Boundary)

/-- Whether a character is one of the name of a kind of word edge. -/
def isEdgeName (c : Char) : Bool := c.isAlpha || c = '-'

/-- Read the name of a kind of word edge. -/
def readEdgeName : Nat → Reading (List Char)
  | 0 => return []
  | fuel + 1 => do
    match ← peek with
    | some c =>
      if isEdgeName c then do
        advance
        return c :: (← readEdgeName fuel)
      else return []
    | none => return []

/-- Read which kind of word edge is meant, behind the letter. A brace
that does not start with a name starts a count. -/
def readEdge : Reading Boundary := do
  let start ← get
  if start.rest.head? ≠ some '\x7b' then return .wordEdge
  else do
    advance
    match ← peek with
    | none => failure
    | some c =>
      if isEdgeName c then do
        let name ← readEdgeName ((← get).rest.length)
        expect '\x7d'
        match String.ofList name with
        | "start" => return .wordStart
        | "end" => return .wordEnd
        | "start-half" => return .wordStartHalf
        | "end-half" => return .wordEndHalf
        | _ => failure
      else do
        set start
        return .wordEdge

/-- The set of a letter behind a backslash. -/
def classOf? : Char → Option Charset
  | 'd' => some Charset.digits
  | 's' => some Charset.spaces
  | 'w' => some Charset.wordChars
  | _ => none

/-- The control character of a letter behind a backslash. -/
def controlOf? : Char → Option Char
  | 'a' => some '\x07'
  | 'f' => some '\x0c'
  | 't' => some '\t'
  | 'n' => some '\n'
  | 'r' => some '\r'
  | 'v' => some '\x0b'
  | _ => none

/-- Whether a backslash in front of a character leaves the character. -/
def isPlainEscape (c : Char) : Bool :=
  c.toNat < 128 && !c.isAlphanum && c ≠ '<' && c ≠ '>'

/-- A condition on words; there is one for ASCII alone. -/
def narrowOnly (b : Reading Boundary) : Reading Mark := do
  guard (!(← get).manner.wide)
  return .boundary (← b)

/-- Read what stands behind a backslash. -/
def readEscape : Reading Mark := do
  skip
  match ← peek with
  | none => failure
  | some 'x' => do
    let (n, byte) ← readHex 2
    return .char (← charOf n) byte
  | some 'u' => do
    let (n, _) ← readHex 4
    return .char (← charOf n) false
  | some 'U' => do
    let (n, _) ← readHex 8
    return .char (← charOf n) false
  | some c => do
    skip
    if isPlainEscape c then return .char c false
    else
      match controlOf? c, classOf? c with
      | some control, _ => return .char control false
      | none, some set => do
        guard (!(← get).manner.wide)
        return .set set
      | none, none =>
        match c with
        | 'A' => return .boundary .textStart
        | 'z' => return .boundary .textEnd
        | 'b' => narrowOnly readEdge
        | 'B' => narrowOnly (return .noWordEdge)
        | '<' => narrowOnly (return .wordStart)
        | '>' => narrowOnly (return .wordEnd)
        | _ => failure

end BlockLayers.Text.Pattern
