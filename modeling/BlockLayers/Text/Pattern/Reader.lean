import BlockLayers.Text.Pattern.Bracket

/-!
# `BlockLayers.Text.Pattern.Reader`: patterns as they are written

    x        the character        .        any character but a line feed
    [a-z]    one of a set         [^a-z]   one that is not in the set
    pq       p and then q         p|q      p or q
    p*       any number of p      p+       at least one p
    p?       p or nothing         p{2,5}   from two to five p
    (p)      p as a whole         (?i:p)   p read in another manner
    ^  $     the ends of the text

`Pattern.read?` reads a whole text as a pattern, or refuses it. Groups
can have names, which are of no use here but must differ. What a group
turns on or off in its manner holds up to its end, also behind a bar.

A pattern that is nested too deeply or needs too much room is refused.
-/

set_option autoImplicit false

namespace BlockLayers.Text.Pattern

/-! ### Groups -/

/-- How a pair of parentheses starts. -/
inductive Opening where
  /-- A group, with the manner inside of it. -/
  | group (inside : Manner)
  /-- No group: another manner from here on. -/
  | change (manner : Manner)

/-- Read letters that turn the manner on and, behind a hyphen, off. The
text stands at the colon or parenthesis behind them afterwards. -/
def readLetters (off pending : Bool) (seen : List (Char × Bool)) :
    List Char → Option (List (Char × Bool) × List Char)
  | [] => none
  | c :: cs =>
    if c = ':' ∨ c = ')' then if pending then none else some (seen.reverse, c :: cs)
    else if c = '-' then if off then none else readLetters true true seen cs
    else if c ∈ ['i', 'm', 's', 'U', 'u', 'R', 'x'] ∧ !seen.any (·.1 = c) then
      readLetters off false ((c, !off) :: seen) cs
    else none

/-- Whether a character can be at some place of the name of a group. A
character beyond ASCII counts as a letter. -/
def isNameChar (first : Bool) (c : Char) : Bool :=
  c = '_' || c.isAlpha || 127 < c.toNat
    || (!first && (c.isDigit || c = '.' || c = '[' || c = ']'))

/-- Read the name of a group, which no other group has. -/
def readGroupName : Reading Unit := do
  let r ← get
  let name := r.rest.takeWhile (· ≠ '>')
  match name with
  | [] => failure
  | first :: others =>
    guard (isNameChar true first && others.all (isNameChar false))
    let name := String.ofList name
    guard (name ∉ r.names)
    set { r with rest := r.rest.dropWhile (· ≠ '>'), names := name :: r.names }
    expect '>'

/-- Read the start of a pair of parentheses. -/
def readOpening : Reading Opening := do
  advance
  let manner := (← get).manner
  for ahead in ["?=", "?!", "?<=", "?<!"] do
    guard (!(← skipText ahead))
  if (← skipText "?P<") || (← skipText "?<") then do
    readGroupName
    return .group manner
  else if ← skipText "?" then do
    let r ← get
    let (letters, rest) ← liftM (readLetters false false [] r.rest)
    let inside := letters.foldl (fun m (letter, on) => m.turn letter on) manner
    set { r with rest := rest.drop 1 }
    if rest.head? = some ':' then return .group inside
    else do
      guard (!letters.isEmpty)
      return .change inside
  else return .group manner

/-! ### Repetitions -/

/-- Read the digits in front of a text; blanks between them may mean
nothing. -/
def takeDigits (spaced : Bool) : List Char → List Char × List Char
  | [] => ([], [])
  | c :: cs =>
    if c.isDigit then
      let (digits, rest) := takeDigits spaced cs
      (c :: digits, rest)
    else if spaced && isBlank c then takeDigits spaced cs
    else ([], c :: cs)

/-- Read a number of at most 32 bits with the blanks around it. -/
def readNumber : Reading Nat := do
  let r ← get
  let (digits, rest) := takeDigits r.manner.spaced (r.rest.dropWhile isBlank)
  set { r with rest := rest.dropWhile isBlank }
  guard (!digits.isEmpty)
  let n := digits.foldl (fun n c => 10 * n + (c.toNat - 48)) 0
  guard (n < 4294967296)
  return n

/-- Read how often something is repeated, from the opening brace on. -/
def readCount : Reading (Nat × Option Nat) := do
  advance
  let least ← readNumber
  let most ← if (← peek) = some ',' then do
      advance
      if (← peek) = some '\x7d' then pure none else some <$> readNumber
    else pure (some least)
  expect '\x7d'
  skipBlanks
  -- A question mark only says which of several pieces is preferred.
  if (← peek) = some '?' then skip
  guard (most.all (least ≤ ·))
  return (least, most)

/-- Read how often something is repeated. -/
def readRepetition : Reading (Nat × Option Nat) := do
  let simple (least : Nat) (most : Option Nat) : Reading (Nat × Option Nat) := do
    skip
    if (← peek) = some '?' then skip
    return (least, most)
  match ← peek with
  | some '?' => simple 0 (some 1)
  | some '*' => simple 0 none
  | some '+' => simple 1 none
  | _ => readCount

/-! ### Patterns -/

/-- A pattern as it was written. -/
structure Piece where
  /-- The pattern. -/
  pattern : Pattern
  /-- How deeply it is nested. -/
  depth : Nat
  /-- Whether it can be repeated. -/
  repeatable : Bool

/-- The depth around some pieces. -/
def depthAround (pieces : List Piece) : Nat := 1 + (pieces.map Piece.depth).foldl max 0

/-- Pieces in a row, the last one first. -/
def rowOf : List Piece → Piece
  | [] => ⟨.nothing, 0, false⟩
  | [piece] => piece
  | last :: others =>
    ⟨others.foldl (fun rest piece => .row piece.pattern rest) last.pattern,
      depthAround (last :: others), true⟩

/-- Pieces to choose from, the last one first. -/
def choiceOf : List Piece → Piece
  | [] => ⟨.nothing, 0, false⟩
  | [piece] => piece
  | last :: others =>
    ⟨others.foldl (fun rest piece => .choice piece.pattern rest) last.pattern,
      depthAround (last :: others), true⟩

/-- The pattern of a single character. -/
def charPattern (c : Char) (byte : Bool) : Reading Pattern := do
  let manner := (← get).manner
  if manner.wide then do
    guard (!manner.anyCase)
    return .one (Charset.one c)
  else do
    -- A byte beyond ASCII is no character.
    guard (!byte || c.toNat < 128)
    return .one (if c.isAlpha then manner.dress (Charset.one c) else Charset.one c)

/-- The pattern of a dot. -/
def dotPattern : Reading Pattern := do
  let manner := (← get).manner
  guard manner.wide
  let ends := if manner.dotAll then .empty
    else if manner.loose then .union (Charset.one '\r') (Charset.one '\n')
    else Charset.one '\n'
  return .one (.outside ends)

/-- The condition of a mark for the start or the end. -/
def edgePattern (whole line loose : Boundary) : Reading Pattern := do
  let manner := (← get).manner
  return .boundary <|
    if manner.manyLines then if manner.loose then loose else line else whole

/-- Read a single character, a mark or a set. -/
def readOne : Reading Piece := do
  let plain (p : Pattern) : Piece := ⟨p, 0, true⟩
  match ← peek with
  | none => failure
  | some '[' => do
    let bracket ← readSet
    return ⟨.one bracket.set, bracket.depth, true⟩
  | some '.' => do
    skip
    return plain (← dotPattern)
  | some '^' => do
    skip
    return plain (← edgePattern .textStart .lineStart .looseLineStart)
  | some '$' => do
    skip
    return plain (← edgePattern .textEnd .lineEnd .looseLineEnd)
  | some '\\' =>
    match ← readEscape with
    | .char c byte => return plain (← charPattern c byte)
    | .set s => do return plain (.one ((← get).manner.dress s))
    | .boundary b => return plain (.boundary b)
  | some c => do
    skip
    return plain (← charPattern c false)

/-- Read up to a closing parenthesis or the end. `recent` holds the
pieces since the last bar and `branches` what stood before the bars, both
with the last one first. -/
def readPieces : Nat → List Piece → List Piece → Reading Piece
  | 0, _, _ => failure
  | fuel + 1, recent, branches => do
    skipBlanks
    match ← peek with
    | none | some ')' => return choiceOf (rowOf recent :: branches)
    | some '|' => do
      skip
      readPieces fuel [] (rowOf recent :: branches)
    | some '(' =>
      match ← readOpening with
      | .change manner => do
        modify fun r => { r with manner }
        readPieces fuel (⟨.nothing, 0, false⟩ :: recent) branches
      | .group inside => do
        let outside := (← get).manner
        modify fun r => { r with manner := inside }
        let inner ← readPieces fuel [] []
        -- What is changed in a group holds up to its end.
        modify fun r => { r with manner := outside }
        expect ')'
        readPieces fuel (⟨inner.pattern, inner.depth + 1, true⟩ :: recent) branches
    | some c =>
      if c ∈ ['?', '*', '+', '\x7b'] then
        match recent with
        | [] => failure
        | piece :: recent => do
          guard piece.repeatable
          let (least, most) ← readRepetition
          let repeated := Pattern.repeated piece.pattern least most
          readPieces fuel (⟨repeated, piece.depth + 1, true⟩ :: recent) branches
      else do
        let piece ← readOne
        readPieces fuel (piece :: recent) branches

/-- How deeply a pattern can be nested. -/
def depthLimit : Nat := 250

/-- The most room that a pattern can take, in bytes. -/
def weightLimit : Nat := 0xA00000

/-- Read a text as a pattern. -/
def read? (text : String) : Option Pattern := do
  let chars := text.toList
  let (piece, reader) ← (readPieces (chars.length + 1) [] []).run ⟨chars, Manner.start, []⟩
  guard (reader.rest.isEmpty)
  guard (piece.depth ≤ depthLimit)
  guard (piece.pattern.weight ≤ weightLimit)
  return piece.pattern

end BlockLayers.Text.Pattern
