import BlockLayers.Text.Pattern.Escape

/-!
# `BlockLayers.Text.Pattern.Bracket`: sets between brackets

Between brackets stand characters, ranges of them, classes, sets with
names (`[:alpha:]`) and sets in brackets of their own. A caret in front
means the complement. Two sets can be combined by `&&` (both), `--` (the
first alone) and `~~` (one of them, not both); all that stands before an
operator is its left side.

A closing bracket in front of all members stands for itself, and so do
hyphens there. `readSet` reads a set from its opening bracket on.
-/

set_option autoImplicit false

namespace BlockLayers.Text.Pattern

/-- A set and how deeply it is nested. -/
structure Bracket where
  /-- The set. -/
  set : Charset
  /-- How many brackets stand in each other. -/
  depth : Nat

/-- Read what stands for a character or a set between brackets. -/
def readMember : Reading Mark := do
  match ← peek with
  | none => failure
  | some '\\' => readEscape
  | some c => do
    skip
    return .char c false

/-- The character of a mark that can be in a set. -/
def charIn : Mark → Reading Char
  | .char c _ => do
    guard ((← get).manner.wide || c.toNat < 128)
    return c
  | _ => failure

/-- The set of a mark. -/
def setIn : Mark → Reading Charset
  | .set s => return s
  | mark => do return Charset.one (← charIn mark)

/-- Whether a hyphen stands between two characters, by what comes behind
the hyphen. -/
def joins (spaced : Bool) (behind : List Char) : Bool :=
  let next := (if spaced then visible false behind else behind).head?
  next ≠ some ']' && next ≠ some '-'

/-- Read a character, a range or a class between brackets. -/
def readRange : Reading Charset := do
  let first ← readMember
  skipBlanks
  let r ← get
  match r.rest with
  | '-' :: behind =>
    if joins r.manner.spaced behind then do
      advance
      let first ← charIn first
      let last ← charIn (← readMember)
      guard (first.toNat ≤ last.toNat)
      return .span first last
    else setIn first
  | _ => setIn first

/-- The set with a name between colons, whether it is the complement
that is meant, and what comes behind it. -/
def namedSet? (text : List Char) : Option (Charset × Bool × List Char) := do
  match text with
  | ':' :: text =>
    let (negated, text) := match text with
      | '^' :: text => (true, text)
      | _ => (false, text)
    let name := text.takeWhile (· ≠ ':')
    match text.dropWhile (· ≠ ':') with
    | ':' :: ']' :: rest => return (← Charset.named? (String.ofList name), negated, rest)
    | _ => none
  | _ => none

/-- A set without regard to case, if the manner asks for that. -/
def Manner.dress (m : Manner) (s : Charset) : Charset := if m.anyCase then .anyCase s else s

/-- A finished set, or the complement of it. -/
def finishSet (negated : Bool) (s : Charset) : Reading Charset := do
  let manner := (← get).manner
  if manner.wide then do
    guard (!manner.anyCase)
    return if negated then .outside s else s
  else do
    guard (!negated)
    return manner.dress s

/-- Read hyphens that stand in front of a set, and count them. -/
def readHyphens : Nat → Reading Nat
  | 0 => return 0
  | fuel + 1 => do
    if (← peek) = some '-' then do
      advance
      return (← readHyphens fuel) + 1
    else return 0

/-- Read the start of a set: whether the complement is meant, and the
hyphens or the closing bracket that stand for themselves. -/
def openSet : Reading (Bool × Charset) := do
  advance
  let negated := (← peek) = some '^'
  if negated then advance
  let hyphens ← readHyphens ((← get).rest.length)
  if 0 < hyphens then return (negated, Charset.one '-')
  else if (← peek) = some ']' then do
    advance
    return (negated, Charset.one ']')
  else return (negated, .empty)

/-- Read the rest of a set. `combine` is what becomes of the members
behind the last operator, and `members` are those read so far. -/
def readMembers : Nat → (Charset → Charset) → Charset → Nat → Reading Bracket
  | 0, _, _, _ => failure
  | fuel + 1, combine, members, depth => do
    skipBlanks
    let r ← get
    let dress := r.manner.dress
    let operator (f : Charset → Charset → Charset) : Reading Bracket := do
      skip
      skip
      readMembers fuel (fun right => f (dress (combine members)) (dress right)) .empty depth
    match r.rest with
    | [] => failure
    | ']' :: rest => do
      set { r with rest }
      return ⟨combine members, depth + 1⟩
    | '&' :: '&' :: _ => operator .inter
    | '-' :: '-' :: _ => operator .diff
    | '~' :: '~' :: _ => operator Charset.symmDiff
    | '[' :: behind =>
      match namedSet? behind with
      | some (named, negated, rest) => do
        set { r with rest }
        let named ← finishSet negated named
        readMembers fuel combine (.union members named) depth
      | none => do
        let (negated, start) ← openSet
        let inner ← readMembers fuel id start 0
        let nested ← finishSet negated inner.set
        readMembers fuel combine (.union members nested) (max depth inner.depth)
    | _ => do
      let range ← readRange
      readMembers fuel combine (.union members range) depth

/-- Read a set from its opening bracket on. -/
def readSet : Reading Bracket := do
  let (negated, start) ← openSet
  let inner ← readMembers ((← get).rest.length + 1) id start 0
  return { inner with set := ← finishSet negated inner.set }

end BlockLayers.Text.Pattern
