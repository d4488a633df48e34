import BlockLayers.Text.Blank
import BlockLayers.Text.Pattern

/-!
# `BlockLayers.Text.Pattern.Reading`: reading what is left of a text

A written pattern is read from left to right. A `Reader` holds what is
left of it, the manner in which that is to be read, and the names that
groups have so far. A `Reading` goes on from there and yields something,
or refuses the pattern.

A `Manner` is what letters behind `(?` turn on and off: `i` for any
case, `m` for many lines, `s` for a dot that takes a line feed too, `R`
for lines that end with a carriage return, `x` for blanks that mean
nothing, and `u` for characters beyond ASCII. What needs a table of such
characters is refused while `u` is on: any case, the classes `\d`, `\s`,
`\w` and `\p`, and the edges of words. While it is off only ASCII can be
in a set.
-/

set_option autoImplicit false

namespace BlockLayers.Text

/-- How a pattern is to be read from some place on. -/
structure Pattern.Manner where
  /-- Letters stand for both cases. -/
  anyCase : Bool
  /-- The ends of lines count as ends. -/
  manyLines : Bool
  /-- The dot takes every character. -/
  dotAll : Bool
  /-- A carriage return ends a line. -/
  loose : Bool
  /-- There are characters beyond ASCII. -/
  wide : Bool
  /-- Blanks mean nothing, and a number sign starts a comment. -/
  spaced : Bool
  deriving DecidableEq, Repr

/-- What is left to read, and how. -/
structure Pattern.Reader where
  /-- The characters that are left. -/
  rest : List Char
  /-- How they are to be read. -/
  manner : Pattern.Manner
  /-- The names of the groups so far. -/
  names : List String

namespace Pattern

/-- The manner in which a pattern starts. -/
def Manner.start : Manner := ⟨false, false, false, false, true, false⟩

/-- The manner with one letter turned on or off. -/
def Manner.turn (m : Manner) (letter : Char) (on : Bool) : Manner :=
  match letter with
  | 'i' => { m with anyCase := on }
  | 'm' => { m with manyLines := on }
  | 's' => { m with dotAll := on }
  | 'R' => { m with loose := on }
  | 'u' => { m with wide := on }
  | 'x' => { m with spaced := on }
  -- The letter `U` only says which of several pieces is preferred.
  | _ => m

/-- Read something, or refuse the pattern. -/
abbrev Reading (α : Type) := StateT Reader Option α

/-- Read a text without its blanks and comments in front. -/
def visible (inComment : Bool) : List Char → List Char
  | [] => []
  | c :: cs =>
    if inComment then visible (c ≠ '\n') cs
    else if isBlank c then visible false cs
    else if c = '#' then visible true cs
    else c :: cs

/-- The next character, if there is one. -/
def peek : Reading (Option Char) := do return (← get).rest.head?

/-- Go behind the next character. -/
def skip : Reading Unit := modify fun r => { r with rest := r.rest.drop 1 }

/-- Go behind the blanks, where they mean nothing. -/
def skipBlanks : Reading Unit :=
  modify fun r => if r.manner.spaced then { r with rest := visible false r.rest } else r

/-- Go behind the next character and the blanks behind it. -/
def advance : Reading Unit := do
  skip
  skipBlanks

/-- Go behind a text, if it comes next. -/
def skipText (text : String) : Reading Bool := do
  let r ← get
  if text.toList.isPrefixOf r.rest then do
    set { r with rest := r.rest.drop text.length }
    return true
  else return false

/-- Go behind a character that has to come next. -/
def expect (c : Char) : Reading Unit := do
  guard ((← peek) = some c)
  skip

end Pattern

end BlockLayers.Text
