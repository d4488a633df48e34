/-!
# `BlockLayers.Text.Charset`: sets of characters

A pattern tells characters apart by sets. A `Charset` says how a set is
put together, from ranges of code points by union, difference and
complement, and `Charset.holds` is membership. `Charset.named?` has the
sets that have names of their own; all of them are sets of ASCII
characters.

Main statements: `holds_union`, `holds_outside` and `holds_anyCase` say
what the operations do to membership.
-/

set_option autoImplicit false

namespace BlockLayers.Text

/-- A set of characters. -/
inductive Charset where
  /-- No character. -/
  | empty
  /-- The characters from one code point to another. -/
  | span (first last : Char)
  /-- The characters of two sets. -/
  | union (a b : Charset)
  /-- The characters that two sets share. -/
  | inter (a b : Charset)
  /-- The characters of the first set that the second one lacks. -/
  | diff (a b : Charset)
  /-- The characters that a set lacks. -/
  | outside (a : Charset)
  /-- The characters of a set and the ASCII letters of the other case. -/
  | anyCase (a : Charset)
  deriving DecidableEq, Repr

namespace Charset

/-- An ASCII letter in the other case; every other character as it is. -/
def otherCase (c : Char) : Char :=
  if c.isUpper then c.toLower else if c.isLower then c.toUpper else c

/-- Whether a character is in a set. -/
def holds : Charset → Char → Bool
  | .empty, _ => false
  | .span first last, c => first.toNat ≤ c.toNat && c.toNat ≤ last.toNat
  | .union a b, c => a.holds c || b.holds c
  | .inter a b, c => a.holds c && b.holds c
  | .diff a b, c => a.holds c && !b.holds c
  | .outside a, c => !a.holds c
  | .anyCase a, c => a.holds c || a.holds (otherCase c)

/-- Whether a set was put together from ASCII characters alone. -/
def isAscii : Charset → Bool
  | .empty => true
  | .span _ last => last.toNat < 128
  | .union a b => a.isAscii && b.isAscii
  | .inter a b => a.isAscii || b.isAscii
  | .diff a _ => a.isAscii
  | .outside _ => false
  | .anyCase a => a.isAscii

/-- The set of one character. -/
def one (c : Char) : Charset := .span c c

/-- The characters that are in one of two sets, but not in both. -/
def symmDiff (a b : Charset) : Charset := .union (.diff a b) (.diff b a)

/-- The characters of a list of sets. -/
def ofList (sets : List Charset) : Charset := sets.foldl .union .empty

/-- Every character. -/
def all : Charset := .outside .empty

/-- The decimal digits. -/
def digits : Charset := .span '0' '9'

/-- The capital letters. -/
def capitals : Charset := .span 'A' 'Z'

/-- The small letters. -/
def smalls : Charset := .span 'a' 'z'

/-- The letters. -/
def letters : Charset := .union capitals smalls

/-- The letters and digits. -/
def alphanumerics : Charset := .union letters digits

/-- The letters, the digits and the low line. -/
def wordChars : Charset := .union alphanumerics (one '_')

/-- The space and the characters from tab to carriage return. -/
def spaces : Charset := .union (.span '\x09' '\x0d') (one ' ')

/-- The set of a name between brackets and colons. -/
def named? : String → Option Charset
  | "alnum" => some alphanumerics
  | "alpha" => some letters
  | "ascii" => some (.span '\x00' '\x7f')
  | "blank" => some (.union (one '\t') (one ' '))
  | "cntrl" => some (.union (.span '\x00' '\x1f') (one '\x7f'))
  | "digit" => some digits
  | "graph" => some (.span '!' '~')
  | "lower" => some smalls
  | "print" => some (.span ' ' '~')
  | "punct" => some (.diff (.span '!' '~') alphanumerics)
  | "space" => some spaces
  | "upper" => some capitals
  | "word" => some wordChars
  | "xdigit" => some (ofList [digits, .span 'A' 'F', .span 'a' 'f'])
  | _ => none

/-- A union has the characters of both sets. -/
theorem holds_union (a b : Charset) (c : Char) :
    (union a b).holds c = (a.holds c || b.holds c) := rfl

/-- A complement has the characters that the set lacks. -/
theorem holds_outside (a : Charset) (c : Char) : (outside a).holds c = !a.holds c := rfl

/-- A set without regard to case has a character when it has the
character in either case. -/
theorem holds_anyCase (a : Charset) (c : Char) :
    (anyCase a).holds c = (a.holds c || a.holds (otherCase c)) := rfl

end Charset

end BlockLayers.Text
