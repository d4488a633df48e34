import BlockLayers.Text.Unprintable

/-!
# `BlockLayers.Text.Quoted`: text between double quotes

A quoted text shows a string so that its ends, its quotes and its
invisible characters can be told apart: a backslash and a double quote
follow a backslash, the common control characters have letters, and
every other character without a mark of its own is written by number.
-/

set_option autoImplicit false

namespace BlockLayers.Text

/-- The digits of a number in base sixteen, in lower case. -/
def hexDigits (n : Nat) : List Char :=
  Nat.toDigits 16 n

/-- One character as a quoted text shows it. -/
def escape (c : Char) : List Char :=
  if c = '\x00' then ['\\', '0']
  else if c = '\t' then ['\\', 't']
  else if c = '\n' then ['\\', 'n']
  else if c = '\r' then ['\\', 'r']
  else if c = '"' ∨ c = '\\' then ['\\', c]
  else if isUnprintable c then ['\\', 'u', '\x7b'] ++ hexDigits c.toNat ++ ['\x7d']
  else [c]

/-- A string between double quotes. -/
def quoted (s : String) : String :=
  String.ofList ('"' :: s.toList.flatMap escape ++ ['"'])

end BlockLayers.Text
