/-!
# `BlockLayers.Text.Blank`: white space

The characters with the property `White_Space`, and text without them at
its ends. The set is larger than the ASCII one: it has the line and
paragraph separators and the spaces of other widths, the no-break space
among them (`isBlank_of_isWhitespace`).
-/

set_option autoImplicit false

namespace BlockLayers.Text

/-- Whether a character is white space. -/
def isBlank (c : Char) : Bool :=
  let n := c.toNat
  (9 ≤ n && n ≤ 13) || n = 0x20 || n = 0x85 || n = 0xA0 || n = 0x1680
    || (0x2000 ≤ n && n ≤ 0x200A) || n = 0x2028 || n = 0x2029 || n = 0x202F || n = 0x205F
    || n = 0x3000

/-- A text without the white space at its ends. -/
def trimBlank (s : String) : String :=
  let inner := s.toList.dropWhile isBlank
  String.ofList (inner.reverse.dropWhile isBlank).reverse

/-- The ASCII spaces, tabs and line ends are white space. -/
theorem isBlank_of_isWhitespace {c : Char} (h : c.isWhitespace = true) : isBlank c = true := by
  simp only [Char.isWhitespace, Bool.or_eq_true, decide_eq_true_eq] at h
  rcases h with ((h | h) | h) | h <;> subst h <;> decide

end BlockLayers.Text
