import BlockLayers.Text.Charset

/-!
# `BlockLayers.Text.Pattern`: patterns of text

A `Pattern` describes pieces of text. A piece lies between two positions
of a text, and `Pattern.reach` is what a pattern means: from a set of
positions it gives the positions at which a piece that starts in the set
can end. Two patterns in a row are one `reach` after the other, a choice
is a union, and a repetition is an iteration, which comes to an end
because a text has only so many positions.

`Pattern.occursIn` asks whether a pattern describes any piece of a text.

Main statements: `mem_join` (a union has the positions of both sets) and
`mem_reach_choice` (a choice ends where one of its patterns ends).
-/

set_option autoImplicit false

namespace BlockLayers.Text

/-- A condition on a position, on the characters around it. -/
inductive Boundary where
  /-- The text starts here. -/
  | textStart
  /-- The text ends here. -/
  | textEnd
  /-- A line starts here; lines end with a line feed. -/
  | lineStart
  /-- A line ends here. -/
  | lineEnd
  /-- A line starts here; a carriage return alone ends a line too. -/
  | looseLineStart
  /-- A line ends here, where a carriage return alone ends one too. -/
  | looseLineEnd
  /-- A word starts or ends here. -/
  | wordEdge
  /-- No word starts or ends here. -/
  | noWordEdge
  /-- A word starts here. -/
  | wordStart
  /-- A word ends here. -/
  | wordEnd
  /-- No word goes on from before. -/
  | wordStartHalf
  /-- No word goes on from here. -/
  | wordEndHalf
  deriving DecidableEq, Repr

namespace Boundary

/-- Whether there is a character and it belongs to a word. -/
def isWord (c : Option Char) : Bool := c.any Charset.wordChars.holds

/-- Whether the condition holds between two characters; at an end of the
text one of them is missing. -/
def holds (b : Boundary) (before after : Option Char) : Bool :=
  match b with
  | .textStart => before.isNone
  | .textEnd => after.isNone
  | .lineStart => before.isNone || before = some '\n'
  | .lineEnd => after.isNone || after = some '\n'
  -- Between the two characters of one line end there is no line.
  | .looseLineStart => before.isNone || before = some '\n' ||
      (before = some '\r' && after ≠ some '\n')
  | .looseLineEnd => after.isNone || after = some '\r' ||
      (after = some '\n' && before ≠ some '\r')
  | .wordEdge => isWord before != isWord after
  | .noWordEdge => isWord before == isWord after
  | .wordStart => !isWord before && isWord after
  | .wordEnd => isWord before && !isWord after
  | .wordStartHalf => !isWord before
  | .wordEndHalf => !isWord after

end Boundary

/-- A pattern of text. -/
inductive Pattern where
  /-- The piece without characters. -/
  | nothing
  /-- One character of a set. -/
  | one (set : Charset)
  /-- The piece without characters, where a condition holds. -/
  | boundary (b : Boundary)
  /-- A piece of the first pattern and behind it one of the second. -/
  | row (p q : Pattern)
  /-- A piece of one pattern or of the other. -/
  | choice (p q : Pattern)
  /-- Pieces of a pattern one behind the other, `least` at least, and
  `most` at most if there is such a bound. -/
  | repeated (p : Pattern) (least : Nat) (most : Option Nat)
  deriving DecidableEq, Repr

namespace Pattern

/-- The positions of two sets. -/
def join (xs ys : List Nat) : List Nat := xs ++ ys.filter (· ∉ xs)

/-- Take a step a number of times. -/
def again (step : List Nat → List Nat) : Nat → List Nat → List Nat
  | 0, xs => xs
  | n + 1, xs =>
    let ys := step xs
    -- A set that stays the same stays so however often the step is taken.
    if ys = xs then xs else again step n ys

/-- Take a step at most a number of times. -/
def upTo (step : List Nat → List Nat) : Nat → List Nat → List Nat
  | 0, xs => xs
  | n + 1, xs =>
    let ys := join xs (step xs)
    if ys.length = xs.length then xs else upTo step n ys

/-- The position behind a character of a set. -/
def behind (text : Array Char) (set : Charset) (i : Nat) : Option Nat :=
  match text[i]? with
  | some c => if set.holds c then some (i + 1) else none
  | none => none

/-- The character in front of a position. -/
def before (text : Array Char) (i : Nat) : Option Char :=
  if i = 0 then none else text[i - 1]?

/-- The positions at which a piece that starts at one of the given
positions can end. -/
def reach (text : Array Char) : Pattern → List Nat → List Nat
  | .nothing, xs => xs
  | .one set, xs => xs.filterMap (behind text set)
  | .boundary b, xs => xs.filter fun i => b.holds (before text i) text[i]?
  | .row p q, xs => reach text q (reach text p xs)
  | .choice p q, xs => join (reach text p xs) (reach text q xs)
  | .repeated p least most, xs =>
    let ys := again (reach text p) least xs
    match most with
    | some most => upTo (reach text p) (most - least) ys
    -- After as many steps as there are positions no new one is found.
    | none => upTo (reach text p) (text.size + 1) ys

/-- Whether the pattern describes a piece of the text. -/
def occursIn (p : Pattern) (text : String) : Bool :=
  let chars := text.toList.toArray
  !(reach chars p (List.range (chars.size + 1))).isEmpty

/-- The room that the states of an automaton for the pattern take, in
bytes: 32 for a state and 8 for a transition by a range of bytes. A
character has a state for each of its bytes, and a set beyond ASCII has
one for each way in which the first bytes of its characters go on. -/
def weight : Pattern → Nat
  | .nothing | .boundary _ => 32
  | .one (.span first last) =>
    if first = last then 32 * first.utf8Size else if last.toNat < 128 then 72 else 424
  | .one set => if set.isAscii then 72 else 424
  | .row p q => p.weight + q.weight
  | .choice p q => p.weight + q.weight + 40
  | .repeated p least (some most) => least * p.weight + (most - least) * (p.weight + 40) + 32
  | .repeated p least none => max least 1 * p.weight + 64

/-- A union has the positions of both sets. -/
theorem mem_join (i : Nat) (xs ys : List Nat) : i ∈ join xs ys ↔ i ∈ xs ∨ i ∈ ys := by
  simp only [join, List.mem_append, List.mem_filter, decide_eq_true_eq]
  constructor
  · rintro (h | h)
    · exact Or.inl h
    · exact Or.inr h.1
  · rintro (h | h)
    · exact Or.inl h
    · by_cases hx : i ∈ xs
      · exact Or.inl hx
      · exact Or.inr ⟨h, hx⟩

/-- A choice ends where a piece of one of its patterns ends. -/
theorem mem_reach_choice (text : Array Char) (p q : Pattern) (xs : List Nat) (i : Nat) :
    i ∈ reach text (.choice p q) xs ↔ i ∈ reach text p xs ∨ i ∈ reach text q xs := by
  rw [reach, mem_join]

end Pattern

end BlockLayers.Text
