import BlockLayers.Event
import BlockLayers.Text.Pattern.Reader

/-!
# `BlockLayers.Event.Filter`: which events are kept

An `Event.Filter` decides which events a log keeps. It has directives, each
with a threshold for the events of some origins, and may have a pattern
that must occur in the text of an event. For an origin the directive
counts whose name is the longest start of it; a directive without a name
is about every origin. Where no directive is about an event, the event
is not kept.

`Filter.ofText` reads a filter:

    warn                        a threshold for all origins
    cache=debug,warn            another one for those that start so
    cache                       everything of those
    info/lost                   and the text matches a pattern

White space around a directive means nothing, and a directive that makes
no sense is left out. So is a pattern that makes no sense. Without any
directive the threshold is `error`.

Main statement: `level_passes_of_keeps` (what a filter keeps is within
the threshold of one of its directives).
-/

set_option autoImplicit false

namespace BlockLayers

/-- A threshold for some events. -/
structure Event.Filter.Directive where
  /-- How their origins start; without it, the directive is about all. -/
  origin : Option String
  /-- The least severe level that is kept, if any is. -/
  threshold : Option Level
  deriving DecidableEq, Repr

/-- A decision about which events are kept. -/
structure Event.Filter where
  /-- The directives; of two that are about an event the later counts. -/
  directives : List Event.Filter.Directive
  /-- What must occur in the text of an event, if anything must. -/
  pattern : Option Text.Pattern
  deriving DecidableEq, Repr

namespace Event.Filter

/-- The filter with a threshold for all events. -/
def upTo (threshold : Option Level) : Filter := ⟨[⟨none, threshold⟩], none⟩

/-- Whether a directive is about the events of an origin. -/
def Directive.isAbout (d : Directive) (origin : String) : Bool :=
  d.origin.all fun start => start.toList.isPrefixOf origin.toList

/-- Whether events of a level can be kept at all, whatever their origin
and text. -/
def reaches (f : Filter) (level : Level) : Bool :=
  f.directives.any fun d => level.passes d.threshold

/-- Whether the directives keep the events of an origin and a level. -/
def admits (f : Filter) (origin : String) (level : Level) : Bool :=
  match f.directives.reverse.find? (·.isAbout origin) with
  | some d => level.passes d.threshold
  | none => false

/-- Whether an event is kept. -/
def keeps (f : Filter) (event : Event) : Bool :=
  f.admits event.origin event.level && f.pattern.all (·.occursIn event.text)

/-- The threshold with a name, in any case of letters. -/
def threshold? (name : String) : Option (Option Level) :=
  match name.toLower with
  | "off" => some none
  | "error" => some (some .error)
  | "warn" => some (some .warn)
  | "info" => some (some .info)
  | "debug" => some (some .debug)
  | "trace" => some (some .trace)
  | _ => none

/-- Read a directive, if the text is one. -/
def Directive.ofText? (text : String) : Option Directive :=
  match text.splitOn "=" with
  | [word] =>
    match threshold? word with
    | some threshold => some ⟨none, threshold⟩
    -- A word that names no threshold names an origin.
    | none => some ⟨some word, some .trace⟩
  | [origin, word] =>
    let word := Text.trimBlank word
    if word = "" then some ⟨some origin, some .trace⟩
    else (threshold? word).map fun threshold => ⟨some origin, threshold⟩
  | _ => none

/-- The directives with one more; it takes the place of one for the same
origins. -/
def insert (ds : List Directive) (d : Directive) : List Directive :=
  if ds.any (·.origin = d.origin) then
    ds.map fun other => if other.origin = d.origin then d else other
  else ds ++ [d]

/-- The number of bytes in the name of a directive. -/
def Directive.length (d : Directive) : Nat :=
  match d.origin with
  | some start => start.utf8ByteSize
  | none => 0

/-- The directives of a text, those with longer names later. -/
def directivesOf (text : String) : List Directive :=
  let texts := (text.splitOn ",").map Text.trimBlank
  let found := (texts.filter (· ≠ "")).filterMap Directive.ofText?
  (found.foldl insert []).mergeSort fun a b => a.length ≤ b.length

/-- The filter with some directives, or with the threshold `error` if
there are none. -/
def ofDirectives (ds : List Directive) (pattern : Option Text.Pattern) : Filter :=
  ⟨if ds.isEmpty then [⟨none, some .error⟩] else ds, pattern⟩

/-- Read a filter. A text with two slashes is none, and says as little as
an empty one. -/
def ofText (text : String) : Filter :=
  match text.splitOn "/" with
  | [directives] => ofDirectives (directivesOf directives) none
  | [directives, pattern] => ofDirectives (directivesOf directives) (Text.Pattern.read? pattern)
  | _ => ofDirectives [] none

/-- An event that is kept has a level that some directive lets through. -/
theorem level_passes_of_keeps {f : Filter} {event : Event} (h : f.keeps event = true) :
    f.reaches event.level = true := by
  simp only [keeps, admits, Bool.and_eq_true] at h
  obtain ⟨h, -⟩ := h
  split at h
  · rename_i d hd
    have hmem := List.mem_of_find?_eq_some hd
    exact List.any_eq_true.mpr ⟨d, by simpa using hmem, h⟩
  · simp at h

end Event.Filter

end BlockLayers
