import BlockLayers.Fat.Link
import Mathlib.Data.List.Basic
import Mathlib.Logic.Function.Iterate

/-!
# `BlockLayers.Proofs.Fat.Path`: the entries on a chain

`Path next head entries stop` says that following the links `next` from
`head` meets exactly `entries`, in order, and then `stop`. A whole chain
is a path that stops at the end mark; the blocks of a file are a path
that may go on.

Main statements: `path_append` cuts a path in two, `path_concat` looks
at its last entry, `Path.congr` says that only the links of its own
entries matter, and `Path.unique` that there is one path from a head to
an end.
-/

set_option autoImplicit false

namespace BlockLayers.Fat

/-- Following the links from `head` meets the entries in order and then
`stop`. -/
def Path (next : Link → Link) : Link → List Link → Link → Prop
  | head, [], stop => head = stop
  | head, entry :: rest, stop => head = entry ∧ Path next (next entry) rest stop

variable {next next' : Link → Link}

/-- Only the links of the entries on a path matter. -/
theorem Path.congr {entries : List Link} {head stop : Link} (h : Path next head entries stop)
    (hsame : ∀ entry ∈ entries, next entry = next' entry) : Path next' head entries stop := by
  induction entries generalizing head with
  | nil => exact h
  | cons entry rest ih =>
    obtain ⟨hhead, hrest⟩ := h
    refine ⟨hhead, ih ?_ fun other hother => hsame other (List.mem_cons_of_mem _ hother)⟩
    rw [← hsame entry List.mem_cons_self]
    exact hrest

/-- The link of an entry that is not on a path may be changed. -/
theorem Path.update {entries : List Link} {head stop entry link : Link}
    (h : Path next head entries stop) (hentry : entry ∉ entries) :
    Path (Function.update next entry link) head entries stop :=
  -- An entry on the path is another one, so its link is the old one.
  h.congr fun other hother =>
    (Function.update_of_ne (fun heq => hentry (by rwa [← heq])) _ _).symm

/-- A path through two lists is a path through the first to where a path
through the second begins. -/
theorem path_append {first second : List Link} {head stop : Link} :
    Path next head (first ++ second) stop ↔
      ∃ mid, Path next head first mid ∧ Path next mid second stop := by
  -- By induction on the first list, with the place where it starts generalized.
  induction first generalizing head with
  | nil =>
    constructor
    · intro h
      exact ⟨head, rfl, h⟩
    · rintro ⟨mid, hhead, h⟩
      cases hhead
      exact h
  | cons entry rest ih =>
    constructor
    · rintro ⟨hhead, h⟩
      obtain ⟨mid, hfirst, hsecond⟩ := ih.mp h
      exact ⟨mid, ⟨hhead, hfirst⟩, hsecond⟩
    · rintro ⟨mid, ⟨hhead, hfirst⟩, hsecond⟩
      exact ⟨hhead, ih.mpr ⟨mid, hfirst, hsecond⟩⟩

/-- Where a path stops is where the link of its last entry leads. -/
theorem path_concat {entries : List Link} {head last stop : Link} :
    Path next head (entries ++ [last]) stop ↔ Path next head entries last ∧ next last = stop := by
  rw [path_append]
  constructor
  · rintro ⟨mid, hentries, hmid, hstop⟩
    cases hmid
    exact ⟨hentries, hstop⟩
  · rintro ⟨hentries, hstop⟩
    exact ⟨last, hentries, rfl, hstop⟩

/-- A path starts at its first entry, or stops at once. -/
theorem Path.head_eq {entries : List Link} {head stop : Link} (h : Path next head entries stop) :
    head = entries.headD stop := by
  cases entries with
  | nil => exact h
  | cons entry rest => exact h.1

/-- The entries on a path are those that following its links meets. -/
theorem Path.getElem?_eq {entries : List Link} {head stop : Link}
    (h : Path next head entries stop) {n : Nat} (hn : n < entries.length) :
    entries[n]? = some (next^[n] head) := by
  -- One link less is followed from the second entry on.
  induction entries generalizing head n with
  | nil => cases hn
  | cons entry rest ih =>
    obtain ⟨rfl, hrest⟩ := h
    cases n with
    | zero => rfl
    | succ n => exact ih hrest (Nat.lt_of_succ_lt_succ hn)

/-- A path that goes on starts at one of its entries. -/
theorem Path.head_ne {entries : List Link} {head stop link : Link}
    (h : Path next head entries stop) (hne : entries ≠ [])
    (hentries : ∀ entry ∈ entries, entry ≠ link) : head ≠ link := by
  cases entries with
  | nil => exact (hne rfl).elim
  | cons entry rest =>
    rw [h.1]
    exact hentries entry List.mem_cons_self

variable {head stop : Link} {entries : List Link}

/-- The link of an entry on a path leads to an entry on the path or to
where it stops. -/
theorem Path.link_mem (h : Path next head entries stop) :
    ∀ entry ∈ entries, next entry ∈ entries ∨ next entry = stop := by
  induction entries generalizing head with
  | nil => nofun
  | cons first rest ih =>
    obtain ⟨-, hrest⟩ := h
    intro entry hentry
    rcases List.mem_cons.mp hentry with rfl | hmem
    · -- The link of the first entry leads to the second, or to the stop if there is none.
      cases rest with
      | nil => exact .inr hrest
      | cons second rest => exact .inl (by simp [hrest.1])
    · exact (ih hrest entry hmem).imp_left (List.mem_cons_of_mem _)

/-- A path starts at one of its entries or where it stops. -/
theorem Path.head_mem (h : Path next head entries stop) : head ∈ entries ∨ head = stop := by
  cases entries with
  | nil => exact .inr h
  | cons first rest => exact .inl (h.1 ▸ List.mem_cons_self)

/-- A path that starts among entries whose links lead to one another does
not leave them. -/
theorem Path.stop_mem {among : Link → Prop} (hclosed : ∀ entry, among entry → among (next entry))
    (h : Path next head entries stop) (hhead : among head) : among stop := by
  induction entries generalizing head with
  | nil => exact h ▸ hhead
  | cons first rest ih =>
    obtain ⟨rfl, hrest⟩ := h
    exact ih hrest (hclosed _ hhead)

/-- From one head to one end there is only one path that does not come
by the end before. -/
theorem Path.unique {entries' : List Link} (h : Path next head entries stop)
    (h' : Path next head entries' stop) (hstop : stop ∉ entries) (hstop' : stop ∉ entries') :
    entries = entries' := by
  -- By induction on the first path; the two can only part where one of them ends.
  induction entries generalizing head entries' with
  | nil =>
    cases entries' with
    | nil => rfl
    | cons first' rest' =>
      obtain rfl : head = stop := h
      exact absurd (h'.1 ▸ List.mem_cons_self) hstop'
  | cons first rest ih =>
    obtain ⟨rfl, hrest⟩ := h
    cases entries' with
    | nil =>
      obtain rfl : head = stop := h'
      exact absurd List.mem_cons_self hstop
    | cons first' rest' =>
      obtain ⟨rfl, hrest'⟩ := h'
      rw [ih hrest hrest' (fun hmem => hstop (List.mem_cons_of_mem _ hmem))
        fun hmem => hstop' (List.mem_cons_of_mem _ hmem)]

/-- A path does not meet entries whose links lead to one another, unless
it stops there. -/
theorem Path.not_mem {among : Link → Prop} (hclosed : ∀ entry, among entry → among (next entry))
    (h : Path next head entries stop) (hstop : ¬ among stop) :
    ∀ entry ∈ entries, ¬ among entry := by
  intro entry hentry hamong
  -- From such an entry on the path stays among them, up to where it stops.
  obtain ⟨before, behind, rfl⟩ := List.append_of_mem hentry
  obtain ⟨_, -, rfl, hbehind⟩ := path_append.mp h
  exact hstop (hbehind.stop_mem hclosed (hclosed _ hamong))

end BlockLayers.Fat
