import BlockLayers.Proofs.Fat.Catalog
import BlockLayers.Proofs.Fat.Path

/-!
# `BlockLayers.Proofs.Fat.Turned`: chains that are turned around

A release turns the links of a chain around one by one, and it follows
the links that it has turned so far (`Turned.turn`). On a chain whose
entries are all different that makes no difference: the turned links
lead back along the chain to the free chain (`Turned.turn_trail`).

A chain that runs in a circle comes back to an entry whose link was
turned. From there the turned links lead back to the head of the chain,
and then the free chain is next (`Turned.turn_circle`). So such a chain
is left, and nothing that is seen on the way tells it from one that ends.
Where the free chain ends just when the last link is turned, the circle
passes for a chain with an end.

Main statement: `Turned.finishes_iff`. A number of turns arrives at the end
mark for two reasons: the chain has so many entries and ends, or it runs
in a circle and the count is that of the way into the circle, around it
and back, and along the free chain.
-/

set_option autoImplicit false

namespace BlockLayers.Fat

/-! ### Trails -/

/-- Following the links from `head` meets the entries in order and then
`stop`. The entries are different ones, and the table has room for each
of them. -/
structure Plan.Trail (p : Plan) (links : Link → Link) (head : Link) (entries : List Link)
    (stop : Link) : Prop where
  path : Path links head entries stop
  nodup : entries.Nodup
  hasEntry : ∀ entry ∈ entries, p.HasEntry entry

variable {p : Plan} {links links' : Link → Link} {head stop : Link} {entries : List Link}

namespace Plan.Trail

/-- A trail of no entries stops where it begins. -/
theorem nil (p : Plan) (links : Link → Link) (head : Link) : p.Trail links head [] head :=
  ⟨rfl, List.nodup_nil, nofun⟩

/-- The first part of a trail stops at an entry of the rest. -/
theorem take {before behind : List Link} (h : p.Trail links head (before ++ behind) stop)
    (hne : behind ≠ []) : ∃ mid, p.Trail links head before mid ∧ p.HasEntry mid := by
  obtain ⟨mid, hbefore, hbehind⟩ := path_append.mp h.path
  -- The link behind the first part is the first entry of the second.
  have hmid : mid ∈ behind := by
    cases behind with
    | nil => exact (hne rfl).elim
    | cons first rest => exact hbehind.1 ▸ List.mem_cons_self
  exact ⟨mid, ⟨hbefore, (List.nodup_append.mp h.nodup).1,
    fun entry hentry => h.hasEntry entry (List.mem_append_left _ hentry)⟩,
    h.hasEntry mid (List.mem_append_right _ hmid)⟩

/-- A trail goes on with an entry that it did not meet. -/
theorem concat (h : p.Trail links head entries stop) (hstop : p.HasEntry stop)
    (hnew : stop ∉ entries) : p.Trail links head (entries ++ [stop]) (links stop) where
  path := path_concat.mpr ⟨h.path, rfl⟩
  nodup := by
    refine List.nodup_append.mpr ⟨h.nodup, by simp, fun entry hentry other hother heq => hnew ?_⟩
    rwa [← List.mem_singleton.mp hother, ← heq]
  hasEntry entry hentry := (List.mem_append.mp hentry).elim (h.hasEntry entry)
    fun hmem => List.mem_singleton.mp hmem ▸ hstop

/-- Only the links of the entries on a trail matter. -/
theorem congr (h : p.Trail links head entries stop)
    (hsame : ∀ entry ∈ entries, links entry = links' entry) :
    p.Trail links' head entries stop := ⟨h.path.congr hsame, h.nodup, h.hasEntry⟩

end Plan.Trail

/-- The links behind a head can be followed for a number of steps without
meeting an entry twice, or before that they leave the table, or they come
back to an entry that was met. -/
theorem exists_trail (p : Plan) (links : Link → Link) (head : Link) (steps : Nat) :
    ∃ entries stop, p.Trail links head entries stop ∧ (entries.length = steps ∨
      entries.length < steps ∧ (¬ p.HasEntry stop ∨ stop ∈ entries)) := by
  -- By induction on the steps: a trail either goes on, or has a reason why it does not.
  induction steps with
  | zero => exact ⟨[], head, .nil p links head, .inl rfl⟩
  | succ steps ih =>
    obtain ⟨entries, stop, htrail, hlength | ⟨hlt, hwhy⟩⟩ := ih
    · by_cases hout : ¬ p.HasEntry stop ∨ stop ∈ entries
      · exact ⟨entries, stop, htrail, .inr ⟨by omega, hout⟩⟩
      · rw [not_or, not_not] at hout
        exact ⟨entries ++ [stop], links stop, htrail.concat hout.1 hout.2, .inl (by simp [hlength])⟩
    · exact ⟨entries, stop, htrail, .inr ⟨by omega, hwhy⟩⟩

/-! ### Turning links around -/

/-- A chain with some of its links turned around. -/
structure Turned where
  /-- The first entry whose link was not turned. -/
  rest : Link
  /-- The entry whose link was turned last. -/
  head : Link
  /-- The links. -/
  links : Link → Link

namespace Turned

/-- Turn a number of links around, of which each has to be the link of an
entry of the table. -/
def turn (p : Plan) : Nat → Turned → Option Turned
  | 0, t => some t
  | left + 1, t =>
    if p.HasEntry t.rest then
      turn p left ⟨t.links t.rest, t.rest, Function.update t.links t.rest t.head⟩
    else none

/-- The turns arrive at the end mark. -/
def Finishes (p : Plan) (count : Nat) (t : Turned) : Prop :=
  ∃ t', turn p count t = some t' ∧ t'.rest = Link.endMark

variable {t : Turned}

/-- Turned along a trail, the links lead back along it. No other link is
changed. -/
theorem turn_trail (h : p.Trail t.links t.rest entries stop) (more : Nat) :
    ∃ t', turn p (entries.length + more) t = turn p more t' ∧ t'.rest = stop ∧
      Path t'.links t'.head entries.reverse t.head ∧
      ∀ entry, entry ∉ entries → t'.links entry = t.links entry := by
  -- Each turn moves the first entry of the trail in front of what was turned before.
  induction entries generalizing t with
  | nil => exact ⟨t, by rw [List.length_nil, Nat.zero_add], h.path, rfl, fun _ _ => rfl⟩
  | cons first others ih =>
    obtain ⟨⟨rfl, hpath⟩, hnodup, hentries⟩ := h
    obtain ⟨hfirst, hothers⟩ := List.nodup_cons.mp hnodup
    have hrest : p.Trail (Function.update t.links t.rest t.head) (t.links t.rest) others stop :=
      ⟨hpath.update hfirst, hothers, fun entry hentry =>
        hentries entry (List.mem_cons_of_mem _ hentry)⟩
    obtain ⟨t', hturn, hstop, hback, hsame⟩ :=
      ih (t := ⟨t.links t.rest, t.rest, Function.update t.links t.rest t.head⟩) hrest
    refine ⟨t', ?_, hstop, ?_, fun entry hentry => ?_⟩
    · rw [List.length_cons, Nat.add_right_comm, turn, if_pos (hentries _ List.mem_cons_self), hturn]
    · rw [List.reverse_cons, path_concat]
      exact ⟨hback, (hsame _ hfirst).trans (Function.update_self ..)⟩
    · obtain ⟨hne, hnot⟩ := not_or.mp (mt List.mem_cons.mpr hentry)
      exact (hsame entry hnot).trans (Function.update_of_ne hne _ _)

/-- After fewer turns than there are entries the rest is one of them. -/
theorem hasEntry_of_turn (h : p.Trail t.links t.rest entries stop) {count : Nat}
    (hcount : count < entries.length) {t' : Turned} (hturn : turn p count t = some t') :
    p.HasEntry t'.rest := by
  have hne : entries.drop count ≠ [] := by simpa using hcount
  rw [← List.take_append_drop count entries] at h
  obtain ⟨mid, htake, hmid⟩ := h.take hne
  obtain ⟨t₁, hturned, hrest, -⟩ := turn_trail htake 0
  rw [List.length_take_of_le (Nat.le_of_lt hcount), Nat.add_zero, hturn, turn,
    Option.some.injEq] at hturned
  rw [hturned, hrest]
  exact hmid

/-- A chain that runs in a circle, with the free chain that is behind
it. -/
structure Circles (p : Plan) (t : Turned) (lead : List Link) (knot : Link)
    (loop : List Link) (free : List Link) : Prop where
  /-- The chain comes back to one of its entries. -/
  trail : p.Trail t.links t.rest (lead ++ knot :: loop) knot
  /-- The free chain ends. -/
  free : p.Trail t.links t.head free Link.endMark

/-- The number of turns that lead into a circle, around it and back, and
along the free chain. -/
def circuit (lead loop free : List Link) : Nat :=
  lead.length + 1 + loop.length + (lead.length + 1 + free.length)

/-- A chain that comes back to an entry is then followed back to its
head. -/
theorem turn_knot {lead : List Link} {knot : Link} {loop : List Link}
    (h : p.Trail t.links t.rest (lead ++ knot :: loop) knot) (more : Nat) :
    ∃ t', turn p (lead.length + 1 + loop.length + more) t = turn p more t' ∧
      p.Trail t'.links t'.rest (knot :: lead.reverse) t.head ∧
      Path t'.links t'.head loop.reverse knot ∧
      ∀ entry, entry ∉ lead ++ knot :: loop → t'.links entry = t.links entry := by
  obtain ⟨t', hturn, hrest, hback, hsame⟩ := turn_trail h more
  have hcount : (lead ++ knot :: loop).length = lead.length + 1 + loop.length := by
    rw [List.length_append, List.length_cons]
    omega
  have hreverse : (lead ++ knot :: loop).reverse = loop.reverse ++ (knot :: lead.reverse) := by
    simp
  rw [hcount] at hturn
  rw [hreverse] at hback
  -- The links lead back around the loop, and from the knot on along the way to it.
  obtain ⟨mid, hloop, hlead⟩ := path_append.mp hback
  obtain rfl : mid = knot := hlead.1
  have hnodup := (List.reverse_perm _).nodup_iff.mpr h.nodup
  rw [hreverse] at hnodup
  refine ⟨t', hturn, ⟨hrest ▸ hlead, (List.nodup_append.mp hnodup).2.1, fun entry hentry => ?_⟩,
    hloop, hsame⟩
  refine h.hasEntry entry (List.mem_reverse.mp ?_)
  rw [hreverse]
  exact List.mem_append_right _ hentry

/-- After the way into a circle, around it and back the free chain is
next. The links of the entries that were met lead to one another, and no
other link is changed. -/
theorem turn_circle {lead : List Link} {knot : Link} {loop : List Link}
    (h : p.Trail t.links t.rest (lead ++ knot :: loop) knot) (more : Nat) :
    ∃ t', turn p (lead.length + 1 + loop.length + (lead.length + 1 + more)) t = turn p more t' ∧
      t'.rest = t.head ∧ t'.head ∈ lead ++ knot :: loop ∧
      (∀ entry ∈ lead ++ knot :: loop, t'.links entry ∈ lead ++ knot :: loop) ∧
      ∀ entry, entry ∉ lead ++ knot :: loop → t'.links entry = t.links entry := by
  obtain ⟨t₁, hturn₁, htrail₁, hloop₁, hsame₁⟩ := turn_knot h (lead.length + 1 + more)
  obtain ⟨t', hturn, hrest, hback, hsame⟩ := turn_trail htrail₁ more
  rw [List.length_cons, List.length_reverse] at hturn
  -- The way back ends at the head, and the loop is left as the first turns made it.
  have hloop : ∀ {entry}, entry ∈ loop.reverse ∨ entry = knot → entry ∈ lead ++ knot :: loop := by
    rintro entry (hmem | rfl)
    · exact List.mem_append_right _ (List.mem_cons_of_mem _ (List.mem_reverse.mp hmem))
    · exact List.mem_append_right _ List.mem_cons_self
  have hlead : ∀ {entry}, entry ∈ (knot :: lead.reverse).reverse ∨ entry = t₁.head →
      entry ∈ lead ++ knot :: loop := by
    rintro entry (hmem | rfl)
    · rcases List.mem_cons.mp (List.mem_reverse.mp hmem) with rfl | hmem
      · exact hloop (.inr rfl)
      · exact List.mem_append_left _ (List.mem_reverse.mp hmem)
    · exact hloop hloop₁.head_mem
  refine ⟨t', hturn₁.trans hturn, hrest, hlead hback.head_mem, fun entry hentry => ?_,
    fun entry hentry => ?_⟩
  · by_cases hturned : entry ∈ knot :: lead.reverse
    · exact hlead (hback.link_mem entry (List.mem_reverse.mpr hturned))
    · rw [hsame entry hturned]
      refine hloop (hloop₁.link_mem entry ?_)
      simp only [List.mem_append, List.mem_cons, List.mem_reverse, not_or] at hentry hturned ⊢
      tauto
  · rw [hsame entry fun hmem => hentry (hlead (.inl (List.mem_reverse.mpr hmem))),
      hsame₁ entry hentry]

/-- The table has no entry for the end mark. -/
theorem not_hasEntry_endMark (hplaces : 128 * p.tableBlocks.toNat < 4294967296) :
    ¬ p.HasEntry Link.endMark := by
  intro hentry
  have hend := hentry.isEnd_eq_false hplaces
  rw [Link.isEnd_iff.mpr rfl] at hend
  cases hend

/-- The end mark is none of the entries that the table has. -/
theorem endMark_not_mem (hplaces : 128 * p.tableBlocks.toNat < 4294967296) {among : List Link}
    (hentries : ∀ entry ∈ among, p.HasEntry entry) : Link.endMark ∉ among :=
  fun hmem => not_hasEntry_endMark hplaces (hentries _ hmem)

/-- A free chain that ends does not meet a circle. -/
theorem Circles.apart (hplaces : 128 * p.tableBlocks.toNat < 4294967296) {lead : List Link}
    {knot : Link} {loop free : List Link} (h : t.Circles p lead knot loop free) :
    ∀ entry ∈ free, entry ∉ lead ++ knot :: loop := by
  refine h.free.path.not_mem (fun entry hentry => ?_) (endMark_not_mem hplaces h.trail.hasEntry)
  rcases h.trail.path.link_mem entry hentry with hmem | hknot
  · exact hmem
  · rw [hknot]
    exact List.mem_append_right _ List.mem_cons_self

/-- A chain that runs in a circle is turned around to the end of the free
chain. The links then run in a circle. -/
theorem Circles.turn_circuit (hplaces : 128 * p.tableBlocks.toNat < 4294967296)
    {lead : List Link} {knot : Link} {loop free : List Link}
    (h : t.Circles p lead knot loop free) :
    ∃ t', turn p (circuit lead loop free) t = some t' ∧ t'.rest = Link.endMark ∧
      ∀ entries, ¬ Path t'.links t'.head entries Link.endMark := by
  obtain ⟨t₁, hturn₁, hrest₁, hhead₁, hclosed₁, hsame₁⟩ := turn_circle h.trail free.length
  have hfree : p.Trail t₁.links t₁.rest free Link.endMark := by
    rw [hrest₁]
    exact h.free.congr fun entry hentry => (hsame₁ entry (h.apart hplaces entry hentry)).symm
  obtain ⟨t', hturn, hrest, hback, hsame⟩ := turn_trail hfree 0
  have hentries : ∀ entry ∈ free ++ (lead ++ knot :: loop), p.HasEntry entry := fun entry hentry =>
    (List.mem_append.mp hentry).elim (h.free.hasEntry entry) (h.trail.hasEntry entry)
  refine ⟨t', hturn₁.trans hturn, hrest, fun entries hpath => ?_⟩
  -- What was met is where the links stay: from the free chain they lead into the circle.
  refine endMark_not_mem hplaces hentries (hpath.stop_mem (fun entry hentry => ?_) ?_)
  · by_cases hmem : entry ∈ free
    · rcases hback.link_mem entry (List.mem_reverse.mpr hmem) with hlink | hlink
      · exact List.mem_append_left _ (List.mem_reverse.mp hlink)
      · rw [hlink]
        exact List.mem_append_right _ hhead₁
    · rw [hsame entry hmem]
      exact List.mem_append_right _ (hclosed₁ entry ((List.mem_append.mp hentry).resolve_left hmem))
  · rcases hback.head_mem with hhead | hhead
    · exact List.mem_append_left _ (List.mem_reverse.mp hhead)
    · exact hhead ▸ List.mem_append_right _ hhead₁

/-- Turns that arrive at the end mark were made along a chain that ends,
or along one that runs in a circle. -/
theorem Finishes.trail_or_circles (hplaces : 128 * p.tableBlocks.toNat < 4294967296) {count : Nat}
    (h : t.Finishes p count) :
    (∃ entries, p.Trail t.links t.rest entries Link.endMark ∧ entries.length = count) ∨
      ∃ lead knot loop free, t.Circles p lead knot loop free ∧ circuit lead loop free = count := by
  -- Behind a circle the turns start anew, along the free chain.
  induction count using Nat.strongRecOn generalizing t with
  | ind count ih =>
  obtain ⟨t', hturn, hend⟩ := h
  obtain ⟨entries, stop, htrail, hlength | ⟨hlt, hwhy⟩⟩ := exists_trail p t.links t.rest count
  · obtain ⟨t₁, hturn₁, hrest₁, -⟩ := turn_trail htrail 0
    rw [hlength, Nat.add_zero, hturn, turn, Option.some.injEq] at hturn₁
    rw [← hrest₁, ← hturn₁, hend] at htrail
    exact .inl ⟨entries, htrail, hlength⟩
  obtain ⟨more, rfl⟩ := Nat.exists_eq_add_of_lt hlt
  rcases hwhy with hout | hmem
  · obtain ⟨t₁, hturn₁, hrest₁, -⟩ := turn_trail htrail (more + 1)
    rw [Nat.add_assoc, hturn₁, turn, if_neg (hrest₁ ▸ hout)] at hturn
    cases hturn
  obtain ⟨lead, loop, rfl⟩ := List.append_of_mem hmem
  have hlength : (lead ++ stop :: loop).length = lead.length + 1 + loop.length := by
    rw [List.length_append, List.length_cons]
    omega
  rw [hlength, Nat.add_assoc] at hturn
  by_cases hback : more < lead.length
  · -- The turns end on the way back, at an entry.
    obtain ⟨t₁, hturn₁, htrail₁, -⟩ := turn_knot htrail (more + 1)
    rw [hturn₁] at hturn
    have hentry := hasEntry_of_turn htrail₁ (by simpa using hback) hturn
    exact (not_hasEntry_endMark hplaces (hend ▸ hentry)).elim
  · obtain ⟨left, rfl⟩ := Nat.exists_eq_add_of_le (Nat.le_of_not_lt hback)
    obtain ⟨t₁, hturn₁, hrest₁, hhead₁, hclosed₁, hsame₁⟩ := turn_circle htrail left
    rw [Nat.add_right_comm lead.length left 1, hturn₁] at hturn
    rcases ih left (by omega) ⟨t', hturn, hend⟩ with
      ⟨free, hfree, hcount⟩ | ⟨_, _, _, _, hcircles, -⟩
    · have hapart := hfree.path.not_mem hclosed₁ (endMark_not_mem hplaces htrail.hasEntry)
      rw [hrest₁] at hfree
      refine .inr ⟨lead, stop, loop, free, ⟨htrail, hfree.congr fun entry hentry =>
        hsame₁ entry (hapart entry hentry)⟩, ?_⟩
      rw [circuit, hcount, hlength]
      omega
    · -- What was turned before leads into the circle, and so it is no chain that ends.
      exact (endMark_not_mem hplaces htrail.hasEntry
        (hcircles.free.path.stop_mem hclosed₁ hhead₁)).elim

/-- A number of turns arrives at the end mark along a chain of that length
that ends, or on a circuit of that length, and for no other reason. -/
theorem finishes_iff (hplaces : 128 * p.tableBlocks.toNat < 4294967296) (count : Nat)
    (t : Turned) : t.Finishes p count ↔
      (∃ entries, p.Trail t.links t.rest entries Link.endMark ∧ entries.length = count) ∨
        ∃ lead knot loop free, t.Circles p lead knot loop free ∧
          circuit lead loop free = count := by
  refine ⟨Finishes.trail_or_circles hplaces, ?_⟩
  rintro (⟨entries, htrail, rfl⟩ | ⟨lead, knot, loop, free, hcircles, rfl⟩)
  · obtain ⟨t', hturn, hrest, -⟩ := turn_trail htrail 0
    exact ⟨t', hturn, hrest⟩
  · obtain ⟨t', hturn, hrest, -⟩ := hcircles.turn_circuit hplaces
    exact ⟨t', hturn, hrest⟩

end Turned

end BlockLayers.Fat
