import BlockLayers.Fat.Cursor
import BlockLayers.Proofs.Below
import BlockLayers.Proofs.Fat.Catalog
import BlockLayers.Proofs.Fat.Path
import Mathlib.Data.List.Perm.Basic

/-!
# `BlockLayers.Proofs.Fat.Cursor`: what a cursor reads and writes

A cursor shows a table: the links on the medium, except where the cursor
keeps a block of its own. `Cursor.Shows` says which table that is and
that the cursor is on the right medium with the right sizes. Each
operation of a cursor is described by what it does to the table:
`next_ends` reads a link of it, `setNext_ends` changes one, and
`walk_passes` follows them as far as they lead (`Passes`), and
`flush_ends` makes the links of the medium those of the table. A flush
that fails half way leaves each link of the medium as it was or as the
table has it.

Main statements: `next_ends`, `setNext_ends`, `walk_passes` and
`flush_ends`.
-/

set_option autoImplicit false

namespace BlockLayers.Fat

/-- The tables can be read on a medium that they lie on. -/
theorem Plan.Spans.tables {σ : Type} [Journal σ] {below : Store σ} {p : Plan} {size : Nat}
    (spans : p.Spans size) {medium : UInt32} {blame : Fault → σ → Prop}
    {holds : σ → (Nat → Block) → Prop} (hL : Legible below medium size blame holds) :
    Discloses below medium (· < p.dataFrom) blame holds :=
  hL.toDiscloses.restrict spans.tables_lt

namespace Cursor

/-! ### The pages of a cursor -/

/-- Inserting a page puts it among the others. -/
theorem insertPage_perm (page : Page) (pages : List Page) :
    (insertPage page pages).Perm (page :: pages) := by
  induction pages with
  | nil => exact List.Perm.refl _
  | cons first rest ih =>
    unfold insertPage
    split
    · exact List.Perm.refl _
    · exact (ih.cons first).trans (List.Perm.swap page first rest)

/-- A cursor whose pages have different numbers finds a page under its
number. -/
theorem page?_of_mem {c : Cursor} (hdistinct : c.pages.Pairwise fun a b => a.index ≠ b.index)
    {page : Page} (hpage : page ∈ c.pages) : c.page? page.index = some page := by
  unfold page?
  generalize c.pages = pages at hdistinct hpage
  -- By induction on the pages: no page before it has the number.
  induction pages with
  | nil => cases hpage
  | cons first rest ih =>
    obtain ⟨hfirst, hrest⟩ := List.pairwise_cons.mp hdistinct
    rcases List.mem_cons.mp hpage with rfl | hmem
    · exact List.find?_cons_of_pos (by simp)
    · rw [List.find?_cons_of_neg (by simpa using hfirst page hmem)]
      exact ih hrest hmem

/-- What is found under a number is a page with that number. -/
theorem page?_eq_some {c : Cursor} {index : UInt32} {page : Page}
    (h : c.page? index = some page) : page ∈ c.pages ∧ page.index = index :=
  ⟨List.mem_of_find?_eq_some h, by simpa using List.find?_some h⟩

/-- A change to the page with a number is found under that number, and
all else is found as before. -/
theorem page?_alter (c : Cursor) (index other : UInt32) {f : Page → Page}
    (hf : ∀ page, (f page).index = page.index) :
    (c.alter index f).page? other =
      if other = index then (c.page? other).map f else c.page? other := by
  unfold page? alter
  -- The altered page keeps its number, so the search stops at the same page.
  induction c.pages with
  | nil => simp
  | cons first rest ih =>
    simp only [List.map_cons, List.find?_cons] at ih ⊢
    by_cases hfirst : first.index = index
    · by_cases hother : other = index
      · subst hother
        simp [hfirst, hf]
      · have hne : index ≠ other := fun h => hother h.symm
        simp only [hfirst, if_pos, hf, hne, decide_false, hother, if_false] at ih ⊢
        exact ih
    · by_cases hother : other = index
      · subst hother
        simp only [hfirst, if_false, decide_false, if_pos] at ih ⊢
        exact ih
      · simp only [hfirst, hother, if_false] at ih ⊢
        rw [ih]

/-! ### The table that a cursor shows -/

/-- A table block as the cursor sees it: the one it keeps, or the one on
the medium. -/
def seen (c : Cursor) (image : Nat → Block) (index : UInt32) : Block :=
  match c.page? index with
  | some page => page.block
  | none => image (c.start.toNat + index.toNat)

/-- The links as the cursor sees them. -/
def table (c : Cursor) (p : Plan) (image : Nat → Block) (entry : Link) : Link :=
  if p.HasEntry entry then linkAt (c.seen image entry.position.1) entry.position.2
  else Link.endMark

/-- The cursor is on the table of a medium that is divided by a plan,
its unchanged pages are those of the medium, and the links that it sees
are `links`. -/
structure Shows (c : Cursor) (medium : UInt32) (p : Plan) (image : Nat → Block)
    (links : Link → Link) : Prop where
  medium_eq : c.medium = medium
  start_eq : c.start.toNat = p.linksFrom
  capacity_eq : c.capacity.toNat = 128 * p.tableBlocks.toNat
  distinct : c.pages.Pairwise fun a b => a.index ≠ b.index
  inTable : ∀ page ∈ c.pages, page.index.toNat < p.tableBlocks.toNat
  kept : ∀ page ∈ c.pages, page.changed = false →
    page.block = image (p.linksFrom + page.index.toNat)
  table_eq : c.table p image = links

variable {c : Cursor} {medium : UInt32} {p : Plan} {image : Nat → Block} {links : Link → Link}

/-- A table block has the links of 128 entries. -/
theorem position_index_toNat (entry : Link) : entry.position.1.toNat = entry.word.toNat / 128 := by
  show (entry.word / 128).toNat = _
  rw [UInt32.toNat_div]
  rfl

/-- The link of an entry of the table is in a table block. -/
theorem position_index_lt {entry : Link} (h : p.HasEntry entry) :
    entry.position.1.toNat < p.tableBlocks.toNat := by
  rw [position_index_toNat]
  exact Nat.div_lt_of_lt_mul h

/-- What the cursor sees of an entry is the link in the table block that
it sees. -/
theorem Shows.link_seen (h : c.Shows medium p image links) {entry : Link}
    (hentry : p.HasEntry entry) :
    links entry = linkAt (c.seen image entry.position.1) entry.position.2 := by
  rw [← h.table_eq, table, if_pos hentry]

/-- The table is made of the table blocks that the cursor sees. -/
theorem table_congr {c c' : Cursor} {image image' : Nat → Block}
    (hseen : ∀ index : UInt32, index.toNat < p.tableBlocks.toNat →
      c'.seen image' index = c.seen image index) : c'.table p image' = c.table p image := by
  funext entry
  simp only [table]
  split
  · rw [hseen _ (position_index_lt ‹_›)]
  · rfl

/-- Only the table of the medium matters to a cursor. -/
theorem Shows.congr (h : c.Shows medium p image links) {image' : Nat → Block}
    (hsame : ∀ i < p.tableBlocks.toNat, image (p.linksFrom + i) = image' (p.linksFrom + i)) :
    c.Shows medium p image' links := by
  refine ⟨h.medium_eq, h.start_eq, h.capacity_eq, h.distinct, h.inTable, ?_, ?_⟩
  · intro page hpage hchanged
    rw [h.kept page hpage hchanged, hsame _ (h.inTable page hpage)]
  · rw [← h.table_eq]
    refine table_congr fun index hindex => ?_
    unfold seen
    split
    · rfl
    · rw [h.start_eq, hsame _ hindex]

/-- A cursor without changed pages sees the links of the medium. -/
theorem Shows.link_eq (h : c.Shows medium p image links)
    (hclean : ∀ page ∈ c.pages, page.changed = false) : (p.catalog image).link = links := by
  rw [← h.table_eq]
  funext entry
  simp only [Plan.catalog, table]
  split
  · congr 1
    rw [← position_index_toNat]
    unfold seen
    split
    · rename_i page hpage
      -- A page that is not changed is the block of the medium.
      obtain ⟨hmem, hindex⟩ := page?_eq_some hpage
      rw [h.kept page hmem (hclean page hmem), hindex]
    · rw [h.start_eq]
  · rfl

/-- A new cursor sees the links of the medium. -/
theorem open_shows {sb : Superblock} {size : Nat} (spans : p.Spans size)
    (hrecords : sb.recordBlocks = p.recordBlocks) (htable : sb.tableBlocks = p.tableBlocks) :
    ∃ c, open_ medium sb = .ok c ∧ c.Shows medium p image (p.catalog image).link := by
  have hsize := spans.size_eq
  have hlt := spans.size_lt
  have hplaces := spans.places_lt
  unfold Plan.dataFrom Plan.linksFrom at hsize
  -- On a medium that is divided no number of the tables overflows.
  have hstart : sb.tableStart = .ok (1 + p.recordBlocks) := by
    rw [Superblock.tableStart, hrecords, Checked.add_eq_ok_iff, UInt32.toNat_add,
      UInt32.toNat_one]
    omega
  have hcapacity : sb.tableCapacity = .ok (p.tableBlocks * 128) := by
    rw [Superblock.tableCapacity, htable, Checked.mul_eq_ok_iff, UInt32.toNat_mul,
      show (128 : UInt32).toNat = 128 from rfl]
    omega
  refine ⟨⟨medium, 1 + p.recordBlocks, p.tableBlocks * 128, []⟩, ?_, ?_⟩
  · rw [open_, hstart, hcapacity]
    rfl
  · have hstartNat : (1 + p.recordBlocks).toNat = p.linksFrom := by
      rw [UInt32.toNat_add, UInt32.toNat_one, Plan.linksFrom]
      omega
    refine ⟨rfl, hstartNat, ?_, List.Pairwise.nil, by simp, by simp, ?_⟩
    · rw [UInt32.toNat_mul, show (128 : UInt32).toNat = 128 from rfl]
      omega
    · funext entry
      simp only [Plan.catalog, table]
      split
      · rw [← position_index_toNat, ← hstartNat]
        rfl
      · rfl

/-- No page has a number under which none is found. -/
theorem index_ne_of_page? {index : UInt32} (h : c.page? index = none) :
    ∀ page ∈ c.pages, page.index ≠ index := by
  simpa [page?] using h

/-- A block read from the medium is seen as it was before. -/
theorem seen_keep {index : UInt32} (hnone : c.page? index = none) {block : Block}
    (hblock : block = image (c.start.toNat + index.toNat)) (other : UInt32) :
    (c.keep index block).seen image other = c.seen image other := by
  have hfind : (c.keep index block).page? other = _ :=
    find?_insertPage ⟨index, block, false⟩ c.pages other (index_ne_of_page? hnone)
  unfold seen
  rw [hfind]
  -- In the new page one sees the block of the medium, as one did before without it.
  by_cases heq : index = other
  · subst heq
    rw [if_pos rfl, hnone, hblock]
  · rw [if_neg heq]
    rfl

/-- A page written to the medium is seen as it was before. -/
theorem seen_written (hdistinct : c.pages.Pairwise fun a b => a.index ≠ b.index) {page : Page}
    (hpage : page ∈ c.pages) (other : UInt32) :
    (c.alter page.index fun kept => { kept with changed := false }).seen
        (Function.update image (c.start.toNat + page.index.toNat) page.block) other =
      c.seen image other := by
  have hfind := page?_alter c page.index other
    (f := fun kept => { kept with changed := false }) (fun _ => rfl)
  simp only [seen, hfind]
  by_cases hindex : other = page.index
  · rw [if_pos hindex, hindex, page?_of_mem hdistinct hpage]
    rfl
  · rw [if_neg hindex]
    split
    · rfl
    · have hne : other.toNat ≠ page.index.toNat := fun heq => hindex (UInt32.toNat_inj.mp heq)
      exact Function.update_of_ne
        (fun heq => hne (Nat.add_left_cancel (n := c.start.toNat) heq)) _ _

/-- A page read from the medium shows nothing new. -/
theorem Shows.keep (h : c.Shows medium p image links) {index : UInt32}
    (hindex : index.toNat < p.tableBlocks.toNat) (hnone : c.page? index = none) :
    (c.keep index (image (p.linksFrom + index.toNat))).Shows medium p image links := by
  -- The page is new to the cursor, so it is inserted and replaces none.
  have hnew := index_ne_of_page? hnone
  have hperm := insertPage_perm ⟨index, image (p.linksFrom + index.toNat), false⟩ c.pages
  have hmem : ∀ page, page ∈ (c.keep index (image (p.linksFrom + index.toNat))).pages →
      page = ⟨index, image (p.linksFrom + index.toNat), false⟩ ∨ page ∈ c.pages :=
    fun page hpage => List.mem_cons.mp (hperm.mem_iff.mp hpage)
  refine ⟨h.medium_eq, h.start_eq, h.capacity_eq, ?_, ?_, ?_, ?_⟩
  · refine (hperm.pairwise_iff fun hab => Ne.symm hab).mpr (List.pairwise_cons.mpr ⟨?_, h.distinct⟩)
    exact fun page hpage => (hnew page hpage).symm
  · intro page hpage
    rcases hmem page hpage with rfl | hold
    · exact hindex
    · exact h.inTable page hold
  · intro page hpage hchanged
    rcases hmem page hpage with rfl | hold
    · rfl
    · exact h.kept page hold hchanged
  · rw [← h.table_eq]
    exact table_congr fun other _ => seen_keep hnone (by rw [h.start_eq]) other

/-- A link that is set is read back. -/
theorem linkAt_setLink_self (block : Block) (place : Fin 128) (link : Link) :
    linkAt (setLink block place link) place = link := by
  simp only [linkAt, setLink, Block.word_setWord_self]

/-- The links at other places stay. -/
theorem linkAt_setLink_of_ne (block : Block) {place other : Fin 128} (link : Link)
    (h : other ≠ place) : linkAt (setLink block place link) other = linkAt block other := by
  simp only [linkAt, setLink, Block.word_setWord_of_ne _ _ h]

/-- What is known of the numbers of the pages is known of them after a
change to a page. -/
theorem pairwise_alter (r : UInt32 → UInt32 → Prop) {index : UInt32} {f : Page → Page}
    (hf : ∀ page, (f page).index = page.index)
    (h : c.pages.Pairwise fun a b => r a.index b.index) :
    (c.alter index f).pages.Pairwise fun a b => r a.index b.index := by
  have hindex : ∀ page : Page,
      (if page.index = index then f page else page).index = page.index := by
    intro page
    split
    · exact hf page
    · rfl
  exact List.pairwise_map.mpr (h.imp fun hab => by rwa [hindex, hindex])

/-- A link that is set in a kept page is the only one that the cursor
sees differently. -/
theorem Shows.setLink (h : c.Shows medium p image links) {entry link : Link} {block : Block}
    (hentry : p.HasEntry entry) {page : Page} (hpage : c.page? entry.position.1 = some page)
    (hblock : page.block = block) :
    (c.alter entry.position.1 fun page =>
      { page with block := setLink block entry.position.2 link, changed := true }).Shows medium p
        image (Function.update links entry link) := by
  refine ⟨h.medium_eq, h.start_eq, h.capacity_eq, pairwise_alter (· ≠ ·) (fun _ => rfl) h.distinct,
    ?_, ?_, ?_⟩
  · intro page' hpage'
    obtain ⟨old, hold, rfl⟩ := List.mem_map.mp hpage'
    split
    · exact h.inTable old hold
    · exact h.inTable old hold
  · intro page' hpage' hchanged
    obtain ⟨old, hold, rfl⟩ := List.mem_map.mp hpage'
    split at hchanged
    · cases hchanged
    · rename_i hne
      rw [if_neg hne]
      exact h.kept old hold hchanged
  · funext other
    have hfind := page?_alter c entry.position.1 other.position.1
      (f := fun page =>
        { page with block := Fat.setLink block entry.position.2 link, changed := true })
      (fun _ => rfl)
    by_cases hother : p.HasEntry other
    · simp only [table, if_pos hother, seen, hfind]
      -- Only links in the same page can change, and of those only the one at the same place.
      by_cases hindex : other.position.1 = entry.position.1
      · rw [if_pos hindex, hindex, hpage]
        by_cases hsame : other = entry
        · subst hsame
          simp only [Option.map_some, linkAt_setLink_self, Function.update_self]
        · have hplace : other.position.2 ≠ entry.position.2 := fun hplace =>
            hsame (Link.position_injective (Prod.ext hindex hplace))
          rw [Function.update_of_ne hsame, h.link_seen hother, hindex]
          simp only [Option.map_some, linkAt_setLink_of_ne _ _ hplace, seen, hpage, hblock]
      · have hsame : other ≠ entry := fun heq => hindex (by rw [heq])
        rw [if_neg hindex, Function.update_of_ne hsame, h.link_seen hother]
        rfl
    · have hsame : other ≠ entry := fun heq => hother (heq ▸ hentry)
      rw [Function.update_of_ne hsame, ← h.table_eq]
      simp only [table, if_neg hother]

/-- A changed page written to the medium is no longer changed, and the
cursor sees the links that it saw. -/
theorem Shows.written (h : c.Shows medium p image links) {page : Page} (hpage : page ∈ c.pages) :
    (c.alter page.index fun kept => { kept with changed := false }).Shows medium p
      (Function.update image (p.linksFrom + page.index.toNat) page.block) links := by
  refine ⟨h.medium_eq, h.start_eq, h.capacity_eq, pairwise_alter (· ≠ ·) (fun _ => rfl) h.distinct,
    ?_, ?_, ?_⟩
  · intro page' hpage'
    obtain ⟨old, hold, rfl⟩ := List.mem_map.mp hpage'
    split
    · exact h.inTable old hold
    · exact h.inTable old hold
  · intro page' hpage' hchanged
    obtain ⟨old, hold, rfl⟩ := List.mem_map.mp hpage'
    -- The written page now equals its block, and the write touches no other page's block.
    by_cases hindex : old.index = page.index
    · have hsame : old = page := by
        have hfind := page?_of_mem h.distinct hold
        rw [hindex, page?_of_mem h.distinct hpage, Option.some.injEq] at hfind
        exact hfind.symm
      rw [if_pos hindex, hsame, Function.update_self]
    · rw [if_neg hindex] at hchanged ⊢
      have hne : old.index.toNat ≠ page.index.toNat := fun heq =>
        hindex (UInt32.toNat_inj.mp heq)
      rw [Function.update_of_ne (by omega)]
      exact h.kept old hold hchanged
  · rw [← h.table_eq, ← h.start_eq]
    exact table_congr fun index _ => seen_written h.distinct hpage index

/-- A block of the table has a number on the medium. -/
theorem Shows.exists_place (h : c.Shows medium p image links) {size : Nat} (spans : p.Spans size)
    {index : UInt32} (hindex : index.toNat < p.tableBlocks.toNat) :
    ∃ number, Checked.add c.start index = .ok number ∧
      number.toNat = p.linksFrom + index.toNat ∧ number.toNat < p.dataFrom := by
  have hsize := spans.size_eq
  have hlt := spans.size_lt
  have hstart := h.start_eq
  have hdata : p.dataFrom = p.linksFrom + p.tableBlocks.toNat := rfl
  obtain ⟨number, hadd, hnumber⟩ :=
    Checked.exists_add (show c.start.toNat + index.toNat < 4294967296 by omega)
  exact ⟨number, hadd, by omega, by omega⟩

/-- A link in a kept page is one that the cursor shows. -/
theorem Shows.linkAt_page (h : c.Shows medium p image links) {page : Page}
    (hpage : page ∈ c.pages) {entry : Link} (hentry : entry.position.1 = page.index) :
    linkAt page.block entry.position.2 = links entry := by
  have hin := h.inTable page hpage
  have hhas : p.HasEntry entry := by
    show entry.word.toNat < 128 * p.tableBlocks.toNat
    rw [← hentry, position_index_toNat] at hin
    omega
  rw [h.link_seen hhas, hentry, seen, page?_of_mem h.distinct hpage]

/-! ### Where links lead -/

/-- The links behind an entry lead on for a number of steps: each link
that is followed is one of the table, and the last one is not the end
mark. The last one may leave the table. -/
structure Leads (p : Plan) (links : Link → Link) (entry : Link) (steps : Nat) : Prop where
  hasEntry : ∀ k < steps, p.HasEntry (links^[k] entry)
  last_isEnd : (links^[steps] entry).isEnd = false

/-- Links lead on for no steps from anything but the end mark. -/
theorem leads_zero {entry : Link} : Leads p links entry 0 ↔ entry.isEnd = false :=
  ⟨fun h => h.last_isEnd, fun h => ⟨fun _ hk => (Nat.not_lt_zero _ hk).elim, h⟩⟩

/-- Links lead on from an entry of the table as they do from the next. -/
theorem leads_succ {entry : Link} {steps : Nat} :
    Leads p links entry (steps + 1) ↔ p.HasEntry entry ∧ Leads p links (links entry) steps := by
  constructor
  · intro h
    exact ⟨h.hasEntry 0 (Nat.succ_pos steps), fun k hk => h.hasEntry (k + 1) (Nat.succ_lt_succ hk),
      h.last_isEnd⟩
  · rintro ⟨hentry, h⟩
    refine ⟨fun k hk => ?_, h.last_isEnd⟩
    cases k with
    | zero => exact hentry
    | succ k => exact h.hasEntry k (Nat.lt_of_succ_lt_succ hk)

/-- Nothing leads on from the end mark. -/
theorem Leads.isEnd_eq_false {entry : Link} {steps : Nat} (h : Leads p links entry steps)
    {size : Nat} (spans : p.Spans size) : entry.isEnd = false := by
  cases steps with
  | zero => exact h.last_isEnd
  | succ steps => exact spans.isEnd_eq_false (leads_succ.mp h).1

/-- The links behind a head lead on for a number of steps, and the head
is an entry of the table. -/
def Passes (p : Plan) (links : Link → Link) (head : Link) (steps : Nat) : Prop :=
  p.HasEntry head ∧ Leads p links head steps

/-- The links of the entries on a path lead to each of them. -/
theorem passes_of_path {size : Nat} (spans : p.Spans size) {path : List Link} {head stop : Link}
    (hpath : Path links head path stop) (hentries : ∀ e ∈ path, p.HasEntry e) {n : Nat}
    (hn : n < path.length) : Passes p links head n := by
  have hmet : ∀ k < path.length, p.HasEntry (links^[k] head) := fun k hk =>
    hentries _ (List.mem_of_getElem? (hpath.getElem?_eq hk))
  exact ⟨hmet 0 (Nat.zero_lt_of_lt hn), fun k hk => hmet k (Nat.lt_trans hk hn),
    spans.isEnd_eq_false (hmet n hn)⟩

/-! ### The operations -/

section Operations

variable {σ : Type} [Journal σ] {below : Store σ} {size : Nat} {blame : Fault → σ → Prop}
  {holds : σ → (Nat → Block) → Prop} {s : σ}

/-- The cursor shows `links` over an image that the store below holds. -/
def Reads (medium : UInt32) (p : Plan) (holds : σ → (Nat → Block) → Prop) (image : Nat → Block)
    (links : Link → Link) (state : Cursor × σ) : Prop :=
  state.1.Shows medium p image links ∧ holds state.2 image

/-- What a refused operation of a cursor leaves: the image as it was. -/
def Spoils (blame : Fault → σ → Prop) (holds : σ → (Nat → Block) → Prop) (image : Nat → Block)
    (fault : Fault) (state : Cursor × σ) : Prop :=
  holds state.2 image ∧ blame fault state.2

/-- An entry of the table is let pass. -/
theorem check_ends (hreads : Reads medium p holds image links (c, s)) {entry : Link}
    (hentry : p.HasEntry entry) (spans : p.Spans size) :
    Op.Ends (check entry) (c, s) (fun _ after => after = (c, s))
      (Spoils blame holds image) := by
  have hlt : entry.word.toNat < 128 * p.tableBlocks.toNat := hentry
  have hcapacity : ¬ c.capacity ≤ entry.word := by
    rw [UInt32.le_iff_toNat_le, hreads.1.capacity_eq]
    omega
  refine Op.Ends.own_seq ?_
  rw [if_neg (by simp [spans.isEnd_eq_false hentry, hcapacity])]
  exact Op.Ends.pure rfl

/-- A link that is no entry of the table is refused. -/
theorem check_refused (hD : Discloses below medium (· < p.dataFrom) blame holds)
    (hreads : Reads medium p holds image links (c, s)) {entry : Link}
    (hentry : ¬ p.HasEntry entry) :
    Op.Ends (check entry) (c, s) (fun _ _ => False)
      (fun fault after => fault = .corrupted .danglingLink ∧ holds after.2 image) := by
  have hge : ¬ entry.word.toNat < 128 * p.tableBlocks.toNat := hentry
  have hcapacity : c.capacity ≤ entry.word := by
    rw [UInt32.le_iff_toNat_le, hreads.1.capacity_eq]
    omega
  refine Op.Ends.own_seq ?_
  rw [if_pos (.inr hcapacity)]
  exact Op.Ends.note_seq (Op.Ends.fail ⟨rfl, hD.note _ hreads.2⟩)

/-- A table block is read at most once, and is then kept. -/
theorem load_ends (hD : Discloses below medium (· < p.dataFrom) blame holds) (spans : p.Spans size)
    (hreads : Reads medium p holds image links (c, s)) {index : UInt32}
    (hindex : index.toNat < p.tableBlocks.toNat) :
    Op.Ends (load below index) (c, s)
      (fun block after => block = c.seen image index ∧
        (∃ page, after.1.page? index = some page ∧ page.block = block) ∧
        Reads medium p holds image links after)
      (Spoils blame holds image) := by
  have hshows : c.Shows medium p image links := hreads.1
  have hs : holds s image := hreads.2
  refine Op.Ends.own_seq ?_
  cases hpage : c.page? index with
  | some page =>
    exact Op.Ends.pure ⟨by simp only [seen, hpage], ⟨page, hpage, rfl⟩, hreads⟩
  | none =>
    -- A page that is not there is read once, from where the medium has it.
    obtain ⟨number, hadd, hat, hlt⟩ := hshows.exists_place spans hindex
    refine Op.Ends.lift_seq hadd ?_
    rw [hshows.medium_eq]
    refine Op.Ends.lower_seq (hD.read hs hlt) (fun _ _ hbad => hbad) ?_
    rintro _ s' ⟨rfl, hs'⟩
    rw [hat]
    refine Op.Ends.modifyOwn_seq (Op.Ends.pure ⟨?_, ?_, hshows.keep hindex hpage, hs'⟩)
    · simp only [seen, hpage, hshows.start_eq]
    · refine ⟨⟨index, image (p.linksFrom + index.toNat), false⟩, ?_, rfl⟩
      exact page?_of_mem (hshows.keep hindex hpage).distinct
        ((insertPage_perm _ c.pages).mem_iff.mpr List.mem_cons_self)

/-- The link of an entry is the one that the cursor sees. -/
theorem next_ends (hD : Discloses below medium (· < p.dataFrom) blame holds) (spans : p.Spans size)
    (hreads : Reads medium p holds image links (c, s)) {entry : Link} (hentry : p.HasEntry entry) :
    Op.Ends (next below entry) (c, s)
      (fun link after => link = links entry ∧ Reads medium p holds image links after)
      (Spoils blame holds image) := by
  refine (check_ends hreads hentry spans).seq ?_
  rintro _ _ rfl
  refine (load_ends hD spans hreads (position_index_lt hentry)).seq ?_
  rintro _ after ⟨rfl, -, hafter⟩
  exact Op.Ends.pure ⟨(hreads.1.link_seen hentry).symm, hafter⟩

/-- There is no link for what is no entry of the table. -/
theorem next_refused (hD : Discloses below medium (· < p.dataFrom) blame holds)
    (hreads : Reads medium p holds image links (c, s)) {entry : Link}
    (hentry : ¬ p.HasEntry entry) :
    Op.Ends (next below entry) (c, s) (fun _ _ => False)
      (fun fault after => fault = .corrupted .danglingLink ∧ holds after.2 image) :=
  (check_refused hD hreads hentry).seq fun _ _ hno => hno.elim

/-- Changing the link of an entry changes what the cursor sees, and
nothing on the medium. -/
theorem setNext_ends (hD : Discloses below medium (· < p.dataFrom) blame holds)
    (spans : p.Spans size) (hreads : Reads medium p holds image links (c, s)) {entry : Link}
    (link : Link) (hentry : p.HasEntry entry) :
    Op.Ends (setNext below entry link) (c, s)
      (fun _ after => Reads medium p holds image (Function.update links entry link) after)
      (Spoils blame holds image) := by
  refine (check_ends hreads hentry spans).seq ?_
  rintro _ _ rfl
  refine (load_ends hD spans hreads (position_index_lt hentry)).seq ?_
  rintro block ⟨c', s'⟩ ⟨-, ⟨page, hpage, hblock⟩, hshows, hs'⟩
  exact Op.Ends.modifyOwn ⟨hshows.setLink hentry hpage hblock, hs'⟩

/-- Following links arrives where they lead, or ends at the first one
that cannot be followed. -/
theorem follow_leads (hD : Discloses below medium (· < p.dataFrom) blame holds)
    (spans : p.Spans size) (head : Link) (steps : UInt32) {left : Nat} {entry : Link}
    (hentry : entry.isEnd = false) (hreads : Reads medium p holds image links (c, s)) :
    Op.Ends (follow below head steps left entry) (c, s)
      (fun found after => Leads p links entry left ∧ found = links^[left] entry ∧
        Reads medium p holds image links after)
      (fun fault after => holds after.2 image ∧ (blame fault after.2 ∨
        ¬ Leads p links entry left ∧ ∃ damage, fault = .corrupted damage)) := by
  induction left generalizing entry c s with
  | zero => exact Op.Ends.pure ⟨leads_zero.mpr hentry, rfl, hreads⟩
  | succ left ih =>
    -- The next link is looked up only where the table has the entry.
    by_cases hhas : p.HasEntry entry
    case neg =>
      refine (next_refused hD hreads hhas).bind ?_ fun _ _ hno => hno.elim
      rintro _ after ⟨rfl, hafter⟩
      exact ⟨hafter, .inr ⟨fun hleads => hhas (leads_succ.mp hleads).1, _, rfl⟩⟩
    refine (next_ends hD spans hreads hhas).bind (fun _ _ hbad => hbad.imp_right .inl) ?_
    rintro _ ⟨c', s'⟩ ⟨rfl, hafter⟩
    split
    · -- The chain ends here, whatever number of links was still to be followed.
      rename_i hend
      refine Op.Ends.note_seq (Op.Ends.fail_seq
        ⟨hD.note _ hafter.2, .inr ⟨fun hleads => ?_, _, rfl⟩⟩)
      rw [(leads_succ.mp hleads).2.isEnd_eq_false spans] at hend
      cases hend
    · rename_i hend
      refine (ih (Bool.eq_false_iff.mpr hend) hafter).mono ?_ ?_
      · rintro _ _ ⟨hleads, hfound⟩
        exact ⟨leads_succ.mpr ⟨hhas, hleads⟩, hfound⟩
      · rintro _ _ ⟨hs', hbad⟩
        exact ⟨hs', hbad.imp_right (And.imp_left fun hno hleads => hno (leads_succ.mp hleads).2)⟩

/-- A walk arrives where the links behind its head lead, and is refused
where they do not lead so far. -/
theorem walk_passes (hD : Discloses below medium (· < p.dataFrom) blame holds)
    (spans : p.Spans size) (head : Link) (steps : UInt32)
    (hreads : Reads medium p holds image links (c, s)) :
    Op.Ends (walk below head steps) (c, s)
      (fun found after => Passes p links head steps.toNat ∧ found = links^[steps.toNat] head ∧
        Reads medium p holds image links after)
      (fun fault after => holds after.2 image ∧ (blame fault after.2 ∨
        ¬ Passes p links head steps.toNat ∧ ∃ damage, fault = .corrupted damage)) := by
  by_cases hhead : p.HasEntry head
  case neg =>
    refine (check_refused hD hreads hhead).bind ?_ fun _ _ hno => hno.elim
    rintro _ after ⟨rfl, hafter⟩
    exact ⟨hafter, .inr ⟨fun h => hhead h.1, _, rfl⟩⟩
  refine (check_ends hreads hhead spans).bind (fun _ _ hbad => hbad.imp_right .inl) ?_
  rintro _ _ rfl
  refine (follow_leads hD spans head steps (spans.isEnd_eq_false hhead) hreads).mono ?_ ?_
  · rintro _ _ ⟨hleads, hfound⟩
    exact ⟨⟨hhead, hleads⟩, hfound⟩
  · rintro _ _ ⟨hs', hbad⟩
    exact ⟨hs', hbad.imp_right (And.imp_left fun hno h => hno h.2)⟩

/-- A walk along a path arrives at its entries. -/
theorem walk_ends (hD : Discloses below medium (· < p.dataFrom) blame holds) (spans : p.Spans size)
    {steps : UInt32} {path : List Link} {head stop : Link} (hpath : Path links head path stop)
    (hentries : ∀ e ∈ path, p.HasEntry e) (hsteps : steps.toNat < path.length)
    (hreads : Reads medium p holds image links (c, s)) :
    Op.Ends (walk below head steps) (c, s)
      (fun found after => path[steps.toNat]? = some found ∧ Reads medium p holds image links after)
      (Spoils blame holds image) := by
  have hpasses := passes_of_path spans hpath hentries hsteps
  refine (walk_passes hD spans head steps hreads).mono ?_ ?_
  · rintro _ after ⟨-, rfl, hafter⟩
    exact ⟨hpath.getElem?_eq hsteps, hafter⟩
  · rintro _ _ ⟨hs', hbad⟩
    exact ⟨hs', hbad.resolve_right fun hno => hno.1 hpasses⟩

omit [Journal σ] in
/-- Writing pages that the cursor keeps. Here `todo` are the pages that
are left, among them all that are changed. -/
theorem flushPages_ends (hT : Takes below medium (· < p.dataFrom) blame holds)
    (spans : p.Spans size) {todo : List Page} (hreads : Reads medium p holds image links (c, s))
    (hkept : ∀ page ∈ todo, page ∈ c.pages)
    (hdistinct : todo.Pairwise fun a b => a.index ≠ b.index)
    (hchanged : ∀ page ∈ c.pages, page.changed = true → page ∈ todo) :
    Op.Ends (flushPages below todo) (c, s)
      (fun _ after => ∃ image', Reads medium p holds image' links after ∧
        (∀ page ∈ after.1.pages, page.changed = false) ∧
        ∃ table, p.catalog image' = { p.catalog image with link := table })
      (fun fault after => ∃ image', holds after.2 image' ∧ blame fault after.2 ∧
        ∃ table, p.catalog image' = { p.catalog image with link := table } ∧
          ∀ entry, table entry = (p.catalog image).link entry ∨ table entry = links entry) := by
  -- Each page written leaves the cursor's links alone, so the image may change under the induction.
  induction todo generalizing c s image with
  | nil =>
    refine Op.Ends.pure ⟨image, hreads, fun page hpage => ?_, _, rfl⟩
    rw [Bool.eq_false_iff]
    intro h
    cases hchanged page hpage h
  | cons page rest ih =>
    obtain ⟨hne, hrest⟩ := List.pairwise_cons.mp hdistinct
    have hshows : c.Shows medium p image links := hreads.1
    have hpage : page ∈ c.pages := hkept page List.mem_cons_self
    -- A changed page is written and marked as unchanged; any other is passed by.
    unfold flushPages
    dsimp only
    split
    · have hin := hshows.inTable page hpage
      obtain ⟨number, hadd, hat, hplace⟩ := hshows.exists_place spans hin
      have hwrite : p.catalog (Function.update image (p.linksFrom + page.index.toNat) page.block) =
          _ := catalog_writeTable page.block hin
      refine Op.Ends.own_seq (Op.Ends.lift_seq hadd ?_)
      rw [hshows.medium_eq]
      refine Op.Ends.lower_seq (hT.write page.block hreads.2 hplace) ?_ ?_
      · rintro fault s' ⟨hs', hblame⟩
        exact ⟨image, hs', hblame, _, rfl, fun _ => .inl rfl⟩
      rintro _ s' hs'
      rw [hat] at hs'
      refine Op.Ends.modifyOwn_seq ((ih ⟨hshows.written hpage, hs'⟩ ?_ hrest ?_).mono ?_ ?_)
      -- The page that was written is not among the rest, which is therefore kept as it was.
      · intro other hother
        refine List.mem_map.mpr ⟨other, hkept other (List.mem_cons_of_mem _ hother), ?_⟩
        rw [if_neg (hne other hother).symm]
      · intro other hother hmark
        obtain ⟨old, hold, rfl⟩ := List.mem_map.mp hother
        split at hmark
        · cases hmark
        · rename_i hindex
          rw [if_neg hindex]
          rcases List.mem_cons.mp (hchanged old hold hmark) with rfl | hmem
          · exact (hindex rfl).elim
          · exact hmem
      · rintro _ after ⟨image', hafter, hclean, table, htable⟩
        exact ⟨image', hafter, hclean, table, by rw [htable, hwrite]⟩
      · rintro fault after ⟨image', hs', hblame, table, htable, heither⟩
        refine ⟨image', hs', hblame, table, by rw [htable, hwrite], fun entry => ?_⟩
        -- A link that stayed since this page was written is new if it stands in the page.
        rcases heither entry with hlink | hlink
        · rw [hwrite] at hlink
          dsimp only at hlink
          split at hlink
          · rename_i hentry
            exact .inr (hlink.trans (hshows.linkAt_page hpage hentry))
          · exact .inl hlink
        · exact .inr hlink
    · rename_i hsame
      refine ih hreads (fun other hother => hkept other (List.mem_cons_of_mem _ hother)) hrest ?_
      intro other hother hmark
      rcases List.mem_cons.mp (hchanged other hother hmark) with rfl | hmem
      · exact (hsame hmark).elim
      · exact hmem

omit [Journal σ] in
/-- After a flush the links of the medium are those that the cursor
shows. A flush that fails leaves each link as it was or as the cursor
shows it. -/
theorem flush_ends (hT : Takes below medium (· < p.dataFrom) blame holds)
    (spans : p.Spans size) (hreads : Reads medium p holds image links (c, s)) :
    Op.Ends (flush below) (c, s)
      (fun _ after => ∃ image', Reads medium p holds image' links after ∧
        p.catalog image' = { p.catalog image with link := links })
      (fun fault after => ∃ image', holds after.2 image' ∧ blame fault after.2 ∧
        ∃ table, p.catalog image' = { p.catalog image with link := table } ∧
          ∀ entry, table entry = (p.catalog image).link entry ∨ table entry = links entry) := by
  have hshows : c.Shows medium p image links := hreads.1
  refine Op.Ends.own_seq ((flushPages_ends hT spans hreads (fun _ h => h) hshows.distinct
    fun _ h _ => h).mono ?_ fun _ _ hbad => hbad)
  rintro _ ⟨c', s'⟩ ⟨image', ⟨hshows', hs'⟩, hclean, table, htable⟩
  -- No page is changed any more, so what the cursor shows is on the medium.
  have hlink := hshows'.link_eq hclean
  rw [htable] at hlink
  exact ⟨image', ⟨hshows', hs'⟩, by rw [htable, ← hlink]⟩

end Operations

end Cursor

end BlockLayers.Fat
