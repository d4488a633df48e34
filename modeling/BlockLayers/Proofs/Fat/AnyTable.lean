import BlockLayers.Proofs.Concludes
import BlockLayers.Proofs.Fat.Occupancy
import Mathlib.Logic.Function.Iterate

/-!
# `BlockLayers.Proofs.Fat.AnyTable`: a cursor on a table with any content

Nothing is assumed of the medium here: its blocks are any blocks, and
the tables that they are read as need not be in order. `Plan.ToldBy`
takes the sizes of the tables from the superblock as it is, and the
store below is asked for no more than to show the blocks of an image
while it is quiet (`Tells`).

While the store is quiet a cursor reads the links that the image has
(`Cursor.next_tells`, `Cursor.walk_concludes`). After something was
written it is only known where its pages are (`Cursor.Within`), which is
enough to say when changing and flushing links cannot fail
(`Cursor.setNext_concludes`, `Cursor.flush_concludes`).

An abort is possible only where a number that the tables lead to is no
word (`Plan.InWords`).
-/

set_option autoImplicit false

namespace BlockLayers.Fat

/-! ### What tables tell -/

/-- The sizes of a plan are those that the superblock of an image
tells. -/
structure Plan.ToldBy (p : Plan) (image : Nat → Block) : Prop where
  recordBlocks_eq : (Superblock.decode (image 0)).recordBlocks = p.recordBlocks
  tableBlocks_eq : (Superblock.decode (image 0)).tableBlocks = p.tableBlocks

namespace Catalog

/-- A link that stands somewhere in the tables. -/
def Mentions (m : Catalog) (link : Link) : Prop :=
  link = m.superblock.freeHead ∨ (∃ ino, link = (m.record ino).head) ∨ ∃ entry, link = m.link entry

/-- The entry that the chain of a file leads to for its last block. -/
def tail (m : Catalog) (ino : UInt32) : Link :=
  m.link^[(m.record ino).blocks.toNat - 1] (m.record ino).head

/-- The chain of a file leaves the table with the link that leads to its
last block. -/
structure Strays (m : Catalog) (p : Plan) (ino : UInt32) : Prop where
  blocks_gt : 1 < (m.record ino).blocks.toNat
  tail_ne : (m.tail ino).isEnd = false
  tail_out : ¬ p.HasEntry (m.tail ino)

/-- The tables mention the head of the free chain. -/
theorem mentions_freeHead (m : Catalog) : m.Mentions m.superblock.freeHead := .inl rfl

/-- The tables mention the link of every entry. -/
theorem mentions_link (m : Catalog) (entry : Link) : m.Mentions (m.link entry) :=
  .inr (.inr ⟨entry, rfl⟩)

/-- Following links from the head of a file arrives at links of the
tables. -/
theorem mentions_iterate (m : Catalog) (ino : UInt32) (steps : Nat) :
    m.Mentions (m.link^[steps] (m.record ino).head) := by
  cases steps with
  | zero => exact .inr (.inl ⟨ino, rfl⟩)
  | succ steps =>
    rw [Function.iterate_succ_apply']
    exact m.mentions_link _

end Catalog

/-- The numbers that tables lead to are words: the numbers of files, of
places in the table and of blocks before the data, and the number of the
data block behind every link. -/
structure Plan.InWords (p : Plan) (m : Catalog) : Prop where
  files_lt : 64 * p.recordBlocks.toNat < 4294967296
  places_lt : 128 * p.tableBlocks.toNat < 4294967296
  dataFrom_lt : p.dataFrom < 4294967296
  block_lt : ∀ link, m.Mentions link → link.isEnd = false →
    p.dataFrom + link.word.toNat < 4294967296

/-- The data block behind a link has a number. -/
theorem Plan.InWords.exists_dataBlock {p : Plan} {m : Catalog} (words : p.InWords m)
    {sb : Superblock} (hrecords : sb.recordBlocks = p.recordBlocks)
    (htable : sb.tableBlocks = p.tableBlocks) {link : Link} (hlink : m.Mentions link)
    (hend : link.isEnd = false) : ∃ number, sb.dataBlock link = .ok number := by
  have hword := words.block_lt link hlink hend
  -- Neither sum overflows: that is what the bounds of a plan in words are for.
  obtain ⟨start, hstart, hstartNat⟩ := exists_dataStart words.dataFrom_lt hrecords htable
  obtain ⟨number, hnumber, -⟩ := Checked.exists_add
    (show start.toNat + link.word.toNat < 4294967296 by omega)
  refine ⟨number, ?_⟩
  rw [Superblock.dataBlock, hstart]
  exact hnumber

/-! ### The store below -/

/-- A store whose inode `ino` shows the blocks of an image while it is
quiet. Requests that are no change leave it quiet. A fault is one that
the store is to blame for, and where it is aborted `gone` holds. -/
structure Tells {σ : Type} [Journal σ] (below : Store σ) (ino : UInt32) (image : Nat → Block)
    (quiet blame : σ → Prop) (gone : Prop) : Prop where
  look : ∀ {q : Request} {s : σ}, q.changes = false → quiet s →
    Op.Concludes (below q) s (fun _ after => quiet after) (fun _ after => blame after) gone
  read : ∀ {n : UInt32} {s : σ}, quiet s → Op.Concludes (below (.read ⟨ino, n⟩)) s
    (fun block after => block = image n.toNat ∧ quiet after) (fun _ after => blame after) gone
  serve : ∀ (q : Request) (s : σ),
    Op.Concludes (below q) s (fun _ _ => True) (fun _ after => blame after) gone
  note : ∀ {s : σ} (event : Event), quiet s → quiet (Journal.enter event s)

/-- A store whose reads keep a condition. -/
structure Answering {σ : Type} [Journal σ] (below : Store σ) (kept blame : σ → Prop)
    (gone : Prop) : Prop where
  read : ∀ {a : Address} {s : σ}, kept s →
    Op.Concludes (below (.read a)) s (fun _ after => kept after) (fun _ after => blame after) gone
  note : ∀ {s : σ} (event : Event), kept s → kept (Journal.enter event s)

variable {σ : Type} [Journal σ] {below : Store σ} {p : Plan} {image : Nat → Block}
  {medium : UInt32} {kept quiet blame : σ → Prop} {gone : Prop} {s : σ} {c : Cursor}
  {links : Link → Link}

/-- Before anything is written, reads leave the store quiet. -/
theorem Tells.quietly (h : Tells below medium image quiet blame gone) :
    Answering below quiet blame gone := ⟨fun hs => h.look rfl hs, fun event hs => h.note event hs⟩

/-- After something was written, nothing is said of the store. -/
theorem Tells.loudly (h : Tells below medium image quiet blame gone) :
    Answering below (fun _ => True) blame gone := ⟨fun _ => h.serve _ _, fun _ _ => trivial⟩

namespace Cursor

/-! ### A cursor on any table -/

/-- The cursor has the sizes of a plan, and its pages are in the
table. -/
structure Within (c : Cursor) (p : Plan) : Prop where
  start_eq : c.start.toNat = p.linksFrom
  capacity_eq : c.capacity.toNat = 128 * p.tableBlocks.toNat
  inTable : ∀ page ∈ c.pages, page.index.toNat < p.tableBlocks.toNat

/-- A cursor that shows an image is on its table. -/
theorem Shows.within (h : c.Shows medium p image links) : c.Within p :=
  ⟨h.start_eq, h.capacity_eq, h.inTable⟩

/-- A table that a cursor is on has fewer entries than there are
words. -/
theorem Within.isEnd_eq_false (hc : c.Within p) {entry : Link} (h : p.HasEntry entry) :
    entry.isEnd = false :=
  Plan.HasEntry.isEnd_eq_false h (hc.capacity_eq ▸ c.capacity.toNat_lt)

/-- A change to a page leaves it where it is. -/
theorem Within.alter (hc : c.Within p) (index : UInt32) {f : Page → Page}
    (hf : ∀ page, (f page).index = page.index) : (c.alter index f).Within p := by
  refine ⟨hc.start_eq, hc.capacity_eq, fun page hpage => ?_⟩
  obtain ⟨old, hold, rfl⟩ := List.mem_map.mp hpage
  have hin := hc.inTable old hold
  split
  · rw [hf]
    exact hin
  · exact hin

/-- A page that is taken in is one of the table. -/
theorem Within.keep (hc : c.Within p) {index : UInt32} (hindex : index.toNat < p.tableBlocks.toNat)
    (block : Block) : (c.keep index block).Within p := by
  refine ⟨hc.start_eq, hc.capacity_eq, fun page hpage => ?_⟩
  have hmem : page ∈ insertPage ⟨index, block, false⟩ c.pages := hpage
  rcases List.mem_cons.mp ((insertPage_perm _ _).mem_iff.mp hmem) with rfl | hold
  · exact hindex
  · exact hc.inTable page hold

/-- A block of the table has a number where the data blocks begin at
one. -/
theorem Within.exists_place (hc : c.Within p) (hlt : p.dataFrom < 4294967296) {index : UInt32}
    (hindex : index.toNat < p.tableBlocks.toNat) :
    ∃ number, Checked.add c.start index = .ok number := by
  have hstart := hc.start_eq
  unfold Plan.dataFrom at hlt
  obtain ⟨number, hadd, -⟩ := Checked.exists_add
    (show c.start.toNat + index.toNat < 4294967296 by omega)
  exact ⟨number, hadd⟩

/-- A cursor is opened on the table that the superblock tells, where its
sizes are words. -/
theorem shows_of_open (image : Nat → Block) {sb : Superblock}
    (hrecords : sb.recordBlocks = p.recordBlocks) (htable : sb.tableBlocks = p.tableBlocks)
    (h : open_ medium sb = .ok c) :
    c.Shows medium p image (p.catalog image).link := by
  -- No page is loaded yet, so what the cursor shows is the table on the medium.
  unfold open_ at h
  cases hstart : sb.tableStart with
  | error abort =>
    rw [hstart] at h
    cases h
  | ok start =>
    cases hcapacity : sb.tableCapacity with
    | error abort =>
      rw [hstart, hcapacity] at h
      cases h
    | ok capacity =>
      rw [hstart, hcapacity] at h
      cases h
      have hstartNat := Checked.add_eq_ok_iff.mp hstart
      have hcapacityNat := Checked.mul_eq_ok_iff.mp hcapacity
      rw [UInt32.toNat_one, hrecords] at hstartNat
      rw [htable, show (128 : UInt32).toNat = 128 from rfl, Nat.mul_comm] at hcapacityNat
      refine ⟨rfl, hstartNat.symm, hcapacityNat.symm, List.Pairwise.nil, by simp, by simp, ?_⟩
      funext entry
      simp only [Plan.catalog, table]
      split
      · rw [← position_index_toNat, show p.linksFrom = start.toNat from hstartNat]
        rfl
      · rfl

/-- A cursor is opened where the sizes are words. -/
theorem exists_open {m : Catalog} (words : p.InWords m) (medium : UInt32) {sb : Superblock}
    (hrecords : sb.recordBlocks = p.recordBlocks) (htable : sb.tableBlocks = p.tableBlocks) :
    ∃ c, open_ medium sb = .ok c := by
  have hstart := words.dataFrom_lt
  have hplaces := words.places_lt
  unfold Plan.dataFrom Plan.linksFrom at hstart
  obtain ⟨start, hadd, -⟩ := Checked.exists_add
    (show (1 : UInt32).toNat + p.recordBlocks.toNat < 4294967296 by
      rw [UInt32.toNat_one]
      omega)
  have hmul : Checked.mul p.tableBlocks 128 = .ok (p.tableBlocks * 128) := by
    rw [Checked.mul_eq_ok_iff, UInt32.toNat_mul, show (128 : UInt32).toNat = 128 from rfl]
    omega
  refine ⟨⟨medium, start, p.tableBlocks * 128, []⟩, ?_⟩
  rw [open_, Superblock.tableStart, Superblock.tableCapacity, hrecords, htable, hadd, hmul]
  rfl

section Operations

/-- A link is let pass exactly when the table has an entry for it. -/
theorem check_concludes (h : Answering below kept blame gone) (hc : c.Within p) (entry : Link)
    (hs : kept s) :
    Op.Concludes (check entry) (c, s) (fun _ after => after = (c, s) ∧ p.HasEntry entry)
      (fun _ after => kept after.2 ∧ ¬ p.HasEntry entry) gone := by
  have hcapacity : c.capacity ≤ entry.word ↔ ¬ p.HasEntry entry := by
    rw [UInt32.le_iff_toNat_le, hc.capacity_eq, Plan.HasEntry, Nat.not_lt]
  refine Op.Concludes.own_seq ?_
  dsimp only
  split
  · rename_i hout
    refine Op.Concludes.note_seq (Op.Concludes.fail ⟨h.note _ hs, fun hentry => ?_⟩)
    -- A link that marks the end is refused first, and it has no entry either.
    rcases hout with hend | hle
    · cases (hc.isEnd_eq_false hentry).symm.trans hend
    · exact hcapacity.mp hle hentry
  · rename_i hin
    exact Op.Concludes.pure ⟨rfl, not_not.mp fun hno => hin (.inr (hcapacity.mpr hno))⟩

/-- A table block is loaded, from wherever it comes. -/
theorem load_concludes (h : Answering below kept blame gone)
    (hgone : ¬ p.dataFrom < 4294967296 → gone) (hc : c.Within p) {index : UInt32}
    (hindex : index.toNat < p.tableBlocks.toNat) (hs : kept s) :
    Op.Concludes (load below index) (c, s) (fun _ after => after.1.Within p ∧ kept after.2)
      (fun _ after => blame after.2) gone := by
  refine Op.Concludes.own_seq ?_
  cases c.page? index with
  | some page => exact Op.Concludes.pure ⟨hc, hs⟩
  | none =>
    refine Op.Concludes.lift_seq hgone (fun hlt => hc.exists_place hlt hindex) fun number _ => ?_
    refine Op.Concludes.lower_seq (h.read hs) (fun _ _ hblame => hblame) fun block s' hs' => ?_
    exact Op.Concludes.modifyOwn_seq (Op.Concludes.pure ⟨hc.keep hindex block, hs'⟩)

/-- The link of an entry is changed if there is such an entry. -/
theorem setNext_concludes (h : Answering below kept blame gone)
    (hgone : ¬ p.dataFrom < 4294967296 → gone) (hc : c.Within p) (entry link : Link)
    (hs : kept s) :
    Op.Concludes (setNext below entry link) (c, s)
      (fun _ after => after.1.Within p ∧ kept after.2)
      (fun _ after => blame after.2 ∨ kept after.2 ∧ ¬ p.HasEntry entry) gone := by
  refine (check_concludes h hc entry hs).bind (fun _ _ hbad => .inr hbad) ?_
  rintro _ _ ⟨rfl, hentry⟩
  refine (load_concludes h hgone hc (position_index_lt hentry) hs).bind
    (fun _ _ hblame => .inl hblame) ?_
  rintro block ⟨c', s'⟩ ⟨hc', hs'⟩
  exact Op.Concludes.modifyOwn ⟨hc'.alter _ fun _ => rfl, hs'⟩

/-- The link of an entry is read if there is such an entry. -/
theorem next_answers (h : Answering below kept blame gone)
    (hgone : ¬ p.dataFrom < 4294967296 → gone) (hc : c.Within p) (entry : Link) (hs : kept s) :
    Op.Concludes (next below entry) (c, s) (fun _ after => after.1.Within p ∧ kept after.2)
      (fun _ after => blame after.2 ∨ kept after.2) gone := by
  refine (check_concludes h hc entry hs).bind (fun _ _ hbad => .inr hbad.1) ?_
  rintro _ _ ⟨rfl, hentry⟩
  refine (load_concludes h hgone hc (position_index_lt hentry) hs).bind
    (fun _ _ hblame => .inl hblame) fun block after hafter => ?_
  exact Op.Concludes.pure hafter

/-- Changed pages are written unless the store below fails. -/
theorem flushPages_concludes (h : Tells below medium image quiet blame gone)
    (hgone : ¬ p.dataFrom < 4294967296 → gone) {todo : List Page}
    (htodo : ∀ page ∈ todo, page.index.toNat < p.tableBlocks.toNat) (hc : c.Within p) :
    Op.Concludes (flushPages below todo) (c, s) (fun _ after => after.1.Within p)
      (fun _ after => blame after.2) gone := by
  -- By induction on the pages that are left; the cursor keeps the others in place.
  induction todo generalizing c s with
  | nil => exact Op.Concludes.pure hc
  | cons page rest ih =>
    have hrest : ∀ other ∈ rest, other.index.toNat < p.tableBlocks.toNat := fun other hother =>
      htodo other (List.mem_cons_of_mem _ hother)
    unfold flushPages
    dsimp only
    split
    · refine Op.Concludes.own_seq (Op.Concludes.lift_seq hgone
        (fun hlt => hc.exists_place hlt (htodo page List.mem_cons_self)) fun number _ => ?_)
      refine Op.Concludes.lower_seq (h.serve _ s) (fun _ _ hblame => hblame) fun _ s' _ => ?_
      exact Op.Concludes.modifyOwn_seq (ih hrest (hc.alter _ fun _ => rfl))
    · exact ih hrest hc

/-- A cursor writes its changed pages unless the store below fails. -/
theorem flush_concludes (h : Tells below medium image quiet blame gone)
    (hgone : ¬ p.dataFrom < 4294967296 → gone) (hc : c.Within p) :
    Op.Concludes (flush below) (c, s) (fun _ after => after.1.Within p)
      (fun _ after => blame after.2) gone :=
  Op.Concludes.own_seq (flushPages_concludes h hgone hc.inTable hc)

/-! ### Following the links of the image -/

variable (h : Tells below medium image quiet blame gone)
  (hgone : ¬ p.dataFrom < 4294967296 → gone)

include h hgone

/-- While nothing is written, a table block is the one on the medium. -/
theorem load_tells (hc : c.Shows medium p image links) {index : UInt32}
    (hindex : index.toNat < p.tableBlocks.toNat) (hs : quiet s) :
    Op.Concludes (load below index) (c, s)
      (fun block after => block = c.seen image index ∧ after.1.Shows medium p image links ∧
        quiet after.2)
      (fun _ after => blame after.2) gone := by
  refine Op.Concludes.own_seq ?_
  cases hpage : c.page? index with
  | some page => exact Op.Concludes.pure ⟨by simp only [seen, hpage], hc, hs⟩
  | none =>
    refine Op.Concludes.lift_seq hgone (fun hlt => hc.within.exists_place hlt hindex)
      fun number hnumber => ?_
    have hplace := Checked.add_eq_ok_iff.mp hnumber
    rw [hc.start_eq] at hplace
    rw [hc.medium_eq]
    refine Op.Concludes.lower_seq (h.read hs) (fun _ _ hblame => hblame) ?_
    rintro _ s' ⟨rfl, hs'⟩
    -- The block that was read is the one that the image has at this place.
    rw [← hplace]
    refine Op.Concludes.modifyOwn_seq (Op.Concludes.pure ⟨?_, hc.keep hindex hpage, hs'⟩)
    simp only [seen, hpage, hc.start_eq]

/-- While nothing is written, the link of an entry is the one on the
medium. -/
theorem next_tells (hc : c.Shows medium p image links) (entry : Link) (hs : quiet s) :
    Op.Concludes (next below entry) (c, s)
      (fun link after => link = links entry ∧ p.HasEntry entry ∧
        after.1.Shows medium p image links ∧ quiet after.2)
      (fun _ after => blame after.2 ∨ quiet after.2) gone := by
  refine (check_concludes h.quietly hc.within entry hs).bind (fun _ _ hbad => .inr hbad.1) ?_
  rintro _ _ ⟨rfl, hentry⟩
  refine (load_tells h hgone hc (position_index_lt hentry) hs).bind
    (fun _ _ hblame => .inl hblame) ?_
  rintro _ after ⟨rfl, hafter⟩
  exact Op.Concludes.pure ⟨(hc.link_seen hentry).symm, hentry, hafter⟩

/-- Following links arrives where they lead, and not at the end. -/
theorem follow_concludes (head : Link) (steps : UInt32) (left : Nat)
    (hc : c.Shows medium p image links) {entry : Link} (hentry : entry.isEnd = false)
    (hs : quiet s) :
    Op.Concludes (follow below head steps left entry) (c, s)
      (fun found after => found = links^[left] entry ∧ found.isEnd = false ∧
        after.1.Shows medium p image links ∧ quiet after.2)
      (fun _ after => blame after.2 ∨ quiet after.2) gone := by
  -- By induction on the steps that are left, with the next link in place of the entry.
  induction left generalizing entry c s with
  | zero => exact Op.Concludes.pure ⟨rfl, hentry, hc, hs⟩
  | succ left ih =>
    refine (next_tells h hgone hc entry hs).seq ?_
    rintro _ ⟨c', s'⟩ ⟨rfl, -, hc', hs'⟩
    by_cases hend : (links entry).isEnd = true
    · rw [if_pos hend]
      exact Op.Concludes.note_seq (.inr (h.note _ hs'))
    · rw [if_neg hend, Function.iterate_succ_apply]
      exact ih hc' (Bool.eq_false_iff.mpr hend) hs'

/-- A walk arrives where the links lead. Its last link alone is not
looked at: it is known to be an entry only where it is the head. -/
theorem walk_concludes (hc : c.Shows medium p image links) (head : Link) (steps : UInt32)
    (hs : quiet s) :
    Op.Concludes (walk below head steps) (c, s)
      (fun found after => (found = links^[steps.toNat] head ∧ found.isEnd = false ∧
        p.HasEntry head) ∧ after.1.Shows medium p image links ∧ quiet after.2)
      (fun _ after => blame after.2 ∨ quiet after.2) gone := by
  refine (check_concludes h.quietly hc.within head hs).bind (fun _ _ hbad => .inr hbad.1) ?_
  rintro _ _ ⟨rfl, hhead⟩
  refine (follow_concludes h hgone head steps steps.toNat hc (hc.within.isEnd_eq_false hhead)
    hs).mono ?_ fun _ _ hbad => hbad
  rintro found after ⟨hfound, hend, hafter⟩
  exact ⟨⟨hfound, hend, hhead⟩, hafter⟩

end Operations

end Cursor

end BlockLayers.Fat
