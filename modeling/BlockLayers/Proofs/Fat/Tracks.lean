import BlockLayers.Proofs.Fat.AnyTable
import BlockLayers.Proofs.Fat.Direct

/-!
# `BlockLayers.Proofs.Fat.Tracks`: a cursor in step with a direct table

A cursor and its medium stand for the blocks of a direct table
(`Cursor.Stands`): the medium has them, save for those that are changed
pages of the cursor. The changed pages are those that the direct table
counts as touched, and no table block was read twice, since every one
that was read is a page from then on (`Cursor.Tracks`).

Main statements: `Tracks.keep` and `Tracks.setLink`, for a table block
that is read and for a link that is changed, and `Stands.written` and
`Stands.eq_of_clean`, for a page that is written and for a cursor without
changed pages.
-/

set_option autoImplicit false

namespace BlockLayers.Fat

/-- A page with a changed block. -/
def Page.revised (block : Block) (page : Page) : Page := { page with block, changed := true }

namespace Cursor

variable {c : Cursor} {medium : UInt32} {p : Plan} {image disk : Nat → Block}

/-! ### The blocks that a cursor stands for -/

/-- A page inserted among pages in ascending order is in its place. -/
theorem insertPage_ascending {page : Page} {pages : List Page}
    (h : pages.Pairwise fun a b => a.index < b.index) (hnew : ∀ q ∈ pages, q.index ≠ page.index) :
    (insertPage page pages).Pairwise fun a b => a.index < b.index := by
  induction pages with
  | nil => exact List.pairwise_singleton ..
  | cons first rest ih =>
    obtain ⟨hfirst, hrest⟩ := List.pairwise_cons.mp h
    unfold insertPage
    split
    · rename_i hlt
      refine List.pairwise_cons.mpr ⟨fun q hq => ?_, h⟩
      rcases List.mem_cons.mp hq with rfl | hmem
      · exact hlt
      · exact UInt32.lt_trans hlt (hfirst q hmem)
    · rename_i hge
      have hlt : first.index < page.index :=
        UInt32.lt_of_le_of_ne (UInt32.not_lt.mp hge) (hnew first List.mem_cons_self)
      refine List.pairwise_cons.mpr
        ⟨fun q hq => ?_, ih hrest fun q hq => hnew q (List.mem_cons_of_mem _ hq)⟩
      rcases List.mem_cons.mp ((insertPage_perm page rest).mem_iff.mp hq) with rfl | hmem
      · exact hlt
      · exact hfirst q hmem

/-- The medium and the pages of the cursor together are the blocks
`disk`: the unchanged pages are those of the medium, and outside of the
table there is no difference. -/
structure Stands (c : Cursor) (medium : UInt32) (p : Plan) (image disk : Nat → Block) : Prop
    extends c.Within p where
  medium_eq : c.medium = medium
  ascending : c.pages.Pairwise fun a b => a.index < b.index
  kept : ∀ page ∈ c.pages, page.changed = false →
    page.block = image (p.linksFrom + page.index.toNat)
  seen_eq : ∀ index : UInt32, index.toNat < p.tableBlocks.toNat →
    c.seen image index = disk (p.linksFrom + index.toNat)
  outside : ∀ n, ¬ p.InTable n → image n = disk n

/-- The pages of a cursor have different numbers. -/
theorem Stands.distinct (h : c.Stands medium p image disk) :
    c.pages.Pairwise fun a b => a.index ≠ b.index :=
  h.ascending.imp UInt32.ne_of_lt

/-- The links that a cursor shows are those in the blocks that it stands
for. -/
theorem Stands.shows (h : c.Stands medium p image disk) :
    c.Shows medium p image (p.catalog disk).link := by
  refine ⟨h.medium_eq, h.start_eq, h.capacity_eq, h.distinct, h.inTable, h.kept, ?_⟩
  -- A link is seen in its table block, which is one of those that the cursor stands for.
  funext entry
  simp only [table, Plan.catalog]
  split
  · rw [h.seen_eq _ (position_index_lt ‹_›), position_index_toNat]
  · rfl

/-- A page is the block that the cursor stands for. -/
theorem Stands.block_eq (h : c.Stands medium p image disk) {page : Page} (hpage : page ∈ c.pages) :
    page.block = disk (p.linksFrom + page.index.toNat) := by
  rw [← h.seen_eq _ (h.inTable page hpage), seen, page?_of_mem h.distinct hpage]

/-- A new cursor stands for the blocks of the medium. -/
theorem exists_open_stands (hp : p.Addressed) (medium : UInt32) (image : Nat → Block)
    {sb : Superblock} (hrecords : sb.recordBlocks = p.recordBlocks)
    (htable : sb.tableBlocks = p.tableBlocks) :
    ∃ c, open_ medium sb = .ok c ∧ c.pages = [] ∧ c.Stands medium p image image := by
  have hstart := hp.linksFrom_lt
  have hplaces := hp.places_lt
  unfold Plan.linksFrom at hstart
  obtain ⟨start, hadd, hstartNat⟩ := Checked.exists_add
    (show (1 : UInt32).toNat + p.recordBlocks.toNat < 4294967296 from hstart)
  have hmul : Checked.mul p.tableBlocks 128 = .ok (p.tableBlocks * 128) := by
    rw [Checked.mul_eq_ok_iff, UInt32.toNat_mul, show (128 : UInt32).toNat = 128 from rfl]
    omega
  have hcapacity := Checked.mul_eq_ok_iff.mp hmul
  rw [show (128 : UInt32).toNat = 128 from rfl, Nat.mul_comm] at hcapacity
  refine ⟨⟨medium, start, p.tableBlocks * 128, []⟩, ?_, rfl, ⟨hstartNat, hcapacity.symm, nofun⟩,
    rfl, List.Pairwise.nil, nofun, fun index _ => ?_, fun _ _ => rfl⟩
  · rw [open_, Superblock.tableStart, Superblock.tableCapacity, hrecords, htable, hadd, hmul]
    rfl
  · show image (start.toNat + index.toNat) = _
    rw [hstartNat]
    rfl

/-- A table block that is read becomes a page. -/
theorem Stands.keep (h : c.Stands medium p image disk) {index : UInt32}
    (hindex : index.toNat < p.tableBlocks.toNat) (hnone : c.page? index = none) :
    (c.keep index (image (p.linksFrom + index.toNat))).Stands medium p image disk where
  toWithin := h.toWithin.keep hindex _
  medium_eq := h.medium_eq
  ascending := insertPage_ascending h.ascending (index_ne_of_page? hnone)
  kept := (h.shows.keep hindex hnone).kept
  seen_eq other hother := by
    rw [seen_keep hnone (by rw [h.start_eq]), h.seen_eq other hother]
  outside := h.outside

/-- A link that is set in a page is set in the blocks that the cursor
stands for. -/
theorem Stands.setLink {t : Direct} (h : c.Stands medium p image t.disk) {entry : Link}
    (link : Link) (hentry : p.HasEntry entry) {page : Page}
    (hpage : c.page? entry.position.1 = some page) :
    (c.alter entry.position.1 (Page.revised (t.revised p entry link))).Stands medium p image
      (t.put p entry link).disk := by
  have hin := position_index_lt hentry
  obtain ⟨hmem, hnumber⟩ := page?_eq_some hpage
  have hblock := hnumber ▸ h.block_eq hmem
  have hshows : (c.alter entry.position.1 (Page.revised (t.revised p entry link))).Shows medium p
      image (Function.update (p.catalog t.disk).link entry link) :=
    h.shows.setLink hentry hpage hblock
  refine ⟨h.toWithin.alter _ fun _ => rfl, h.medium_eq, ?_, hshows.kept, ?_, ?_⟩
  · exact pairwise_alter (· < ·) (fun _ => rfl) h.ascending
  · -- The block of this page is another one on both sides, and no other block is.
    intro other hother
    have hfind : (c.alter entry.position.1 (Page.revised (t.revised p entry link))).page? other =
      _ := page?_alter c entry.position.1 other fun _ => rfl
    simp only [seen, hfind, Direct.put]
    by_cases hsame : other = entry.position.1
    · rw [if_pos hsame, hsame, hpage, Function.update_self]
      rfl
    · have hne : other.toNat ≠ entry.position.1.toNat := fun heq =>
        hsame (UInt32.toNat_inj.mp heq)
      rw [if_neg hsame, Function.update_of_ne fun heq => hne (Nat.add_left_cancel heq)]
      exact h.seen_eq other hother
  · intro n hn
    have hne : n ≠ p.linksFrom + entry.position.1.toNat := fun heq =>
      hn (heq ▸ Plan.inTable_of_lt hin)
    simp only [Direct.put]
    rw [Function.update_of_ne hne]
    exact h.outside n hn

/-- A page that is written to the medium needs no writing any more. -/
theorem Stands.written (h : c.Stands medium p image disk) {page : Page} (hpage : page ∈ c.pages) :
    (c.alter page.index fun kept => { kept with changed := false }).Stands medium p
      (Function.update image (p.linksFrom + page.index.toNat) page.block) disk where
  toWithin := h.toWithin.alter _ fun _ => rfl
  medium_eq := h.medium_eq
  ascending := pairwise_alter (· < ·) (fun _ => rfl) h.ascending
  kept := (h.shows.written hpage).kept
  seen_eq index hindex := by
    rw [← h.seen_eq index hindex, ← h.start_eq]
    exact seen_written h.distinct hpage index
  outside n hn := by
    have hne : n ≠ p.linksFrom + page.index.toNat := fun heq =>
      hn (heq ▸ Plan.inTable_of_lt (h.inTable page hpage))
    rw [Function.update_of_ne hne]
    exact h.outside n hn

/-- Without changed pages the medium has the blocks that the cursor
stands for. -/
theorem Stands.eq_of_clean (h : c.Stands medium p image disk)
    (hclean : ∀ page ∈ c.pages, page.changed = false) : image = disk := by
  funext n
  -- Behind a page that is not changed is the same block, and outside of the table too.
  by_cases hn : p.InTable n
  · obtain ⟨index, hindex, rfl⟩ := hn.exists_index
    rw [← h.seen_eq index hindex]
    unfold seen
    split
    · rename_i page hpage
      obtain ⟨hmem, rfl⟩ := page?_eq_some hpage
      exact (h.kept page hmem (hclean page hmem)).symm
    · rw [h.start_eq]
  · exact h.outside n hn

/-- A change to a page changes no other. -/
theorem alter_pages {before behind : List Page} {page : Page}
    (hdistinct : c.pages.Pairwise fun a b => a.index ≠ b.index)
    (hpages : c.pages = before ++ page :: behind) (f : Page → Page) :
    (c.alter page.index f).pages = before ++ f page :: behind := by
  rw [hpages, List.pairwise_append, List.pairwise_cons] at hdistinct
  obtain ⟨-, ⟨hbehind, -⟩, hbefore⟩ := hdistinct
  -- The pages before and behind have other numbers, so the change passes them by.
  have hsame : ∀ {list : List Page}, (∀ q ∈ list, q.index ≠ page.index) →
      list.map (fun q => if q.index = page.index then f q else q) = list := fun hne =>
    (List.map_congr_left fun q hq => if_neg (hne q hq)).trans (List.map_id' _)
  unfold alter
  rw [hpages, List.map_append, List.map_cons, if_pos rfl,
    hsame fun q hq => hbefore q hq page List.mem_cons_self, hsame fun q hq => (hbehind q hq).symm]

/-! ### The invariant -/

/-- The cursor is in step with a direct table: the blocks that it stands
for are those of the table, its changed pages are those that the table
counts as touched, and no table block was read twice, since every one
that was read is a page. -/
structure Tracks (c : Cursor) (medium : UInt32) (p : Plan) (image : Nat → Block)
    (log : List Request) (t : Direct) : Prop extends c.Stands medium p image t.disk where
  touched_iff : ∀ index, index ∈ t.touched ↔
    ∃ page ∈ c.pages, page.index = index ∧ page.changed = true
  once : ∀ a, log.count (.read a) ≤ 1
  known : ∀ index : UInt32, index.toNat < p.tableBlocks.toNat →
    .read (p.tableAddress medium index) ∈ log → c.page? index ≠ none

variable {log : List Request} {t : Direct}

/-- A change to a page makes none disappear. -/
theorem page?_alter_ne {index other : UInt32} {f : Page → Page}
    (hf : ∀ page, (f page).index = page.index) (h : c.page? other ≠ none) :
    (c.alter index f).page? other ≠ none := by
  rw [page?_alter c index other hf]
  split
  · rwa [ne_eq, Option.map_eq_none_iff]
  · exact h

/-- The table block that is read is one that was not read before. -/
theorem Tracks.keep (hp : p.Addressed) (h : c.Tracks medium p image log t) {index : UInt32}
    (hindex : index.toNat < p.tableBlocks.toNat) (hnone : c.page? index = none) :
    (c.keep index (image (p.linksFrom + index.toNat))).Tracks medium p image
      (log ++ [.read (p.tableAddress medium index)]) t := by
  have hperm := insertPage_perm ⟨index, image (p.linksFrom + index.toNat), false⟩ c.pages
  refine ⟨h.toStands.keep hindex hnone, fun other => ?_, fun a => ?_, fun other hother hread => ?_⟩
  · -- The page that is new is unchanged, so the changed pages are the same.
    rw [h.touched_iff]
    constructor
    · rintro ⟨page, hpage, hnumber⟩
      exact ⟨page, hperm.mem_iff.mpr (List.mem_cons_of_mem _ hpage), hnumber⟩
    · rintro ⟨page, hpage, hnumber, hchanged⟩
      rcases List.mem_cons.mp (hperm.mem_iff.mp hpage) with rfl | hold
      · cases hchanged
      · exact ⟨page, hold, hnumber, hchanged⟩
  · have hold := h.once a
    rw [List.count_append, List.count_singleton]
    split
    · rename_i hsame
      have hnew : log.count (.read a) = 0 := List.count_eq_zero.mpr fun hmem =>
        h.known index hindex (by rwa [beq_iff_eq.mp hsame]) hnone
      omega
    · exact hold
  · have hfind : (c.keep index (image (p.linksFrom + index.toNat))).page? other = _ :=
      find?_insertPage ⟨index, image (p.linksFrom + index.toNat), false⟩ c.pages other
        (index_ne_of_page? hnone)
    rw [hfind]
    split
    · nofun
    · rename_i hne
      refine h.known other hother ((List.mem_append.mp hread).resolve_right fun hmem => hne ?_)
      exact (hp.index_inj hother hindex
        (Request.read.inj (List.mem_singleton.mp hmem))).symm

/-- A link that is set touches its table block. -/
theorem Tracks.setLink (h : c.Tracks medium p image log t) {entry : Link} (link : Link)
    (hentry : p.HasEntry entry) {page : Page} (hpage : c.page? entry.position.1 = some page) :
    (c.alter entry.position.1 (Page.revised (t.revised p entry link))).Tracks medium p image
      log (t.put p entry link) := by
  refine ⟨h.toStands.setLink link hentry hpage, fun index => ?_, h.once, fun index hindex hread =>
    page?_alter_ne (fun _ => rfl) (h.known index hindex hread)⟩
  obtain ⟨hmem, hnumber⟩ := page?_eq_some hpage
  have hchanges : ∀ q : Page, (if q.index = entry.position.1 then
      q.revised (t.revised p entry link) else q).index = q.index := by
    intro q
    split <;> rfl
  show index ∈ entry.position.1 :: t.touched ↔ _
  rw [List.mem_cons, h.touched_iff]
  constructor
  · -- The page that is changed now, or one that was changed before.
    rintro (rfl | ⟨q, hq, hindex, hchanged⟩)
    · refine ⟨_, List.mem_map_of_mem hmem, (hchanges page).trans hnumber, ?_⟩
      rw [if_pos hnumber]
      rfl
    · refine ⟨_, List.mem_map_of_mem hq, (hchanges q).trans hindex, ?_⟩
      split
      · rfl
      · exact hchanged
  · rintro ⟨_, hmem', hindex, hchanged⟩
    obtain ⟨q, hq, rfl⟩ := List.mem_map.mp hmem'
    rw [hchanges q] at hindex
    by_cases hsame : q.index = entry.position.1
    · exact .inl (hindex.symm.trans hsame)
    · rw [if_neg hsame] at hchanged
      exact .inr ⟨q, hq, hindex, hchanged⟩

end Cursor

end BlockLayers.Fat
