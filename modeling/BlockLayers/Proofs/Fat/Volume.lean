import BlockLayers.Fat.Volume
import BlockLayers.Proofs.Fat.Chains
import BlockLayers.Proofs.Fat.Cursor

/-!
# `BlockLayers.Proofs.Fat.Volume`: the steps of a call

The steps of a file system's calls that only read: the superblock, the
record of a file (`locate_ends`), the entry of one of its blocks
(`entryOf_ends`), a run at the head of the free chain (`takeRun_ends`)
and the last entry of a file (`tailOf_ends`). The tables are those of a
catalog whose chains are sound. A step that cannot be done then has no
other reason than its arguments, or a fault of the store below.

The steps that write change one part of the catalog that the store below
keeps (`Keeps`), whatever links the cursor sees that they are made with
(`Sees`).
-/

set_option autoImplicit false

namespace BlockLayers.Fat

/-- What was read of a file is what the catalog has. -/
structure Located.Of (l : Located) (p : Plan) (m : Catalog) (ino : UInt32) : Prop where
  superblock_eq : l.superblock = m.superblock
  number_eq : l.blockNumber.toNat = 1 + ino.toNat / 64
  place_eq : l.place.val = ino.toNat % 64
  record_eq : l.record = m.record ino
  records_eq : ∀ other : UInt32, p.HasFile other → other.toNat / 64 = ino.toNat / 64 →
    recordAt l.block (recordPosition other).2 = m.record other

/-- The superblock that was read has the numbers of the plan. -/
theorem Located.Of.sizes_eq {l : Located} {p : Plan} {m : Catalog} {a : Chains} {ino : UInt32}
    (hl : l.Of p m ino) (hsound : Sound p m a) :
    l.superblock.recordBlocks = p.recordBlocks ∧ l.superblock.tableBlocks = p.tableBlocks := by
  rw [hl.superblock_eq]
  exact ⟨hsound.recordBlocks_eq, hsound.tableBlocks_eq⟩

/-- A cursor on the table that was read sees the links of the medium. -/
theorem Located.Of.cursor {l : Located} {p : Plan} {size : Nat} {image : Nat → Block} {a : Chains}
    {ino : UInt32} (hl : l.Of p (p.catalog image) ino) (fits : p.Usable size)
    (hsound : Sound p (p.catalog image) a) (medium : UInt32) :
    ∃ c, Cursor.open_ medium l.superblock = .ok c ∧
      c.Shows medium p image (p.catalog image).link := by
  obtain ⟨hrecords, htable⟩ := hl.sizes_eq hsound
  exact Cursor.open_shows fits.toSpans hrecords htable

namespace Volume

variable {σ : Type} [Journal σ] {below : Store σ} {v : Volume} {p : Plan} {size : Nat}
  {blame : Fault → σ → Prop} {holds : σ → (Nat → Block) → Prop} {image : Nat → Block}
  {a : Chains} {s : σ}

/-- The record of a file stands in the block for its 64 files. -/
theorem recordPosition_toNat {ino : UInt32} :
    (recordPosition ino).1.toNat = 1 + ino.toNat / 64 := by
  have hlt := ino.toNat_lt
  show (1 + ino / 64).toNat = _
  rw [UInt32.toNat_add, UInt32.toNat_div, UInt32.toNat_one,
    show (64 : UInt32).toNat = 64 from rfl]
  omega

/-- The superblock of a formatted medium is read. -/
theorem superblock_read {shown : Nat → Prop} (hD : Discloses below v.medium shown blame holds)
    (hshown : shown 0)
    (hformatted : (Superblock.decode (image 0)).recordBlocks ≠ 0) (hs : holds s image) :
    Op.Ends (v.superblock below) s
      (fun sb after => sb = Superblock.decode (image 0) ∧ holds after image)
      (fun fault after => holds after image ∧ blame fault after) := by
  refine (hD.read hs (show shown (0 : UInt32).toNat from hshown)).seq ?_
  intro block s' hread
  obtain ⟨rfl, hs'⟩ := hread
  -- The number of record blocks marks a medium as formatted.
  have hmark : (Superblock.decode (image 0)).formatted = true := by
    rw [Superblock.formatted, bne_iff_ne]
    exact hformatted
  rw [UInt32.toNat_zero, if_pos hmark]
  exact Op.Ends.pure ⟨rfl, hs'⟩

/-- The superblock of a medium that is divided is read. -/
theorem superblock_ends (hD : Discloses below v.medium (· < p.dataFrom) blame holds)
    (spans : p.Spans size)
    (hrecords : (p.catalog image).superblock.recordBlocks = p.recordBlocks) (hs : holds s image) :
    Op.Ends (v.superblock below) s
      (fun sb after => sb = (p.catalog image).superblock ∧ holds after image)
      (fun fault after => holds after image ∧ blame fault after) := by
  have hpos := spans.records_pos
  refine superblock_read hD (by unfold Plan.dataFrom Plan.linksFrom; omega) (fun hzero => ?_) hs
  rw [← hrecords, show (p.catalog image).superblock.recordBlocks = 0 from hzero] at hpos
  exact Nat.lt_irrefl 0 hpos

/-- A file is found, or refused because there is no such file. -/
theorem locate_ends (hD : Discloses below v.medium (· < p.dataFrom) blame holds)
    (spans : p.Spans size) (hfiles : 64 * p.recordBlocks.toNat < 4294967296)
    (hrecords : (p.catalog image).superblock.recordBlocks = p.recordBlocks) (hs : holds s image)
    (ino : UInt32) :
    Op.Ends (v.locate below ino) s
      (fun l after => p.HasFile ino ∧ l.Of p (p.catalog image) ino ∧ holds after image)
      (fun fault after => holds after image ∧
        (blame fault after ∨ ¬ p.HasFile ino ∧ fault = .noInode ino (p.recordBlocks * 64))) := by
  refine (superblock_ends hD spans hrecords hs).bind
    (fun _ _ hbad => hbad.imp_right .inl) ?_
  intro sb s' hsb
  obtain ⟨rfl, hs'⟩ := hsb
  refine Op.Ends.lift_seq (Plan.files_ok hfiles hrecords) ?_
  refine Op.Ends.guard (fun hle => ⟨hs', .inr ⟨fun hino => ?_, rfl⟩⟩) fun hgt => ?_
  · rw [UInt32.le_iff_toNat_le, Plan.files_toNat hfiles] at hle
    exact Nat.lt_irrefl _ (Nat.lt_of_lt_of_le hino hle)
  have hino : p.HasFile ino := by
    rw [UInt32.le_iff_toNat_le, Plan.files_toNat hfiles] at hgt
    exact Nat.lt_of_not_le hgt
  have hin : ino.toNat < 64 * p.recordBlocks.toNat := hino
  have hnumber : (recordPosition ino).1.toNat = 1 + ino.toNat / 64 := recordPosition_toNat
  -- The block of records is before the data because the file is one of those there are.
  have hplace : (recordPosition ino).1.toNat < p.dataFrom := by
    unfold Plan.dataFrom Plan.linksFrom
    omega
  refine (hD.read hs' hplace).bind
    (fun _ _ hbad => hbad.imp_right .inl) ?_
  intro block s'' hread
  obtain ⟨rfl, hs''⟩ := hread
  refine Op.Ends.pure ⟨hino, ⟨rfl, hnumber, rfl, ?_, ?_⟩, hs''⟩
  · simp only [Plan.catalog, if_pos hino, hnumber]
    rfl
  · intro other hother hblock
    simp only [Plan.catalog, if_pos hother, hnumber, hblock]

/-- The entry of a block of a file is the one that the links behind the
head of its chain lead to, whatever chain that is. -/
theorem entryOf_passes (hD : Discloses below v.medium (· < p.dataFrom) blame holds)
    (spans : p.Spans size) {l : Located} (hrecords : l.superblock.recordBlocks = p.recordBlocks)
    (htable : l.superblock.tableBlocks = p.tableBlocks) (hs : holds s image) (offset : UInt32) :
    Op.Ends (v.entryOf below l offset) s
      (fun entry after => Cursor.Passes p (p.catalog image).link l.record.head offset.toNat ∧
        entry = (p.catalog image).link^[offset.toNat] l.record.head ∧ holds after image)
      (fun fault after => holds after image ∧ (blame fault after ∨
        ¬ Cursor.Passes p (p.catalog image).link l.record.head offset.toNat ∧
          ∃ damage, fault = .corrupted damage)) := by
  obtain ⟨c, hopen, hshows⟩ := Cursor.open_shows spans hrecords htable
  refine Op.Ends.lift_seq hopen (Op.Ends.withOwn_seq
    (Cursor.walk_passes hD spans l.record.head offset ⟨hshows, hs⟩) (fun _ _ hbad => hbad) ?_)
  rintro _ _ ⟨hpasses, rfl, -, hs'⟩
  exact Op.Ends.pure ⟨hpasses, rfl, hs'⟩

/-- The entry of a block that the file has is the one on its chain. -/
theorem entryOf_ends (hL : Legible below v.medium size blame holds) (fits : p.Usable size)
    (hsound : Sound p (p.catalog image) a) (hs : holds s image) {l : Located} {ino : UInt32}
    (hl : l.Of p (p.catalog image) ino) {offset : UInt32} (hoffset : offset < l.record.blocks) :
    Op.Ends (v.entryOf below l offset) s
      (fun entry after => (a.file ino)[offset.toNat]? = some entry ∧ holds after image)
      (fun fault after => holds after image ∧ blame fault after) := by
  have hlt : offset.toNat < (a.file ino).length := by
    rw [hsound.length_eq, ← hl.record_eq]
    exact UInt32.lt_iff_toNat_lt.mp hoffset
  have hpath := hl.record_eq ▸ hsound.file_path ino
  -- All entries of the file are in the table, so that the walk is not refused.
  have hpasses := Cursor.passes_of_path fits.toSpans hpath
    (fun _ hentry => hsound.hasEntry_file fits hentry) hlt
  obtain ⟨hrecords, htable⟩ := hl.sizes_eq hsound
  refine (entryOf_passes (fits.tables hL) fits.toSpans hrecords htable hs offset).mono ?_ ?_
  · rintro _ _ ⟨-, rfl, hs'⟩
    exact ⟨hpath.getElem?_eq hlt, hs'⟩
  · rintro _ _ ⟨hs', hbad⟩
    exact ⟨hs', hbad.resolve_right fun hno => hno.1 hpasses⟩

section Cursor

variable {c : Cursor} {medium : UInt32} {links : Link → Link}

/-- The first entry of a free chain is taken off, or refused because the
chain has none. -/
theorem takeEntry_ends (hL : Legible below medium size blame holds) (fits : p.Usable size)
    (wanted : UInt32) {path : List Link} {entry : Link}
    (hpath : Path links entry path Link.endMark) (hentries : ∀ e ∈ path, p.HasEntry e)
    (hreads : Cursor.Reads medium p holds image links (c, s)) :
    Op.Ends (takeEntry below wanted entry) (c, s)
      (fun link after => ∃ rest, path = entry :: rest ∧ Path links link rest Link.endMark ∧
        Cursor.Reads medium p holds image links after)
      (fun fault after => holds after.2 image ∧
        (blame fault after.2 ∨ path = [] ∧ fault = .noSpace)) := by
  unfold takeEntry
  dsimp only
  -- An empty chain begins with the end mark, and any other with its first entry.
  cases path with
  | nil =>
    cases hpath
    exact Op.Ends.note_seq (Op.Ends.fail_seq ⟨hL.note _ hreads.2, .inr ⟨rfl, rfl⟩⟩)
  | cons first rest =>
    obtain ⟨rfl, hrest⟩ := hpath
    have hentry : p.HasEntry entry := hentries entry List.mem_cons_self
    rw [fits.isEnd_eq_false hentry]
    refine (Cursor.next_ends (fits.tables hL) fits.toSpans hreads hentry).mono ?_
      fun _ _ hbad => hbad.imp_right .inl
    rintro _ after ⟨rfl, hafter⟩
    exact ⟨rest, rfl, hrest, hafter⟩

/-- A run is taken from the head of the free chain, or refused because
the chain is too short. -/
theorem takeRun_ends (hL : Legible below medium size blame holds) (fits : p.Usable size)
    (wanted : UInt32) {path : List Link} {entry : Link}
    (hpath : Path links entry path Link.endMark) (hentries : ∀ e ∈ path, p.HasEntry e)
    (gap : Nat) (hreads : Cursor.Reads medium p holds image links (c, s)) :
    Op.Ends (takeRun below wanted gap entry) (c, s)
      (fun run after => gap < path.length ∧ run.gap ++ [run.last] = path.take (gap + 1) ∧
        run.rest = (path.drop (gap + 1)).headD Link.endMark ∧
        Cursor.Reads medium p holds image links after)
      (fun fault after => holds after.2 image ∧
        (blame fault after.2 ∨ path.length ≤ gap ∧ fault = .noSpace)) := by
  -- A run of `gap + 1` entries is the head of the chain and then a run of `gap`.
  induction gap generalizing path entry c s with
  | zero =>
    refine (takeEntry_ends hL fits wanted hpath hentries hreads).bind ?_ ?_
    · rintro fault after ⟨hs', hbad⟩
      exact ⟨hs', hbad.imp_right fun hnone => ⟨by simp [hnone.1], hnone.2⟩⟩
    rintro link after ⟨rest, rfl, hrest, hafter⟩
    exact Op.Ends.pure ⟨Nat.succ_pos _, rfl, hrest.head_eq, hafter⟩
  | succ gap ih =>
    refine (takeEntry_ends hL fits wanted hpath hentries hreads).bind ?_ ?_
    · rintro fault after ⟨hs', hbad⟩
      exact ⟨hs', hbad.imp_right fun hnone => ⟨by simp [hnone.1], hnone.2⟩⟩
    rintro link after ⟨rest, rfl, hrest, hafter⟩
    refine (ih hrest (fun e he => hentries e (List.mem_cons_of_mem _ he)) hafter).bind ?_ ?_
    · intro fault state hbad
      exact hbad.imp_right (Or.imp_right (And.imp_left Nat.succ_le_succ))
    · rintro run state ⟨hgap, hrun, hbehind, hstate⟩
      refine Op.Ends.pure ⟨Nat.succ_lt_succ hgap, ?_, hbehind, hstate⟩
      rw [List.cons_append, hrun]
      rfl

/-- The last entry of a file, if it has one. -/
theorem tailOf_ends (hL : Legible below medium size blame holds) (fits : p.Usable size)
    {path : List Link} {record : Record} {stop : Link} (hpath : Path links record.head path stop)
    (hentries : ∀ e ∈ path, p.HasEntry e) (hlength : path.length = record.blocks.toNat)
    (hreads : Cursor.Reads medium p holds image links (c, s)) :
    Op.Ends (tailOf below record) (c, s)
      (fun tail after => tail = path.getLast? ∧ Cursor.Reads medium p holds image links after)
      (fun fault after => holds after.2 image ∧ blame fault after.2) := by
  unfold tailOf
  split
  · rename_i hzero
    rw [hzero, UInt32.toNat_zero, List.length_eq_zero_iff] at hlength
    exact Op.Ends.pure ⟨by rw [hlength]; rfl, hreads⟩
  · rename_i hpos
    have hne : record.blocks.toNat ≠ 0 := fun h => hpos (UInt32.toNat_inj.mp h)
    -- From the head it is one step less to the last entry than there are entries.
    have hsteps : (record.blocks - 1).toNat = path.length - 1 := by
      rw [hlength, UInt32.toNat_sub_of_le _ _ (by
        rw [UInt32.le_iff_toNat_le, UInt32.toNat_one]; omega)]
      rfl
    refine (Cursor.walk_ends (fits.tables hL) fits.toSpans hpath hentries (by omega) hreads).seq ?_
    intro tail after htail
    refine Op.Ends.pure ⟨?_, htail.2⟩
    rw [List.getLast?_eq_getElem?, ← hsteps, htail.1]

end Cursor

/-! ### Single writes -/

section Write

/-- The store below holds a medium with the tables and the data of a
catalog. -/
def Keeps (p : Plan) (holds : σ → (Nat → Block) → Prop) (m : Catalog) (s : σ) : Prop :=
  ∃ image, holds s image ∧ p.catalog image = m

/-- A cursor on such a medium sees the links `links`. -/
def Sees (medium : UInt32) (p : Plan) (holds : σ → (Nat → Block) → Prop) (m : Catalog)
    (links : Link → Link) (state : Cursor × σ) : Prop :=
  ∃ image, p.catalog image = m ∧ Cursor.Reads medium p holds image links state

variable {c : Cursor} {medium : UInt32} {m : Catalog} {links : Link → Link}

omit [Journal σ] in

/-- A cursor that sees links is over tables that are kept. -/
theorem Sees.keeps {state : Cursor × σ} (h : Sees medium p holds m links state) :
    Keeps p holds m state.2 := by
  obtain ⟨image, hm, hreads⟩ := h
  exact ⟨image, hreads.2, hm⟩

/-- A report leaves what a cursor sees. -/
theorem Sees.note {shown : Nat → Prop} (hD : Discloses below medium shown blame holds)
    (event : Event) (hsees : Sees medium p holds m links (c, s)) :
    Sees medium p holds m links (c, Journal.enter event s) := by
  obtain ⟨image, hm, hshows, hs⟩ := hsees
  exact ⟨image, hm, hshows, hD.note event hs⟩

omit [Journal σ] in

/-- The superblock is replaced, and the cursor sees what it saw. -/
theorem writeSuperblock_ends (hT : Takes below v.medium (· < p.dataFrom) blame holds)
    (sb : Superblock) (hsees : Sees v.medium p holds m links (c, s)) :
    Op.Ends (Op.lower (v.writeSuperblock below sb)) (c, s)
      (fun _ after => Sees v.medium p holds { m with superblock := sb } links after)
      (fun fault after => Keeps p holds m after.2 ∧ blame fault after.2) := by
  obtain ⟨image, rfl, hshows, hs⟩ := hsees
  have hzero : (0 : UInt32).toNat < p.dataFrom := by
    rw [UInt32.toNat_zero]
    unfold Plan.dataFrom Plan.linksFrom
    omega
  refine Op.Ends.lower ((hT.write sb.encode hs hzero).mono ?_ ?_)
  · intro _ s' hs'
    refine ⟨_, catalog_writeSuperblock sb, hshows.congr fun i _ => ?_, hs'⟩
    rw [Function.update_of_ne (by unfold Plan.linksFrom; omega)]
  · intro fault s' hbad
    exact ⟨⟨image, hbad.1, rfl⟩, hbad.2⟩

omit [Journal σ] in
/-- The record of a file is replaced. The block that it stands in was
read when the records were those of `m₀`. -/
theorem writeRecord_ends (hT : Takes below v.medium (· < p.dataFrom) blame holds)
    {l : Located} {ino : UInt32} {m₀ : Catalog} (hl : l.Of p m₀ ino) (hino : p.HasFile ino)
    (hrecords : m.record = m₀.record) (record : Record)
    (hsees : Sees v.medium p holds m links (c, s)) :
    Op.Ends (Op.lower (v.writeRecord below l record)) (c, s)
      (fun _ after =>
        Sees v.medium p holds { m with record := Function.update m.record ino record } links after)
      (fun fault after => Keeps p holds m after.2 ∧ blame fault after.2) := by
  obtain ⟨image, rfl, hshows, hs⟩ := hsees
  have hin : ino.toNat < 64 * p.recordBlocks.toNat := hino
  have hnumber := hl.number_eq
  have hplace : l.blockNumber.toNat < p.dataFrom := by
    unfold Plan.dataFrom Plan.linksFrom
    omega
  refine Op.Ends.lower ((hT.write _ hs hplace).mono ?_ ?_)
  · intro _ s' hs'
    have hblock : ∀ other : UInt32, p.HasFile other → other.toNat / 64 = ino.toNat / 64 →
        recordAt l.block (recordPosition other).2 =
          (p.catalog image).record other := by
      rw [hrecords]
      exact hl.records_eq
    -- The records lie before the table, so what the cursor has read is still right.
    refine ⟨_, catalog_writeRecord record hino hnumber hl.place_eq hblock,
      hshows.congr fun i _ => ?_, hs'⟩
    rw [Function.update_of_ne (by unfold Plan.linksFrom; omega)]
  · intro fault s' hbad
    exact ⟨⟨image, hbad.1, rfl⟩, hbad.2⟩

omit [Journal σ] in
/-- A flush writes the links that the cursor sees. -/
theorem flush_ends (hT : Takes below medium (· < p.dataFrom) blame holds)
    (spans : p.Spans size) (hsees : Sees medium p holds m links (c, s)) :
    Op.Ends (Cursor.flush below) (c, s)
      (fun _ after => Sees medium p holds { m with link := links } links after)
      (fun fault after => blame fault after.2 ∧ ∃ table,
        Keeps p holds { m with link := table } after.2 ∧
          ∀ entry, table entry = m.link entry ∨ table entry = links entry) := by
  obtain ⟨image, rfl, hreads⟩ := hsees
  refine (Cursor.flush_ends hT spans hreads).mono ?_ ?_
  · intro _ after hafter
    obtain ⟨image', hreads', hm'⟩ := hafter
    exact ⟨image', hm', hreads'⟩
  · intro fault after hafter
    obtain ⟨image', hs', hblame, table, hm', heither⟩ := hafter
    exact ⟨hblame, table, ⟨image', hs', hm'⟩, heither⟩

omit [Journal σ] in
/-- A flush of a single link leaves the others alone, also when it
fails. -/
theorem flush_ends_one (hT : Takes below medium (· < p.dataFrom) blame holds)
    (spans : p.Spans size) {entry link : Link}
    (hsees : Sees medium p holds m (Function.update m.link entry link) (c, s)) :
    Op.Ends (Cursor.flush below) (c, s)
      (fun _ after => Sees medium p holds { m with link := Function.update m.link entry link }
        (Function.update m.link entry link) after)
      (fun fault after => blame fault after.2 ∧ ∃ kept,
        Keeps p holds { m with link := Function.update m.link entry kept } after.2) := by
  refine (flush_ends hT spans hsees).mono (fun _ _ hgood => hgood) ?_
  intro fault after hafter
  obtain ⟨hblame, table, hkeeps, heither⟩ := hafter
  -- Wherever the flush stopped, only the link of the entry can have come below.
  have htable : table = Function.update m.link entry (table entry) := by
    funext other
    by_cases hother : other = entry
    · rw [hother, Function.update_self]
    · have hsame := heither other
      rw [Function.update_of_ne hother, or_self] at hsame
      rw [Function.update_of_ne hother, hsame]
  exact ⟨hblame, table entry, htable ▸ hkeeps⟩

end Write

end Volume

end BlockLayers.Fat
