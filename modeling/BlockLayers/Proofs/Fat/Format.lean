import BlockLayers.Fat.Format
import BlockLayers.Proofs.Fat.Matches

/-!
# `BlockLayers.Proofs.Fat.Format`: a new file system

Formatting a medium that holds no file system leaves the tables of
`Plan.fresh` on it: no file has blocks, and all entries are on the free
chain in ascending order. The data blocks keep what was in them.

Which blocks that are is said by `Plan.laidOut`. The tables are written
in runs of blocks (`overlay`) and the superblock last, so a medium on
which that failed has its old first block (`Plan.Begun`).

Main statements: `Plan.make_divides` (a plan that is made divides its medium),
`format_lays` (formatting lays the medium out), `format_spares` (a medium
that holds a file system is left alone), `format_ends` and
`formatted_keeps` (formatting leaves the tables of a new file system), and
`fresh_matches` (a new file system matches a map of empty files).
-/

set_option autoImplicit false

namespace BlockLayers

/-- The words that a block is made of are read back. -/
theorem Block.word_ofWords (words : Vector UInt32 128) (i : Fin 128) :
    (Block.ofWords words).word i = words[i] := by
  have hbyte : ∀ k (hk : k < 4), (Block.ofWords words)[4 * i.val + k] = Word.byte words[i] k := by
    intro k hk
    simp only [Block.ofWords, Vector.getElem_ofFn]
    have hdiv : (4 * i.val + k) / 4 = i.val := by omega
    have hmod : (4 * i.val + k) % 4 = k := by omega
    simp only [hdiv, hmod]
    rfl
  have h0 := hbyte 0 (by omega)
  have h1 := hbyte 1 (by omega)
  have h2 := hbyte 2 (by omega)
  have h3 := hbyte 3 (by omega)
  simp only [Nat.add_zero] at h0
  rw [Block.word, h0, h1, h2, h3, Word.ofBytes_byte]

namespace Fat

/-- Every record of a new block of records is empty. -/
theorem recordAt_emptyRecords (place : Fin 64) : recordAt emptyRecords place = Record.empty := by
  -- A place keeps its empty record, whatever other places are set.
  have hfold : ∀ (places : List (Fin 64)) (block : Block),
      recordAt block place = Record.empty ∨ place ∈ places →
      recordAt (places.foldl (fun block place => setRecord block place Record.empty) block) place =
        Record.empty := by
    intro places
    induction places with
    | nil =>
      intro block h
      exact h.resolve_right (by simp)
    | cons first rest ih =>
      intro block h
      refine ih _ ?_
      by_cases hfirst : place = first
      · subst hfirst
        exact .inl (record_setRecord_self _ _ _)
      · rw [record_setRecord_of_ne _ _ hfirst]
        exact h.imp_right fun hmem => (List.mem_cons.mp hmem).resolve_left hfirst
  exact hfold _ _ (.inr (List.mem_finRange place))

namespace Plan

variable {p : Plan} {size : Nat}

/-! ### Plans that are made -/

/-- A quotient rounded up. -/
theorem ceilDiv_toNat (a : UInt32) {b : UInt32} (hb : 1 < b.toNat) :
    (ceilDiv a b).toNat = a.toNat / b.toNat + if a.toNat % b.toNat = 0 then 0 else 1 := by
  have hzero : a % b = 0 ↔ a.toNat % b.toNat = 0 := by
    rw [← UInt32.toNat_inj, UInt32.toNat_mod]
    rfl
  have hlt : a.toNat / b.toNat < 4294967295 := by
    have ha := a.toNat_lt
    have hle : a.toNat / b.toNat ≤ a.toNat / 2 := Nat.div_le_div_left hb (by decide)
    omega
  unfold ceilDiv
  split
  · rename_i h
    rw [if_pos (hzero.mp h), UInt32.toNat_div, Nat.add_zero]
  · rename_i h
    rw [if_neg fun hmod => h (hzero.mpr hmod), UInt32.toNat_add, UInt32.toNat_div,
      UInt32.toNat_one, Nat.mod_eq_of_lt (by omega)]

/-- The blocks of records that a number of files takes. -/
theorem ceilDiv_files (files : UInt32) : (ceilDiv files 64).toNat = (files.toNat + 63) / 64 := by
  have h := ceilDiv_toNat files (show 1 < (64 : UInt32).toNat by decide)
  rw [show (64 : UInt32).toNat = 64 from rfl] at h
  split at h <;> omega

/-- The table blocks that a number of blocks behind the records takes. -/
theorem ceilDiv_rest (rest : UInt32) : (ceilDiv rest 129).toNat = (rest.toNat + 128) / 129 := by
  have h := ceilDiv_toNat rest (show 1 < (129 : UInt32).toNat by decide)
  rw [show (129 : UInt32).toNat = 129 from rfl] at h
  split at h <;> omega

/-- What a plan that is made is made of. -/
theorem make_eq_ok {total files : UInt32} (h : make total files = .ok p) :
    ∃ before entries, files ≠ 0 ∧ Checked.add 1 (ceilDiv files 64) = .ok before ∧
      before ≤ total ∧ Checked.sub (total - before) (ceilDiv (total - before) 129) = .ok entries ∧
      entries ≠ 0 ∧ p = ⟨ceilDiv files 64, ceilDiv (total - before) 129, entries⟩ := by
  -- Each test of the plan takes one branch off, and the last leaves the plan itself.
  unfold make at h
  split at h
  · cases h
  rename_i hne
  dsimp only at h
  cases hbefore : Checked.add 1 (ceilDiv files 64) with
  | error => rw [hbefore] at h; cases h
  | ok before =>
    rw [hbefore] at h
    change (if total < before then _ else _) = _ at h
    split at h
    · cases h
    rename_i hroom
    cases hentries : Checked.sub (total - before) (ceilDiv (total - before) 129) with
    | error => rw [hentries] at h; cases h
    | ok entries =>
      rw [hentries] at h
      change (if entries = 0 then _ else _) = _ at h
      split at h
      · cases h
      rename_i hsome
      cases h
      exact ⟨before, entries, hne, rfl, UInt32.not_lt.mp hroom, hentries, hsome, rfl⟩

/-- A plan that is made divides a medium of the size that it was made
for. -/
theorem make_divides {total files : UInt32} (h : make total files = .ok p) :
    p.Divides total.toNat := by
  obtain ⟨before, entries, hne, hbefore, hroom, hentries, hsome, rfl⟩ := make_eq_ok h
  have hfilesPos : files.toNat ≠ 0 := fun h => hne (UInt32.toNat_inj.mp h)
  have hentriesPos : entries.toNat ≠ 0 := fun h => hsome (UInt32.toNat_inj.mp h)
  have htotal := total.toNat_lt
  have hrecords := ceilDiv_files files
  have htable := ceilDiv_rest (total - before)
  rw [Checked.add_eq_ok_iff, UInt32.toNat_one] at hbefore
  rw [Checked.sub_eq_ok_iff] at hentries
  rw [UInt32.le_iff_toNat_le] at hroom
  rw [UInt32.toNat_sub_of_le _ _ (UInt32.le_iff_toNat_le.mpr hroom)] at hentries htable
  -- One of every 129 blocks behind the records is for the table, so it has room for all entries.
  have hlinks : 128 * (ceilDiv (total - before) 129).toNat < 4294967296 := by omega
  have hmost : entries.toNat ≤ 128 * (ceilDiv (total - before) 129).toNat := by omega
  refine ⟨⟨?_, hlinks, ?_, htotal⟩, Nat.pos_of_ne_zero hentriesPos, hmost⟩
  · dsimp only
    omega
  · simp only [dataFrom, linksFrom]
    omega

/-- The number of files of a plan is the one that was asked for, rounded
up to whole blocks of records. -/
theorem make_recordBlocks {total files : UInt32} (h : make total files = .ok p) :
    p.recordBlocks.toNat = (files.toNat + 63) / 64 := by
  obtain ⟨before, entries, -, -, -, -, -, rfl⟩ := make_eq_ok h
  exact ceilDiv_files files

/-- The files of a plan can be numbered where those asked for can. -/
theorem make_files_lt {total files : UInt32} (h : make total files = .ok p)
    (hfiles : 64 * ((files.toNat + 63) / 64) < 4294967296) :
    64 * p.recordBlocks.toNat < 4294967296 := by
  rwa [make_recordBlocks h]

/-- A plan that is made for files that can be numbered is usable. -/
theorem make_usable {total files : UInt32} (h : make total files = .ok p)
    (hfiles : 64 * ((files.toNat + 63) / 64) < 4294967296) : p.Usable total.toNat :=
  Fits.toUsable ⟨make_divides h, make_files_lt h hfiles⟩

/-! ### The tables of a new file system -/

/-- The link of an entry in a new file system: the entry after it, or
the end mark for the last one and those behind it. -/
def freshLink (p : Plan) (entry : Link) : Link :=
  if entry.word.toNat + 1 < p.entries.toNat then ⟨entry.word + 1⟩ else Link.endMark

/-- The tables of a new file system. -/
def fresh (p : Plan) (data : Link → Block) : Catalog where
  superblock := p.superblock
  record _ := Record.empty
  link := p.freshLink
  data := data

/-- The link that is written for an entry. -/
theorem firstLink_ok (divides : p.Divides size) {entry : Link}
    (hindex : entry.position.1.toNat < p.tableBlocks.toNat) :
    p.firstLink entry.position.1 entry.position.2 = .ok (p.freshLink entry) := by
  have hplaces := divides.places_lt
  have hposition : entry.position.1.toNat = entry.word.toNat / 128 :=
    Cursor.position_index_toNat entry
  have hplace : (UInt32.ofNat entry.position.2.val).toNat = entry.word.toNat % 128 :=
    UInt32.toNat_ofNat_of_lt' (Nat.lt_trans entry.position.2.isLt (by decide))
  have hlt := entry.word.toNat_lt
  -- Neither the number of the first entry of the block nor that of this one overflows.
  have hmul : Checked.mul entry.position.1 128 = .ok (entry.position.1 * 128) := by
    rw [Checked.mul_eq_ok_iff, UInt32.toNat_mul, show (128 : UInt32).toNat = 128 from rfl]
    omega
  have hfirst : (entry.position.1 * 128).toNat = entry.word.toNat / 128 * 128 := by
    rw [← Checked.mul_eq_ok_iff.mp hmul, hposition]
    rfl
  have hadd : Checked.add (entry.position.1 * 128) (UInt32.ofNat entry.position.2.val) =
      .ok entry.word := by
    rw [Checked.add_eq_ok_iff, hfirst, hplace]
    omega
  obtain ⟨after, hafter, hafterNat⟩ := Checked.exists_add
    (show entry.word.toNat + (1 : UInt32).toNat < 4294967296 by
      rw [UInt32.toNat_one]; omega)
  have hsum : after = entry.word + 1 := by
    rw [← UInt32.toNat_inj, hafterNat, Checked.toNat_succ (by omega), UInt32.toNat_one]
  rw [firstLink, hmul]
  change (Checked.add (entry.position.1 * 128) _ >>= _) = _
  rw [hadd]
  change (Checked.add entry.word 1 >>= _) = _
  rw [hafter]
  -- Whether there is a next entry is decided on the numbers of the two.
  have hcond : after < p.entries ↔ entry.word.toNat + 1 < p.entries.toNat := by
    rw [UInt32.lt_iff_toNat_lt, hafterNat]
    rfl
  show Except.ok (if after < p.entries then _ else _) = Except.ok _
  simp only [freshLink, hcond, ← hsum]

/-- A block of the table of a new file system. -/
def freshTable (p : Plan) (index : Nat) : Block :=
  Block.ofWords ((Vector.finRange 128).map fun place =>
    (p.freshLink ⟨UInt32.ofNat (128 * index + place.val)⟩).word)

/-- The entry at a place of the table. -/
theorem position_ofNat {index place : Nat} (hplace : place < 128)
    (hlt : 128 * index + place < 4294967296) :
    (⟨UInt32.ofNat (128 * index + place)⟩ : Link).position =
      (UInt32.ofNat index, ⟨place, hplace⟩) := by
  have hword : (UInt32.ofNat (128 * index + place)).toNat = 128 * index + place :=
    UInt32.toNat_ofNat_of_lt' hlt
  have hindex : (UInt32.ofNat index).toNat = index :=
    UInt32.toNat_ofNat_of_lt' (by show index < 4294967296; omega)
  refine Prod.ext ?_ (Fin.ext ?_)
  · rw [← UInt32.toNat_inj, Cursor.position_index_toNat, hword, hindex]
    omega
  · show (UInt32.ofNat (128 * index + place)).toNat % 128 = place
    rw [hword]
    omega

/-- The block that is written has these links. -/
theorem tableBlock_ok (divides : p.Divides size) {index : UInt32}
    (hindex : index.toNat < p.tableBlocks.toNat) :
    p.tableBlock index = .ok (p.freshTable index.toNat) := by
  have hplaces := divides.places_lt
  -- No link of the block overflows, so the block is made of pure links.
  have hlinks : p.firstLink index =
      fun place => pure (p.freshLink ⟨UInt32.ofNat (128 * index.toNat + place.val)⟩) := by
    funext place
    have hposition := position_ofNat place.isLt
      (show 128 * index.toNat + place.val < 4294967296 by omega)
    rw [UInt32.ofNat_toNat] at hposition
    have hlink := firstLink_ok divides (by rw [hposition]; exact hindex)
    rw [hposition] at hlink
    exact hlink
  rw [tableBlock, hlinks, Vector.mapM_pure]
  show Except.ok _ = Except.ok _
  rw [Vector.map_map]
  rfl

/-- The link of an entry stands in its place of the table. -/
theorem linkAt_freshTable (p : Plan) (entry : Link) :
    linkAt (p.freshTable entry.position.1.toNat) entry.position.2 = p.freshLink entry := by
  have hword : 128 * entry.position.1.toNat + entry.position.2.val = entry.word.toNat := by
    rw [Cursor.position_index_toNat]
    exact Nat.div_add_mod _ _
  rw [linkAt, freshTable, Block.word_ofWords]
  simp only [Fin.getElem_fin, Vector.getElem_map, Vector.getElem_finRange, Fin.eta, hword,
    UInt32.ofNat_toNat]

/-! ### The medium of a new file system -/

/-- The medium that a plan lays out: the tables are new, and the data
blocks are those of the image. -/
def laidOut (p : Plan) (image : Nat → Block) (n : Nat) : Block :=
  if n = 0 then p.superblock.encode
  else if n < p.linksFrom then emptyRecords
  else if n < p.dataFrom then p.freshTable (n - p.linksFrom)
  else image n

/-- The medium while a plan lays it out: the superblock is not written
yet, and no data block will be. -/
def Begun (p : Plan) (image image' : Nat → Block) : Prop :=
  image' 0 = image 0 ∧ ∀ n, p.dataFrom ≤ n → image' n = image n

/-- Laying out once more makes the same of a medium that was begun. -/
theorem Begun.laidOut_eq {image image' : Nat → Block} (h : p.Begun image image') :
    p.laidOut image' = p.laidOut image := by
  funext n
  simp only [laidOut]
  split_ifs
  · rfl
  · rfl
  · rfl
  · exact h.2 n (by omega)

/-- The data blocks come behind the table. -/
theorem linksFrom_le_dataFrom (p : Plan) : p.linksFrom ≤ p.dataFrom := Nat.le_add_right _ _

/-- The tables of a medium that was laid out are those of a new file
system. -/
theorem catalog_laidOut (divides : p.Divides size) (image : Nat → Block) :
    p.catalog (p.laidOut image) = p.fresh (p.catalog image).data := by
  have htables := p.linksFrom_le_dataFrom
  ext1
  · simp only [catalog, fresh, laidOut, if_pos, Superblock.decode_encode]
  · funext ino
    simp only [catalog, fresh]
    split
    · rename_i hino
      have hin : ino.toNat < 64 * p.recordBlocks.toNat := hino
      rw [laidOut, if_neg (by omega), if_pos (by unfold linksFrom; omega), recordAt_emptyRecords]
    · rfl
  · funext entry
    simp only [catalog, fresh]
    split
    · rename_i hentry
      have hin := Cursor.position_index_lt hentry
      rw [Cursor.position_index_toNat] at hin
      have hlink := p.linkAt_freshTable entry
      rw [Cursor.position_index_toNat] at hlink
      rw [laidOut, if_neg (by unfold linksFrom; omega), if_neg (by omega),
        if_pos (by unfold dataFrom; omega), Nat.add_sub_cancel_left, hlink]
    · -- A number without a place in the table is none of an entry.
      rename_i hentry
      have hout : ¬ entry.word.toNat < 128 * p.tableBlocks.toNat := hentry
      have hle := divides.entries_le
      rw [freshLink, if_neg (by omega)]
  · funext entry
    simp only [catalog, fresh, laidOut]
    rw [if_neg (by unfold dataFrom linksFrom; omega), if_neg (by omega), if_neg (by omega)]

end Plan

/-! ### Writing the tables -/

/-- An image with other blocks from the place `first` to before `last`. -/
def overlay (first last : Nat) (blocks image : Nat → Block) (n : Nat) : Block :=
  if first ≤ n ∧ n < last then blocks n else image n

section Overlay

variable {first last n : Nat} {blocks image : Nat → Block}

/-- Outside the places the blocks stay. -/
theorem overlay_of_out (h : n < first ∨ last ≤ n) : overlay first last blocks image n = image n :=
  if_neg (by omega)

/-- At the places stand the other blocks. -/
theorem overlay_of_in (hle : first ≤ n) (hlt : n < last) :
    overlay first last blocks image n = blocks n := if_pos ⟨hle, hlt⟩

/-- Nothing is changed at no place. -/
theorem overlay_self : overlay first first blocks image = image :=
  funext fun _ => overlay_of_out (by omega)

/-- The blocks may be written from the first one on. -/
theorem overlay_succ (h : first < last) :
    overlay (first + 1) last blocks (Function.update image first (blocks first)) =
      overlay first last blocks image := by
  funext n
  by_cases hn : n = first
  · rw [hn, overlay_of_out (.inl (by omega)), overlay_of_in (Nat.le_refl _) h, Function.update_self]
  · by_cases hin : first ≤ n ∧ n < last
    · rw [overlay_of_in (by omega) hin.2, overlay_of_in hin.1 hin.2]
    · rw [overlay_of_out (by omega), overlay_of_out (by omega), Function.update_of_ne hn]

end Overlay

namespace Volume

variable {σ : Type} [Journal σ] {below : Store σ} {v : Volume} {p : Plan} {size : Nat}
  {blame : Fault → σ → Prop} {holds : σ → (Nat → Block) → Prop} {image : Nat → Block} {s : σ}

/-- One block is written to a number of places in turn. -/
theorem writeAll_ends {room : Nat} (hP : Permits below v.medium size (· < room) blame holds)
    (hword : room < 4294967296) (block : Block) {left : Nat} {number : UInt32}
    (hroom : number.toNat + left ≤ room) (hs : holds s image) :
    Op.Ends (v.writeAll below block left number) s
      (fun _ after => holds after
        (overlay number.toNat (number.toNat + left) (fun _ => block) image))
      (fun fault after => blame fault after ∧ ∃ image', holds after image' ∧
        ∀ n, n < number.toNat ∨ number.toNat + left ≤ n → image' n = image n) := by
  -- By induction on the places that are left, over the image so far.
  induction left generalizing number image s with
  | zero =>
    refine Op.Ends.pure ?_
    rw [Nat.add_zero, overlay_self]
    exact hs
  | succ left ih =>
    refine (hP.write block hs (by omega)).bind ?_ ?_
    · intro fault after hbad
      exact ⟨hbad.2, image, hbad.1, fun _ _ => rfl⟩
    intro _ after hafter
    have hnext : (number + 1).toNat = number.toNat + 1 := Checked.toNat_succ (by omega)
    refine (ih (by omega) hafter).mono ?_ ?_
    · intro _ final hfinal
      rw [hnext, Nat.add_right_comm, Nat.add_assoc, overlay_succ (by omega)] at hfinal
      exact hfinal
    · intro fault final hfinal
      obtain ⟨hblame, image', hs', hsame⟩ := hfinal
      refine ⟨hblame, image', hs', fun n hn => ?_⟩
      rw [hsame n (by omega), Function.update_of_ne (by omega)]

/-- The blocks of the table are written in turn. -/
theorem writeTable_ends (hP : Permits below v.medium size (· < p.dataFrom) blame holds)
    (divides : p.Divides size) {start : UInt32} (hstart : start.toNat = p.linksFrom) {left : Nat}
    {index : UInt32} (hleft : index.toNat + left = p.tableBlocks.toNat) (hs : holds s image) :
    Op.Ends (v.writeTable below p start left index) s
      (fun _ after => holds after
        (overlay (p.linksFrom + index.toNat) p.dataFrom (fun n => p.freshTable (n - p.linksFrom))
          image))
      (fun fault after => blame fault after ∧ ∃ image', holds after image' ∧
        ∀ n, n < p.linksFrom + index.toNat ∨ p.dataFrom ≤ n → image' n = image n) := by
  have hsize := divides.size_eq
  have hlt := divides.size_lt
  have hplaces := divides.places_lt
  have hdata : p.dataFrom = p.linksFrom + p.tableBlocks.toNat := rfl
  induction left generalizing index image s with
  | zero =>
    refine Op.Ends.pure ?_
    rw [show p.dataFrom = p.linksFrom + index.toNat by omega, overlay_self]
    exact hs
  | succ left ih =>
    have hblock := Plan.tableBlock_ok divides (show index.toNat < p.tableBlocks.toNat by omega)
    obtain ⟨number, hnumber, hnumberNat⟩ := Checked.exists_add
      (show start.toNat + index.toNat < 4294967296 by omega)
    refine Op.Ends.lift_seq hblock (Op.Ends.lift_seq hnumber
      ((hP.write _ hs (by omega)).bind ?_ ?_))
    · intro fault after hbad
      exact ⟨hbad.2, image, hbad.1, fun _ _ => rfl⟩
    intro _ after hafter
    rw [hnumberNat, hstart] at hafter
    -- What is written next begins one block further on.
    have hnext : (index + 1).toNat = index.toNat + 1 := Checked.toNat_succ (by omega)
    refine (ih (by omega) hafter).mono ?_ ?_
    · intro _ final hfinal
      have hfirst : p.freshTable index.toNat =
          p.freshTable (p.linksFrom + index.toNat - p.linksFrom) := by rw [Nat.add_sub_cancel_left]
      rw [hnext, ← Nat.add_assoc, hfirst, overlay_succ (by omega)] at hfinal
      exact hfinal
    · intro fault final hfinal
      obtain ⟨hblame, image', hs', hsame⟩ := hfinal
      refine ⟨hblame, image', hs', fun n hn => ?_⟩
      rw [hsame n (by omega), Function.update_of_ne (by omega)]

/-- The medium is laid out. Until the superblock is written, which is the
last thing that is done, it is only begun. -/
theorem layOut_ends (hP : Permits below v.medium size (· < p.dataFrom) blame holds)
    (divides : p.Divides size) (hs : holds s image) :
    Op.Ends (v.layOut below p) s (fun _ after => holds after (p.laidOut image))
      (fun fault after => blame fault after ∧ ∃ image', holds after image' ∧
        p.Begun image image') := by
  have hsize := divides.size_eq
  have hlt := divides.size_lt
  have hone : (1 : UInt32).toNat = 1 := rfl
  have hzero : (0 : UInt32).toNat = 0 := rfl
  have hlinks : p.linksFrom = 1 + p.recordBlocks.toNat := rfl
  have hdata : p.dataFrom = p.linksFrom + p.tableBlocks.toNat := rfl
  obtain ⟨start, hstart, hstartNat⟩ := Checked.exists_add
    (show (1 : UInt32).toNat + p.recordBlocks.toNat < 4294967296 by omega)
  refine Op.Ends.lift_seq hstart
    ((writeAll_ends hP (by omega) emptyRecords (by omega) hs).bind ?_ ?_)
  · intro fault after hbad
    obtain ⟨hblame, image', hs', hsame⟩ := hbad
    exact ⟨hblame, image', hs', hsame 0 (by omega), fun n hn => hsame n (by omega)⟩
  intro _ s₁ hs₁
  refine (writeTable_ends hP divides hstartNat (by omega) hs₁).bind ?_ ?_
  · intro fault after hbad
    obtain ⟨hblame, image', hs', hsame⟩ := hbad
    refine ⟨hblame, image', hs', ?_, fun n hn => ?_⟩
    · rw [hsame 0 (by omega), overlay_of_out (by omega)]
    · rw [hsame n (by omega), overlay_of_out (by omega)]
  intro _ s₂ hs₂
  refine (hP.write p.superblock.encode hs₂ (by omega)).mono ?_ ?_
  · intro _ after hafter
    -- The runs of blocks lie behind each other, so each place has what was written to it.
    have hdone : p.laidOut image = Function.update (overlay p.linksFrom p.dataFrom
        (fun n => p.freshTable (n - p.linksFrom))
        (overlay 1 p.linksFrom (fun _ => emptyRecords) image)) 0 p.superblock.encode := by
      funext n
      grind [Plan.laidOut, Function.update_apply, overlay]
    rw [hdone]
    exact hafter
  · intro fault after hbad
    refine ⟨hbad.2, _, hbad.1, ?_, fun n hn => ?_⟩
    · rw [overlay_of_out (by omega), overlay_of_out (by omega)]
    · rw [overlay_of_out (by omega), overlay_of_out (by omega)]

/-- A report of a new file system changes nothing. The number of files
that it gives is worked out only if the report is kept. -/
theorem announce_ends (hL : Legible below v.medium size blame holds)
    (hfiles : 64 * p.recordBlocks.toNat < 4294967296 ∨ ∀ s : σ, Journal.keeps s .info = false)
    (total : UInt32) {bad : Fault → σ → Prop} (hs : holds s image) :
    Op.Ends (v.announce total p) s (fun _ after => holds after image) bad := by
  refine Op.Ends.keeps_seq ?_
  split
  · rename_i hkeeps
    replace hfiles := hfiles.resolve_right fun hquiet => by rw [hquiet] at hkeeps; cases hkeeps
    exact Op.Ends.lift_seq (Plan.files_ok hfiles rfl) (Op.Ends.note (hL.note _ hs))
  · exact Op.Ends.pure hs

/-- What a report of a new file system ends with is no fault. -/
theorem announce_ne_fault {total : UInt32} {s' : σ} {fault : Fault} :
    v.announce total p s ≠ .error (.fault fault) s' := by
  intro hrun
  rw [announce, Op.bind_of_ok (show Op.keeps .info s = .ok _ s from rfl)] at hrun
  split at hrun
  · cases hcount : p.superblock.files with
    | ok count =>
      rw [hcount] at hrun
      cases hrun
    | error abort =>
      rw [hcount] at hrun
      cases hrun
  · cases hrun

/-- A medium that holds no file system is laid out by its plan. -/
theorem format_lays (hP : Permits below v.medium size (· < p.dataFrom) blame holds)
    {total files : UInt32} (hplan : Plan.make total files = .ok p) (htotal : total.toNat = size)
    (divides : p.Divides size)
    (hfiles : 64 * p.recordBlocks.toNat < 4294967296 ∨ ∀ s : σ, Journal.keeps s .info = false)
    (hempty : (Superblock.decode (image 0)).formatted = false) (hs : holds s image) :
    Op.Ends (v.format below files) s (fun _ after => holds after (p.laidOut image))
      (fun fault after => blame fault after ∧ ∃ image', holds after image' ∧
        p.Begun image image') := by
  have hsize := divides.size_eq
  have hpos := divides.entries_pos
  have hspared : ∀ {fault : Fault} {after : σ}, holds after image ∧ blame fault after →
      blame fault after ∧ ∃ image', holds after image' ∧ p.Begun image image' :=
    fun hbad => ⟨hbad.2, image, hbad.1, rfl, fun _ _ => rfl⟩
  refine (hP.size hs).bind (fun _ _ hbad => hspared hbad) ?_
  intro count s₁ h
  obtain ⟨hcount, hs₁⟩ := h
  -- The store told the size of the medium, for which the plan was made.
  obtain rfl : count = total := UInt32.toNat_inj.mp (hcount.trans htotal.symm)
  refine Op.Ends.guard (fun hzero => ?_) fun _ => ?_
  · rw [hzero, UInt32.toNat_zero] at hcount
    omega
  refine (hP.read hs₁ (show (0 : UInt32).toNat < size by
    rw [UInt32.toNat_zero]; omega)).bind (fun _ _ hbad => hspared hbad) ?_
  intro first s₂ h
  obtain ⟨rfl, hs₂⟩ := h
  rw [UInt32.toNat_zero, hempty]
  refine Op.Ends.ofResult_seq hplan ((layOut_ends hP divides hs₂).seq ?_)
  intro _ s₃ hs₃
  exact announce_ends hP.toLegible hfiles count hs₃

/-- A medium that holds a file system is left as it is. -/
theorem format_spares (hL : Legible below v.medium size blame holds) (hpos : 0 < size)
    (hformatted : (Superblock.decode (image 0)).formatted = true) (files : UInt32)
    (hs : holds s image) :
    Op.Ends (v.format below files) s (fun _ after => holds after image)
      (fun fault after => holds after image ∧ blame fault after) := by
  refine (hL.size hs).seq ?_
  intro count s₁ h
  obtain ⟨hcount, hs₁⟩ := h
  refine Op.Ends.guard (fun hzero => ?_) fun _ => ?_
  · rw [hzero, UInt32.toNat_zero] at hcount
    omega
  refine (hL.read hs₁ (show (0 : UInt32).toNat < size from hpos)).seq ?_
  intro first s₂ h
  obtain ⟨rfl, hs₂⟩ := h
  rw [UInt32.toNat_zero, if_pos hformatted]
  exact Op.Ends.note (hL.note _ hs₂)

/-- A medium that holds no file system is formatted by its plan. -/
theorem format_ends (hM : Medium below v.medium size blame holds) {total files : UInt32}
    (hplan : Plan.make total files = .ok p) (htotal : total.toNat = size) (divides : p.Divides size)
    (hfiles : 64 * p.recordBlocks.toNat < 4294967296 ∨ ∀ s : σ, Journal.keeps s .info = false)
    (hempty : (Superblock.decode (image 0)).formatted = false) (hs : holds s image) :
    Op.Ends (v.format below files) s
      (fun _ after => Keeps p holds (p.fresh (p.catalog image).data) after) blame :=
  (format_lays (hM.toPermits.restrict divides.tables_lt) hplan htotal divides hfiles hempty hs).mono
    (fun _ _ hafter => ⟨_, hafter, Plan.catalog_laidOut divides image⟩) fun _ _ hbad => hbad.1

/-- A medium that held no file system, and on which formatting
succeeded, was divided by a plan and has the tables of a new one. -/
theorem formatted_keeps (hM : Medium below v.medium size blame holds)
    (hquiet : ∀ s : σ, Journal.keeps s .info = false) {total files : UInt32}
    (htotal : total.toNat = size)
    (hempty : 0 < size → (Superblock.decode (image 0)).formatted = false)
    (hs : holds s image) {after : σ} (hformat : v.format below files s = .ok () after) :
    ∃ p data, Plan.make total files = .ok p ∧ Keeps p holds (p.fresh data) after := by
  have hplan : 0 < size ∧ ∃ p, Plan.make total files = .ok p := by
    obtain ⟨count, s₁, hcount, hrest⟩ := Op.exists_of_bind_ok hformat
    obtain ⟨hcountNat, hs₁⟩ := (hM.size hs).good_of hcount
    obtain rfl : count = total := UInt32.toNat_inj.mp (hcountNat.trans htotal.symm)
    dsimp only at hrest
    split at hrest
    · cases hrest
    rename_i hsome
    have hpos : 0 < size := by
      rw [← htotal]
      exact Nat.pos_of_ne_zero fun h => hsome (UInt32.toNat_inj.mp h)
    obtain ⟨first, s₂, hfirst, hrest⟩ := Op.exists_of_bind_ok hrest
    obtain ⟨rfl, hs₂⟩ := (hM.read hs₁ (show (0 : UInt32).toNat < size from hpos)).good_of hfirst
    -- Without a plan a medium that holds no file system is refused.
    cases hplan : Plan.make count files with
    | ok p => exact ⟨hpos, p, rfl⟩
    | error stop =>
      rw [UInt32.toNat_zero, hempty hpos, hplan] at hrest
      cases hrest
  -- With the plan at hand formatting is known to lay it out.
  obtain ⟨hpos, p, hplan⟩ := hplan
  exact ⟨p, _, hplan, (format_ends hM hplan htotal (htotal ▸ Plan.make_divides hplan) (.inr hquiet)
    (hempty hpos) hs).good_of hformat⟩

/-! ### The chains of a new file system -/

/-- The chains of a new file system. -/
def freshChains (p : Plan) : Chains where
  free := (List.range p.entries.toNat).map fun n => ⟨UInt32.ofNat n⟩
  file _ := []
  rest _ := Link.endMark

/-- The free chain of a new file system from an entry on. -/
theorem path_fresh (p : Plan) {n count : Nat} (hcount : n + count = p.entries.toNat) :
    Path p.freshLink (if n < p.entries.toNat then ⟨UInt32.ofNat n⟩ else Link.endMark)
      ((List.range' n count).map fun n => ⟨UInt32.ofNat n⟩) Link.endMark := by
  have hlt := p.entries.toNat_lt
  -- The chain is the ascending list of the numbers that are left.
  induction count generalizing n with
  | zero =>
    rw [if_neg (by omega)]
    rfl
  | succ count ih =>
    rw [if_pos (by omega), List.range'_succ, List.map_cons]
    refine ⟨rfl, ?_⟩
    have hnat : (UInt32.ofNat n).toNat = n :=
      UInt32.toNat_ofNat_of_lt' (by show n < 4294967296; omega)
    have hnext : UInt32.ofNat n + 1 = UInt32.ofNat (n + 1) := by
      rw [UInt32.ofNat_add]
      rfl
    have hrest := ih (n := n + 1) (by omega)
    rw [Plan.freshLink, hnat, hnext]
    exact hrest

/-- The tables of a new file system are sound. -/
theorem fresh_sound (divides : p.Divides size) (data : Link → Block) :
    Sound p (p.fresh data) (freshChains p) := by
  have hlt := p.entries.toNat_lt
  have hnat : ∀ n ∈ List.range p.entries.toNat, (UInt32.ofNat n).toNat = n := by
    intro n hn
    rw [List.mem_range] at hn
    exact UInt32.toNat_ofNat_of_lt' (by show n < 4294967296; omega)
  refine ⟨rfl, rfl, ⟨?_, fun _ => List.nodup_nil, by simp [freshChains], by simp [freshChains], ?_,
    by simp [freshChains]⟩, ?_, fun _ => rfl, fun _ => rfl, fun _ => ⟨fun _ => rfl, fun _ => rfl⟩⟩
  · refine List.Nodup.map_on ?_ List.nodup_range
    intro n hn k hk heq
    have hword : UInt32.ofNat n = UInt32.ofNat k := congrArg Link.word heq
    rw [← hnat n hn, ← hnat k hk, hword]
  · intro entry hentry
    obtain ⟨n, hn, rfl⟩ := List.mem_map.mp hentry
    rw [hnat n hn]
    exact List.mem_range.mp hn
  · have hpath := path_fresh p (show 0 + p.entries.toNat = p.entries.toNat by omega)
    rw [if_pos divides.entries_pos, ← List.range_eq_range'] at hpath
    exact hpath

/-- A new file system matches a map of empty files. -/
theorem fresh_matches (p : Plan) (data : Link → Block) :
    Matches p (p.fresh data) (freshChains p)
      (FileMap.empty (p.recordBlocks * 64) p.entries) := by
  refine ⟨rfl, rfl, fun _ => rfl, ?_, fun _ => rfl, ?_⟩
  · rw [freshChains, List.length_map, List.length_range]
    rfl
  · rw [FileMap.used, FileMap.usedBelow_empty]
    rfl

end Volume

end Fat

end BlockLayers
