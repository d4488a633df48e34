import BlockLayers.Proofs.Fat.Format

/-!
# `BlockLayers.Proofs.Fat.Tiling`: the plans that are made

A plan is made for every medium that has room for the superblock, the
records, a table block and a data block, and for no other. It leaves no
block over, and no other division of the blocks behind the records has
more data blocks with a place in the table (`Plan.Tiles`).

The numbers that a file system works out from such a plan are words
(`Plan.Numbered`), with one exception. The number of files is rounded up
to whole blocks of records, and where that leaves the word the plan is
made all the same.

Main statements: `make_exact` and `make_numbered`. The exception is the
one of `make_uncounted`.
-/

set_option autoImplicit false

namespace BlockLayers.Fat.Plan

variable {p : Plan} {total files : UInt32}

/-! ### Which plans are made -/

/-- A plan that divides all of `total` blocks, of which `records` are for
the records, into as many data blocks as there can be. -/
structure Tiles (p : Plan) (total records : Nat) : Prop where
  recordBlocks_eq : p.recordBlocks.toNat = records
  /-- Every group of 129 blocks that is begun has a table block. -/
  tableBlocks_eq : p.tableBlocks.toNat = (total - 1 - records + 128) / 129
  /-- No block is left over. -/
  total_eq : 1 + p.recordBlocks.toNat + p.tableBlocks.toNat + p.entries.toNat = total
  entries_pos : 1 ≤ p.entries.toNat
  /-- Every entry has a place in the table. -/
  entries_le : p.entries.toNat ≤ 128 * p.tableBlocks.toNat
  /-- No other split of the blocks behind the records has more entries. -/
  most : ∀ table entries, table + entries ≤ total - 1 - records → entries ≤ 128 * table →
    entries ≤ p.entries.toNat

/-- The blocks behind the records begin at a word. -/
theorem exists_before (files : UInt32) :
    ∃ before, Checked.add 1 (ceilDiv files 64) = .ok before ∧
      before.toNat = 1 + (files.toNat + 63) / 64 := by
  have hlt := files.toNat_lt
  have hrecords := ceilDiv_files files
  obtain ⟨before, hadd, hbefore⟩ := Checked.exists_add
    (show (1 : UInt32).toNat + (ceilDiv files 64).toNat < 4294967296 by
      rw [UInt32.toNat_one]
      omega)
  exact ⟨before, hadd, by rw [hbefore, hrecords, UInt32.toNat_one]⟩

/-- There are at least as many blocks as it takes table blocks. -/
theorem exists_entries (rest : UInt32) :
    ∃ entries, Checked.sub rest (ceilDiv rest 129) = .ok entries ∧
      entries.toNat = rest.toNat - (rest.toNat + 128) / 129 := by
  have hle : (ceilDiv rest 129).toNat ≤ rest.toNat := by
    rw [ceilDiv_rest]
    omega
  have hsub : (rest - ceilDiv rest 129).toNat = rest.toNat - (ceilDiv rest 129).toNat :=
    UInt32.toNat_sub_of_le _ _ (UInt32.le_iff_toNat_le.mpr hle)
  refine ⟨rest - ceilDiv rest 129, ?_, by rw [hsub, ceilDiv_rest]⟩
  rw [Checked.sub_eq_ok_iff]
  omega

/-- The data blocks that are left are the most that there can be. -/
theorem make_tiles (h : make total files = .ok p) :
    p.Tiles total.toNat ((files.toNat + 63) / 64) := by
  have divides := make_divides h
  have hrecords := make_recordBlocks h
  have hsize := divides.size_eq
  unfold dataFrom linksFrom at hsize
  -- What the plan takes for the table is rounded up from the blocks behind the records.
  have htable : p.tableBlocks.toNat = (total.toNat - 1 - (files.toNat + 63) / 64 + 128) / 129 := by
    obtain ⟨before, _, -, hbefore, hroom, -, -, rfl⟩ := make_eq_ok h
    have hbeforeNat := Checked.add_eq_ok_iff.mp hbefore
    rw [UInt32.toNat_one, ceilDiv_files] at hbeforeNat
    rw [ceilDiv_rest, UInt32.toNat_sub_of_le _ _ hroom, ← hbeforeNat, Nat.sub_sub]
  refine ⟨hrecords, htable, hsize, divides.entries_pos, divides.entries_le, ?_⟩
  intro table entries hsplit hplaces
  -- A table that is shorter by a block has places for fewer entries than are left here.
  omega

/-- What is made of the numbers that are worked out. -/
theorem make_apply (hfiles : files ≠ 0) {before entries : UInt32}
    (hbefore : Checked.add 1 (ceilDiv files 64) = .ok before)
    (hentries : Checked.sub (total - before) (ceilDiv (total - before) 129) = .ok entries) :
    make total files =
      if total < before ∨ entries = 0 then .error (.fault .noSpace)
      else .ok ⟨ceilDiv files 64, ceilDiv (total - before) 129, entries⟩ := by
  unfold make
  rw [if_neg hfiles]
  dsimp only
  rw [hbefore]
  change (if total < before then _ else _) = _
  -- Both refusals are for too little space, so they are one condition here.
  by_cases hroom : total < before
  · rw [if_pos hroom, if_pos (.inl hroom)]
    rfl
  rw [if_neg hroom, hentries]
  change (if entries = 0 then _ else _) = _
  by_cases hsome : entries = 0
  · rw [if_pos hsome, if_pos (.inr hsome)]
    rfl
  · rw [if_neg hsome, if_neg (not_or.mpr ⟨hroom, hsome⟩)]
    rfl

/-- A plan for files is made exactly where there is room for the
superblock, the records, a table block and a data block. It divides the
medium as well as it can be. Elsewhere there is too little space, and
nothing is ever aborted. -/
theorem make_exact (total : UInt32) (hfiles : files ≠ 0) :
    (1 + (files.toNat + 63) / 64 + 2 ≤ total.toNat →
      ∃ p, make total files = .ok p ∧ p.Tiles total.toNat ((files.toNat + 63) / 64)) ∧
    (total.toNat < 1 + (files.toNat + 63) / 64 + 2 →
      make total files = .error (.fault .noSpace)) := by
  obtain ⟨before, hbefore, hbeforeNat⟩ := exists_before files
  obtain ⟨entries, hentries, hentriesNat⟩ := exists_entries (total - before)
  -- With both checked sums at hand only the two conditions of the plan are left.
  have hmake := make_apply hfiles hbefore hentries
  have hlt : total < before ↔ total.toNat < before.toNat := UInt32.lt_iff_toNat_lt
  have hzero : entries = 0 ↔ entries.toNat = 0 := UInt32.toNat_inj.symm
  constructor
  · intro hroom
    have hle : before ≤ total := UInt32.le_iff_toNat_le.mpr (by omega)
    rw [UInt32.toNat_sub_of_le _ _ hle] at hentriesNat
    -- Of two blocks or more behind the records one is left for the data.
    rw [if_neg (by rw [hlt, hzero]; omega)] at hmake
    exact ⟨_, hmake, make_tiles hmake⟩
  · intro hshort
    -- There is not even room for the records, or nothing is left for the data.
    by_cases hle : before ≤ total
    · rw [UInt32.toNat_sub_of_le _ _ hle] at hentriesNat
      rw [UInt32.le_iff_toNat_le] at hle
      rw [hmake, if_pos (.inr (hzero.mpr (by omega)))]
    · rw [hmake, if_pos (.inl (UInt32.not_le.mp hle))]

/-- Two blocks behind a whole group are a table block and its data
block. A medium with only one block behind the records is too small. -/
theorem make_exact_short :
    (1 : UInt32) ≠ 0 ∧ (∃ p, make 133 1 = .ok p ∧ p.Tiles 133 1) ∧
      make 3 1 = .error (.fault .noSpace) :=
  ⟨by decide, (make_exact 133 (by decide)).1 (by decide), (make_exact 3 (by decide)).2 (by decide)⟩

/-! ### What is worked out from a plan -/

/-- The numbers that a new file system for `files` files works out are
words: where its tables and its data begin, the number of places in the
table, the links that are written at first and the data block of every
entry. The number of files is a word unless rounding it up to whole
blocks of records leaves the word. -/
structure Numbered (p : Plan) (files : UInt32) : Prop where
  tableStart : ∃ start, p.superblock.tableStart = .ok start ∧ start.toNat = p.linksFrom
  dataStart : ∃ start, p.superblock.dataStart = .ok start ∧ start.toNat = p.dataFrom
  tableCapacity : ∃ places, p.superblock.tableCapacity = .ok places ∧
    places.toNat = 128 * p.tableBlocks.toNat
  tableBlock : ∀ index : UInt32, index.toNat < p.tableBlocks.toNat →
    p.tableBlock index = .ok (p.freshTable index.toNat)
  dataBlock : ∀ entry : Link, entry.word.toNat < p.entries.toNat →
    ∃ number, p.superblock.dataBlock entry = .ok number ∧
      number.toNat = p.dataFrom + entry.word.toNat
  counted : files.toNat ≤ 4294967232 →
    ∃ count, p.superblock.files = .ok count ∧ count.toNat = 64 * p.recordBlocks.toNat ∧
      files ≤ count
  uncounted : 4294967232 < files.toNat → p.superblock.files = .error .mulOverflow

/-- The number of places in the table of a plan is a word. -/
theorem Spans.exists_tableCapacity {size : Nat} (spans : p.Spans size) :
    ∃ places, p.superblock.tableCapacity = .ok places ∧
      places.toNat = 128 * p.tableBlocks.toNat := by
  have hplaces : (p.tableBlocks * 128).toNat = 128 * p.tableBlocks.toNat := by
    have hlt := spans.places_lt
    rw [UInt32.toNat_mul, show (128 : UInt32).toNat = 128 from rfl]
    omega
  refine ⟨p.tableBlocks * 128, ?_, hplaces⟩
  rw [Superblock.tableCapacity, Checked.mul_eq_ok_iff, hplaces, Nat.mul_comm]
  rfl

/-- A file system that is made has numbers that are words, save perhaps
the number of its files. -/
theorem make_numbered (h : make total files = .ok p) : p.Numbered files := by
  have divides := make_divides h
  have hrecords := make_recordBlocks h
  have hdata := divides.toSpans.dataFrom_lt
  constructor
  case tableStart =>
    obtain ⟨start, hstart, hstartNat⟩ := Checked.exists_add
      (show (1 : UInt32).toNat + p.recordBlocks.toNat < 4294967296 by
        unfold dataFrom linksFrom at hdata
        rw [UInt32.toNat_one]
        omega)
    exact ⟨start, hstart, by rw [hstartNat, UInt32.toNat_one, linksFrom]⟩
  case dataStart => exact exists_dataStart hdata rfl rfl
  case tableCapacity => exact divides.toSpans.exists_tableCapacity
  case tableBlock => exact fun index hindex => tableBlock_ok divides hindex
  case dataBlock => exact fun entry hentry => divides.toSpans.exists_dataBlock rfl rfl hentry
  case counted =>
    intro hfew
    have hlt : 64 * p.recordBlocks.toNat < 4294967296 := by omega
    refine ⟨p.recordBlocks * 64, files_ok hlt rfl, files_toNat hlt, ?_⟩
    rw [UInt32.le_iff_toNat_le, files_toNat hlt]
    omega
  case uncounted =>
    -- So many files are rounded up to `2 ^ 26` blocks of records, and those have `2 ^ 32` records.
    intro hmany
    have hgt : ¬ p.superblock.recordBlocks.toNat * (64 : UInt32).toNat < 4294967296 := by
      rw [show (64 : UInt32).toNat = 64 from rfl,
        show p.superblock.recordBlocks.toNat = p.recordBlocks.toNat from rfl]
      omega
    rw [Superblock.files, Checked.mul, if_neg hgt]

/-- The largest medium, for one file. -/
theorem make_numbered_largest :
    make 4294967295 1 = .ok ⟨1, 33294321, 4261672972⟩ ∧
      Numbered ⟨1, 33294321, 4261672972⟩ 1 := by
  have h : make 4294967295 1 = .ok ⟨1, 33294321, 4261672972⟩ := by decide
  exact ⟨h, make_numbered h⟩

/-- A plan is made for as many files as can be asked for, and the number
of files that its superblock tells is no word. -/
theorem make_uncounted :
    make 67108867 4294967295 = .ok ⟨67108864, 1, 1⟩ ∧
      (⟨67108864, 1, 1⟩ : Plan).superblock.files = .error .mulOverflow := by
  decide

end BlockLayers.Fat.Plan
