import BlockLayers.Fat.Plan
import Mathlib.Logic.Function.Basic

/-!
# `BlockLayers.Proofs.Fat.Catalog`: the tables as functions

The blocks of a medium that is divided by a plan, read as what they
mean: `Plan.catalog` gives the superblock, the record of every file, the
link of every entry and the data block of every entry. A number that the
tables have no place for has an empty record, and no link.

The four parts of a medium do not overlap, so each write to the medium
changes one part of the catalog and leaves the other three as they are:
`catalog_writeSuperblock`, `catalog_writeRecord`, `catalog_writeTable`
and `catalog_writeData`.
-/

set_option autoImplicit false

namespace BlockLayers

/-- A sum that is a word is the checked sum. -/
theorem Checked.exists_add {a b : UInt32} (h : a.toNat + b.toNat < 4294967296) :
    ∃ c, Checked.add a b = .ok c ∧ c.toNat = a.toNat + b.toNat := by
  have hsum : a.toNat + b.toNat = (a + b).toNat := by
    rw [UInt32.toNat_add]
    omega
  exact ⟨a + b, Checked.add_eq_ok_iff.mpr hsum, hsum.symm⟩

/-- The word after one that is not the last. -/
theorem Checked.toNat_succ {a : UInt32} (h : a.toNat + 1 < 4294967296) :
    (a + 1).toNat = a.toNat + 1 := by
  rw [UInt32.toNat_add, UInt32.toNat_one, Nat.mod_eq_of_lt h]

end BlockLayers

namespace BlockLayers.Fat

/-- The tables and the data of a file system. -/
@[ext]
structure Catalog where
  /-- The superblock. -/
  superblock : Superblock
  /-- The record of each file. -/
  record : UInt32 → Record
  /-- The link of each entry. -/
  link : Link → Link
  /-- The data block of each entry. -/
  data : Link → Block

namespace Plan

/-- The first block of the allocation table. -/
def linksFrom (p : Plan) : Nat := 1 + p.recordBlocks.toNat

/-- The first data block. -/
def dataFrom (p : Plan) : Nat := p.linksFrom + p.tableBlocks.toNat

/-- Whether there is a record for a file. -/
def HasFile (p : Plan) (ino : UInt32) : Prop := ino.toNat < 64 * p.recordBlocks.toNat

/-- Whether the table has room for an entry. -/
def HasEntry (p : Plan) (entry : Link) : Prop := entry.word.toNat < 128 * p.tableBlocks.toNat

instance (p : Plan) (ino : UInt32) : Decidable (p.HasFile ino) :=
  inferInstanceAs (Decidable (_ < _))

instance (p : Plan) (entry : Link) : Decidable (p.HasEntry entry) :=
  inferInstanceAs (Decidable (_ < _))

/-- What the blocks of a medium mean. -/
def catalog (p : Plan) (image : Nat → Block) : Catalog where
  superblock := Superblock.decode (image 0)
  record ino :=
    if p.HasFile ino then recordAt (image (1 + ino.toNat / 64)) (recordPosition ino).2
    else Record.empty
  link entry :=
    if p.HasEntry entry then linkAt (image (p.linksFrom + entry.word.toNat / 128)) entry.position.2
    else Link.endMark
  data entry := image (p.dataFrom + entry.word.toNat)

/-- A plan whose parts fill a medium of `size` blocks. -/
structure Spans (p : Plan) (size : Nat) : Prop where
  /-- There are files. -/
  records_pos : 0 < p.recordBlocks.toNat
  /-- The number of places in the table is a word. -/
  places_lt : 128 * p.tableBlocks.toNat < 4294967296
  /-- The parts fill the medium. -/
  size_eq : p.dataFrom + p.entries.toNat = size
  /-- The number of blocks is a word. -/
  size_lt : size < 4294967296

/-- The superblock, the records and the table lie on the medium. -/
theorem Spans.tables_lt {p : Plan} {size : Nat} (spans : p.Spans size) :
    ∀ n, n < p.dataFrom → n < size := by
  have hsize := spans.size_eq
  omega

/-- A plan that fills a medium, with a place in the table for every
entry, and whose number of files is a word. There may be no entries. -/
structure Usable (p : Plan) (size : Nat) : Prop extends p.Spans size where
  /-- Every entry has a place in the table. -/
  entries_le : p.entries.toNat ≤ 128 * p.tableBlocks.toNat
  files_lt : 64 * p.recordBlocks.toNat < 4294967296

/-- A plan that divides a medium of `size` blocks. -/
structure Divides (p : Plan) (size : Nat) : Prop extends p.Spans size where
  /-- There are entries. -/
  entries_pos : 0 < p.entries.toNat
  /-- Every entry has a place in the table. -/
  entries_le : p.entries.toNat ≤ 128 * p.tableBlocks.toNat

/-- A plan that divides a medium of `size` blocks, and whose number of
files is a word. -/
structure Fits (p : Plan) (size : Nat) : Prop extends p.Divides size where
  files_lt : 64 * p.recordBlocks.toNat < 4294967296

/-- A plan with entries and files is usable. -/
theorem Fits.toUsable {p : Plan} {size : Nat} (fits : p.Fits size) : p.Usable size :=
  ⟨fits.toSpans, fits.entries_le, fits.files_lt⟩

/-- The number of files as a word. -/
theorem files_toNat {p : Plan} (h : 64 * p.recordBlocks.toNat < 4294967296) :
    (p.recordBlocks * 64).toNat = 64 * p.recordBlocks.toNat := by
  rw [UInt32.toNat_mul, show (64 : UInt32).toNat = 64 from rfl]
  omega

/-- The number of files is worked out from the superblock. -/
theorem files_ok {p : Plan} (h : 64 * p.recordBlocks.toNat < 4294967296) {sb : Superblock}
    (hrecords : sb.recordBlocks = p.recordBlocks) : sb.files = .ok (p.recordBlocks * 64) := by
  rw [Superblock.files, hrecords, Checked.mul_eq_ok_iff, files_toNat h, Nat.mul_comm]
  rfl

/-- The end mark is no entry of a table whose number of places is a
word. -/
theorem HasEntry.isEnd_eq_false {p : Plan} {entry : Link} (h : p.HasEntry entry)
    (hplaces : 128 * p.tableBlocks.toNat < 4294967296) : entry.isEnd = false := by
  have hlt : entry.word.toNat < 128 * p.tableBlocks.toNat := h
  rw [Bool.eq_false_iff]
  intro hend
  rw [Link.isEnd_iff] at hend
  rw [hend, show Link.endMark.word.toNat = 4294967295 from rfl] at hlt
  omega

/-- The end mark is no entry of the table. -/
theorem Spans.isEnd_eq_false {p : Plan} {size : Nat} (spans : p.Spans size) {entry : Link}
    (h : p.HasEntry entry) : entry.isEnd = false := h.isEnd_eq_false spans.places_lt

/-- The data blocks begin behind the tables, where that is a word. -/
theorem exists_dataStart {p : Plan} (hlt : p.dataFrom < 4294967296) {sb : Superblock}
    (hrecords : sb.recordBlocks = p.recordBlocks) (htable : sb.tableBlocks = p.tableBlocks) :
    ∃ start, sb.dataStart = .ok start ∧ start.toNat = p.dataFrom := by
  unfold dataFrom linksFrom at hlt
  have hone : (1 : UInt32).toNat = 1 := rfl
  -- The records are added first and then the table, so two sums have to be words.
  obtain ⟨mid, hmid, hmidNat⟩ := Checked.exists_add
    (show (1 : UInt32).toNat + p.recordBlocks.toNat < 4294967296 by omega)
  obtain ⟨start, hstart, hstartNat⟩ := Checked.exists_add
    (show mid.toNat + p.tableBlocks.toNat < 4294967296 by omega)
  refine ⟨start, ?_, by unfold dataFrom linksFrom; omega⟩
  rw [Superblock.dataStart, Superblock.tableStart, hrecords, htable, hmid]
  exact hstart

/-- On a medium that is divided the first data block is a word. -/
theorem Spans.dataFrom_lt {p : Plan} {size : Nat} (spans : p.Spans size) :
    p.dataFrom < 4294967296 := by
  have hsize := spans.size_eq
  have hlt := spans.size_lt
  omega

/-- The data block of an entry is where the plan has it. -/
theorem Spans.exists_dataBlock {p : Plan} {size : Nat} (spans : p.Spans size) {sb : Superblock}
    (hrecords : sb.recordBlocks = p.recordBlocks) (htable : sb.tableBlocks = p.tableBlocks)
    {entry : Link} (hentry : entry.word.toNat < p.entries.toNat) :
    ∃ number, sb.dataBlock entry = .ok number ∧
      number.toNat = p.dataFrom + entry.word.toNat := by
  have hsize := spans.size_eq
  have hlt := spans.size_lt
  obtain ⟨start, hstart, hstartNat⟩ := exists_dataStart spans.dataFrom_lt hrecords htable
  obtain ⟨number, hnumber, hnumberNat⟩ := Checked.exists_add
    (show start.toNat + entry.word.toNat < 4294967296 by omega)
  refine ⟨number, ?_, by omega⟩
  rw [Superblock.dataBlock, hstart]
  exact hnumber

end Plan

/-- A place in a block of records is that of the file with the number
that it has among all places. -/
theorem recordAt_catalog {p : Plan} (hfiles : 64 * p.recordBlocks.toNat < 4294967296)
    (image : Nat → Block) {b : Nat} (hb : b < p.recordBlocks.toNat) (place : Fin 64) :
    recordAt (image (1 + b)) place =
      (p.catalog image).record (UInt32.ofNat (64 * b + place.val)) := by
  have hplace := place.isLt
  have hnat : (UInt32.ofNat (64 * b + place.val)).toNat = 64 * b + place.val :=
    UInt32.toNat_ofNat_of_lt' (by show 64 * b + place.val < 4294967296; omega)
  have hino : p.HasFile (UInt32.ofNat (64 * b + place.val)) := by
    show (UInt32.ofNat (64 * b + place.val)).toNat < _
    omega
  -- The number of the file divides to its block and leaves its place.
  have hdiv : (64 * b + place.val) / 64 = b := by omega
  have hsame : (recordPosition (UInt32.ofNat (64 * b + place.val))).2 = place := by
    refine Fin.ext ?_
    show (UInt32.ofNat (64 * b + place.val)).toNat % 64 = place.val
    omega
  simp only [Plan.catalog, if_pos hino, hnat, hdiv, hsame]

/-! ### Writing one part -/

section Write

variable {p : Plan} {image : Nat → Block}

/-- The superblock is block 0. -/
theorem catalog_writeSuperblock (sb : Superblock) :
    p.catalog (Function.update image 0 sb.encode) =
      { p.catalog image with superblock := sb } := by
  ext1
  · simp only [Plan.catalog, Function.update_self, Superblock.decode_encode]
  · funext ino
    simp only [Plan.catalog]
    rw [Function.update_of_ne (by omega)]
  · funext entry
    simp only [Plan.catalog]
    rw [Function.update_of_ne (by unfold Plan.linksFrom; omega)]
  · funext entry
    simp only [Plan.catalog]
    rw [Function.update_of_ne (by unfold Plan.dataFrom Plan.linksFrom; omega)]

/-- A block of records replaces the record of the file at the place that
is set, when the others in it are the records of their files. -/
theorem catalog_writeRecord {ino number : UInt32} {block : Block} {place : Fin 64}
    (record : Record) (hino : p.HasFile ino) (hnumber : number.toNat = 1 + ino.toNat / 64)
    (hplace : place.val = ino.toNat % 64)
    (hblock : ∀ other : UInt32, p.HasFile other → other.toNat / 64 = ino.toNat / 64 →
      recordAt block (recordPosition other).2 = (p.catalog image).record other) :
    p.catalog (Function.update image number.toNat (setRecord block place record)) =
      { p.catalog image with record := Function.update (p.catalog image).record ino record } := by
  have hin : ino.toNat < 64 * p.recordBlocks.toNat := hino
  ext1
  · simp only [Plan.catalog]
    rw [Function.update_of_ne (by omega)]
  · -- Two files in one block of records have different places in it.
    funext other
    by_cases hsame : other = ino
    · subst hsame
      have hself : place = (recordPosition other).2 := Fin.ext hplace
      simp only [Plan.catalog, Function.update_self]
      rw [if_pos hino, ← hnumber, Function.update_self, ← hself, record_setRecord_self]
    · simp only [Plan.catalog]
      rw [Function.update_of_ne hsame]
      split
      · rename_i hother
        -- The other file stands in the block that is written, or in one that stays.
        by_cases hthere : 1 + other.toNat / 64 = number.toNat
        · have hne : (recordPosition other).2 ≠ place := by
            intro heq
            have hmod : other.toNat % 64 = place.val := congrArg Fin.val heq
            exact hsame (UInt32.toNat_inj.mp (by omega))
          have hsame := hblock other hother (by omega)
          simp only [Plan.catalog, if_pos hother] at hsame
          rw [hthere, Function.update_self, record_setRecord_of_ne _ _ hne, hsame, hthere]
        · rw [Function.update_of_ne hthere]
      · rfl
  · funext entry
    simp only [Plan.catalog]
    rw [Function.update_of_ne (by unfold Plan.linksFrom; omega)]
  · funext entry
    simp only [Plan.catalog]
    rw [Function.update_of_ne (by unfold Plan.dataFrom Plan.linksFrom; omega)]

/-- A table block replaces the links of the entries that stand in it. -/
theorem catalog_writeTable {index : UInt32} (block : Block)
    (hindex : index.toNat < p.tableBlocks.toNat) :
    p.catalog (Function.update image (p.linksFrom + index.toNat) block) =
      { p.catalog image with
        link := fun entry =>
          if entry.position.1 = index then linkAt block entry.position.2
          else (p.catalog image).link entry } := by
  -- The entries of a block of the table are those whose number divides to its index.
  have hposition : ∀ entry : Link, entry.position.1 = index ↔
      entry.word.toNat / 128 = index.toNat := by
    intro entry
    rw [← UInt32.toNat_inj]
    show (entry.word / 128).toNat = index.toNat ↔ _
    rw [UInt32.toNat_div]
    rfl
  ext1
  · simp only [Plan.catalog]
    rw [Function.update_of_ne (by unfold Plan.linksFrom; omega)]
  · funext ino
    simp only [Plan.catalog]
    split
    · rename_i hino
      have hin : ino.toNat < 64 * p.recordBlocks.toNat := hino
      rw [Function.update_of_ne (by unfold Plan.linksFrom; omega)]
    · rfl
  · -- An entry whose link stands in the block has a place in the table, as the block has.
    funext entry
    by_cases hhere : entry.position.1 = index
    · have hdiv := (hposition entry).mp hhere
      have hentry : p.HasEntry entry := by
        show entry.word.toNat < 128 * p.tableBlocks.toNat
        omega
      simp only [Plan.catalog, if_pos hentry, if_pos hhere, hdiv, Function.update_self]
    · have hdiv : entry.word.toNat / 128 ≠ index.toNat := fun h => hhere ((hposition entry).mpr h)
      simp only [Plan.catalog, if_neg hhere]
      split
      · rw [Function.update_of_ne (by omega)]
      · rfl
  · funext entry
    simp only [Plan.catalog]
    rw [Function.update_of_ne (by unfold Plan.dataFrom; omega)]

/-- A data block replaces the data of its entry. -/
theorem catalog_writeData (entry : Link) (block : Block) :
    p.catalog (Function.update image (p.dataFrom + entry.word.toNat) block) =
      { p.catalog image with data := Function.update (p.catalog image).data entry block } := by
  ext1
  · simp only [Plan.catalog]
    rw [Function.update_of_ne (by unfold Plan.dataFrom Plan.linksFrom; omega)]
  · funext ino
    simp only [Plan.catalog]
    split
    · rename_i hino
      have hin : ino.toNat < 64 * p.recordBlocks.toNat := hino
      rw [Function.update_of_ne (by unfold Plan.dataFrom Plan.linksFrom; omega)]
    · rfl
  · funext other
    simp only [Plan.catalog]
    split
    · rename_i hother
      have hin : other.word.toNat < 128 * p.tableBlocks.toNat := hother
      rw [Function.update_of_ne (by unfold Plan.dataFrom; omega)]
    · rfl
  · funext other
    by_cases hsame : other = entry
    · subst hsame
      simp only [Plan.catalog, Function.update_self]
    · -- Entries that differ have different numbers, and so have their data blocks.
      have hword : other.word.toNat ≠ entry.word.toNat := by
        intro h
        obtain ⟨a⟩ := other
        obtain ⟨b⟩ := entry
        exact hsame (congrArg Link.mk (UInt32.toNat_inj.mp h))
      simp only [Plan.catalog]
      rw [Function.update_of_ne hsame, Function.update_of_ne (by omega)]

end Write

end BlockLayers.Fat
