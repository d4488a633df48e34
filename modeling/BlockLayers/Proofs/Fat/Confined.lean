import BlockLayers.Proofs.Fat.Codec
import BlockLayers.Proofs.Fat.Contained
import BlockLayers.Proofs.Recorded

/-!
# `BlockLayers.Proofs.Fat.Confined`: a volume stays on its medium

A store in memory grows when it is written to behind its end, so nothing
but the volume keeps a volume from growing its medium. The block that a
call asks for is worked out from a link that was read from the table: it
lies on the medium because every link that a call can come upon leads to
an entry, also after calls that were interrupted.

`Request.On` says which requests stay on a medium, and `Plan.Parts` how
the parts of a medium lie behind each other.

Main statement: `confined_after`.
-/

set_option autoImplicit false

namespace BlockLayers

/-- A request to one of the first `size` blocks of an inode, a question
for its size, or a sync of it. -/
def Request.On (ino : UInt32) (size : Nat) : Request → Prop
  | .capacity => False
  | .size other => other = ino
  | .resize _ _ => False
  | .read a => a.ino = ino ∧ a.offset.toNat < size
  | .write a _ => a.ino = ino ∧ a.offset.toNat < size
  | .sync other => other = ino

namespace Memory

/-- The number of blocks of an inode. -/
def length (m : Memory) (ino : UInt32) : Nat := (m.inodes.getD ino.toNat #[]).size

/-- A request that is no change leaves an inode with as many blocks as it
had. -/
theorem look_length {q : Request} (hq : q.changes = false) {m : Memory} {ino : UInt32} {count : Nat}
    (hm : m.length ino = count) {good : q.Answer → Memory → Prop} {bad : Fault → Memory → Prop}
    (h : Op.Ends (store q) m good bad) :
    Op.Ends (store q) m (fun value after => good value after ∧ after.length ino = count)
      (fun fault after => bad fault after ∧ after.length ino = count) := by
  -- Such a request leaves the store alike, and lengths are read off its inodes.
  have hsame : ∀ after : Memory, Alike after m → after.length ino = count := by
    intro after halike
    rw [← hm, length, length, halike.inodes]
  exact (h.and (store_keeps hq)).mono (fun _ _ hgood => ⟨hgood.1, hsame _ hgood.2⟩)
    fun _ _ hbad => ⟨hbad.1, hsame _ hbad.2⟩

/-- An inode of a store in memory keeps its blocks, and has as many as it
had. -/
theorem medium_length (ino : UInt32) (size count : Nat) :
    Medium store ino size (fun _ _ => False)
      (fun m image => Carries ino size m image ∧ m.length ino = count) where
  read hm hn := (look_length rfl hm.2 ((medium ino size).read hm.1 hn)).mono
    (fun _ _ h => ⟨h.1.1, h.1.2, h.2⟩) fun _ _ h => h.1.2.elim
  size hm := (look_length rfl hm.2 ((medium ino size).size hm.1)).mono
    (fun _ _ h => ⟨h.1.1, h.1.2, h.2⟩) fun _ _ h => h.1.2.elim
  sync hm := (look_length rfl hm.2 ((medium ino size).sync hm.1)).mono (fun _ _ h => h)
    fun _ _ h => h.1.2.elim
  note _ hm := hm
  write := by
    intro m image n block hm hn
    obtain ⟨hcarries, hcount⟩ := hm
    obtain ⟨hdead, blocks, hblocks, hsize, -⟩ := id hcarries
    have hino : ino.toNat < m.inodes.size := (Array.getElem?_eq_some_iff.mp hblocks).1
    have hplace : n.toNat < blocks.size := Nat.lt_of_lt_of_le hn (hsize ▸ Nat.mod_le _ _)
    -- The place is within the blocks, so the write replaces one.
    have hlength : Op.Ends (store (.write ⟨ino, n⟩ block)) m
        (fun _ after => after.length ino = count) (fun _ _ => True) := by
      refine .of_ok (write_apply hdead (a := ⟨ino, n⟩) block hino) ?_
      rw [length, Array.getD_eq_getD_getElem?, hblocks] at hcount
      simp only [length, Plain.write, Array.getD_eq_getD_getElem?, Array.getElem?_modify, hblocks,
        if_pos, Option.map_some, Option.getD_some, put, dif_pos hplace, Array.size_set]
      exact hcount
    exact (((medium ino size).write block hcarries hn).and hlength).mono (fun _ _ h => h)
      fun _ _ h => h.1.2.elim

end Memory

namespace Fat

/-- How the parts of a medium of `size` blocks lie, whose superblock is
`sb`: behind the superblock itself come the records of files, the table
and the data blocks, and none of them meet. -/
structure Plan.Parts (p : Plan) (sb : Superblock) (size : Nat) : Prop where
  tableStart : ∃ start, sb.tableStart = .ok start ∧ start.toNat = p.linksFrom
  dataStart : ∃ start, sb.dataStart = .ok start ∧ start.toNat = p.dataFrom
  ordered : 1 < p.linksFrom ∧ p.linksFrom < p.dataFrom ∧ p.dataFrom < size
  /-- The record of a file lies before the table. -/
  record : ∀ ino, p.HasFile ino →
    1 ≤ (recordPosition ino).1.toNat ∧ (recordPosition ino).1.toNat < p.linksFrom
  /-- The link of an entry lies in the table. -/
  link : ∀ start, sb.tableStart = .ok start → ∀ entry : Link, entry.word.toNat < p.entries.toNat →
    ∃ number, Checked.add start entry.position.1 = .ok number ∧ p.linksFrom ≤ number.toNat ∧
      number.toNat < p.dataFrom
  /-- The data block of an entry lies behind the table. -/
  data : ∀ entry : Link, entry.word.toNat < p.entries.toNat →
    ∃ number, sb.dataBlock entry = .ok number ∧ number.toNat = p.dataFrom + entry.word.toNat ∧
      number.toNat < size
  /-- No two files have their records in one place. -/
  records_apart : ∀ ino other, recordPosition ino = recordPosition other → ino = other
  /-- No two entries have their links in one place. -/
  links_apart : ∀ entry other : Link, entry.position = other.position → entry = other

/-- A medium that a plan divides has its parts where the plan has them. -/
theorem Plan.Divides.parts {p : Plan} {size : Nat} (divides : p.Divides size) {sb : Superblock}
    (hrecords : sb.recordBlocks = p.recordBlocks) (htable : sb.tableBlocks = p.tableBlocks) :
    p.Parts sb size := by
  have hsize := divides.size_eq
  have hpos := divides.entries_pos
  have hplaces := divides.entries_le
  have hrecordsPos := divides.records_pos
  have hlt := divides.size_lt
  have hlinks : p.linksFrom = 1 + p.recordBlocks.toNat := rfl
  have hdata : p.dataFrom = p.linksFrom + p.tableBlocks.toNat := rfl
  -- Every sum of the layout is below the size of the medium, so none overflows.
  obtain ⟨start, hstart, hstartNat⟩ := Checked.exists_add
    (show (1 : UInt32).toNat + p.recordBlocks.toNat < 4294967296 by
      rw [UInt32.toNat_one]; omega)
  rw [UInt32.toNat_one] at hstartNat
  rw [← hrecords] at hstart
  constructor
  case tableStart => exact ⟨start, hstart, hstartNat⟩
  case dataStart => exact exists_dataStart divides.dataFrom_lt hrecords htable
  case ordered => omega
  case record =>
    intro ino hino
    have hin : ino.toNat < 64 * p.recordBlocks.toNat := hino
    rw [Volume.recordPosition_toNat]
    omega
  case link =>
    intro other hother entry hentry
    obtain rfl : start = other := Except.ok.inj (hstart.symm.trans hother)
    have hindex := Cursor.position_index_toNat entry
    obtain ⟨number, hnumber, hnumberNat⟩ := Checked.exists_add
      (show start.toNat + entry.position.1.toNat < 4294967296 by omega)
    exact ⟨number, hnumber, by omega, by omega⟩
  case data =>
    intro entry hentry
    obtain ⟨number, hnumber, hnumberNat⟩ :=
      divides.toSpans.exists_dataBlock hrecords htable hentry
    exact ⟨number, hnumber, hnumberNat, by omega⟩
  case records_apart => exact fun _ _ h => recordPosition_injective h
  case links_apart => exact fun _ _ => Link.position_injective

namespace Volume

variable {v : Volume} {plan : Plan} {size : Nat}

section Serve

variable {σ : Type} [Journal σ] {below : Store σ} {blame : Fault → σ → Prop}
  {holds : σ → (Nat → Block) → Prop} {catalog : Catalog} {a : Chains} {s : σ}

/-- The store below holds tables with sound chains. -/
def Chained (plan : Plan) (holds : σ → (Nat → Block) → Prop) (s : σ) : Prop :=
  ∃ image a, holds s image ∧ Sound plan (plan.catalog image) a

omit [Journal σ] in

/-- Tables that are kept and have sound chains. -/
theorem Chained.of_keeps (hs : Keeps plan holds catalog s) (hsound : Sound plan catalog a) :
    Chained plan holds s := by
  obtain ⟨image, hs, rfl⟩ := hs
  exact ⟨image, a, hs, hsound⟩

/-- Every call ends, and leaves sound chains. -/
theorem serve_chained (hM : Medium below v.medium size blame holds) (fits : plan.Usable size)
    (hs : Chained plan holds s) (c : Call) :
    Op.Ends (v.serve below c) s (fun _ after => Chained plan holds after)
      (fun _ after => Chained plan holds after) := by
  obtain ⟨image, a, hs, hsound⟩ := hs
  cases c with
  | request q =>
    refine (store_ends hM fits hsound ⟨image, hs, rfl⟩ q).mono ?_ ?_
    · intro value after hfollows
      obtain ⟨catalog', a', hkeeps', hsound', -⟩ := hfollows
      exact .of_keeps hkeeps' hsound'
    · intro fault after hrefuses
      obtain ⟨catalog', a', hkeeps', hsound', -⟩ :=
        hrefuses.sound hsound (Left.refl plan q _ a)
      exact .of_keeps hkeeps' hsound'
  | occupancy =>
    exact (occupancy_checks hM.toLegible fits.toSpans fits.files_lt hsound.recordBlocks_eq
      hsound.tableBlocks_eq hs).mono (fun _ _ hgood => ⟨image, a, hgood.2, hsound⟩)
      fun _ _ hbad => ⟨image, a, hbad.1, hsound⟩

end Serve

/-- What is known of a volume after any calls, with a record of what they
asked of the store below, any of whose calls may have failed. -/
structure Confined (v : Volume) (schedule : Nat → Option Fault) (plan : Plan) (size count : Nat)
    (s : List Exchange × Nat × Memory) : Prop where
  /-- All that was asked of the store below was about the blocks of the
  medium. -/
  requests : Recorded.Asked (Request.On v.medium size) s.1
  /-- The medium has as many blocks as it had. -/
  length : s.2.2.length v.medium = count
  /-- No call is aborted. -/
  ends : ∀ c abort,
    Op.outcome (v.serve (Recorded.store (Unsteady.store schedule Memory.store)) c) s ≠
      .error (.abort abort)
  /-- The chains of the tables on the medium are sound, the parts of the
  medium do not meet, and a write writes data to the blocks of its file
  only, and of entries that it takes from the free chain. -/
  reaching : ∃ image a, Memory.Carries v.medium size s.2.2 image ∧
    Sound plan (plan.catalog image) a ∧ plan.Parts (plan.catalog image).superblock size ∧
    ∀ addr data, Recorded.Asked (Request.Writes v.medium (a.Opens plan addr))
      (Op.next (v.store (Recorded.store (Unsteady.store schedule Memory.store))
        (.write addr data)) ([], s.2)).1

/-- A write writes to its file only, whatever becomes of it. -/
theorem write_reaches {σ : Type} [Journal σ] {below : Store σ} {blame : Fault → σ → Prop}
    {holds : σ → (Nat → Block) → Prop} (hM : Medium below v.medium size blame holds)
    (fits : plan.Usable size) {image : Nat → Block} {a : Chains}
    (hsound : Sound plan (plan.catalog image) a) {s : σ} (hs : holds s image) (addr : Address)
    (data : Block) :
    Recorded.Asked (Request.Writes v.medium (a.Opens plan addr))
      (Op.next (v.store (Recorded.store below) (.write addr data)) ([], s)).1 := by
  -- The store below is only asked to permit what a write may do.
  have hP := Recorded.permits_writes (hM.toPermits.restrict fun _ hn =>
    hsound.lt_of_opens fits (show a.Opens plan addr _ from hn))
  have hkept : ∀ {m : Catalog} {t : List Exchange × σ}, Keeps plan (fun t image =>
      Recorded.Asked (Request.Writes v.medium (a.Opens plan addr)) t.1 ∧ holds t.2 image) m t →
      Recorded.Asked (Request.Writes v.medium (a.Opens plan addr)) t.1 := fun ⟨_, ht, _⟩ => ht.1
  refine Op.Ends.next (fun t : List Exchange × σ =>
    Recorded.Asked (Request.Writes v.medium (a.Opens plan addr)) t.1)
    ((write_ends (s := ([], s)) hP fits hsound ⟨image, ⟨Recorded.asked_nil _, hs⟩, rfl⟩
      data).mono ?_ ?_)
  · intro value after hfollows
    obtain ⟨_, _, hkeeps, -⟩ := hfollows
    exact hkept hkeeps
  · intro fault after hrefuses
    obtain ⟨_, _, hkeeps, -⟩ := hrefuses.sound hsound (Left.refl plan (.write addr data) _ a)
    exact hkept hkeeps

/-- A volume stays on its medium: it is formatted, and then any calls are
made to it. Any calls of the store below may fail at any time. -/
theorem confined_after {files : UInt32} {m : Memory} (hfresh : v.Unformatted m)
    (hfiles : 64 * ((files.toNat + 63) / 64) < 4294967296) {formatting : Nat → Option Fault}
    {first : Nat} {start : Nat × Memory}
    (hformat : v.format (Unsteady.store formatting Memory.store) files (first, m) = .ok () start)
    (schedule : Nat → Option Fault) (calls : List Call) :
    ∃ plan, Plan.make (m.told v.medium) files = .ok plan ∧
      v.Confined schedule plan (m.told v.medium).toNat (m.length v.medium)
        (Op.after (v.serve (Recorded.store (Unsteady.store schedule Memory.store))) calls
          ([], start)) := by
  obtain ⟨_, _, hsize, -⟩ := Op.exists_of_bind_ok hformat
  obtain ⟨image₀, hcarries₀⟩ := Memory.carries_of_ok rfl (Unsteady.of_store_ok hsize)
  have hbelow := Memory.medium_length v.medium (m.told v.medium).toNat (m.length v.medium)
  obtain ⟨plan, data, hplan, image₁, hs₁, hm₁⟩ :=
    formatted_keeps (Unsteady.medium hbelow 0) (fun _ => rfl) rfl (hfresh.first hcarries₀)
      ⟨Nat.zero_le _, hcarries₀, rfl⟩ hformat
  have divides := Plan.make_divides hplan
  have fits := Plan.make_usable hplan hfiles
  refine ⟨plan, hplan, ?_⟩
  -- All calls of the store below are on the record, so what is on it is part of the invariant.
  have hsteady : Medium (Unsteady.store schedule Memory.store) v.medium _ _ _ :=
    Unsteady.medium hbelow 0
  have hM : Medium (Recorded.store (Unsteady.store schedule Memory.store)) v.medium
      (m.told v.medium).toNat _ (fun t image =>
        Recorded.Asked (Request.On v.medium (m.told v.medium).toNat) t.1 ∧ _) :=
    Recorded.medium hsteady rfl (fun _ hn => ⟨rfl, hn⟩) (fun _ _ hn => ⟨rfl, hn⟩) rfl
  -- By induction over the calls: chains stay sound, and requests stay on the medium.
  have hafter := Op.after_invariant (Chained plan _)
    (fun c _ ht => Op.Ends.next _ (serve_chained hM fits ht c)) calls (s := ([], start))
    ⟨image₁, freshChains plan, ⟨Recorded.asked_nil _, hs₁⟩, hm₁ ▸ fresh_sound divides data⟩
  obtain ⟨image, a, ⟨hasked, hcalls, hcarries, hlength⟩, hsound⟩ := id hafter
  constructor
  case requests => exact hasked
  case length => exact hlength
  case ends =>
    intro c abort habort
    rcases (serve_chained hM fits hafter c).outcome_next with ⟨_, hend, -⟩ | ⟨_, hend, -⟩
    · cases hend.symm.trans habort
    · cases hend.symm.trans habort
  case reaching =>
    exact ⟨image, a, hcarries, hsound,
      divides.parts hsound.recordBlocks_eq hsound.tableBlocks_eq,
      write_reaches hsteady fits hsound ⟨hcalls, hcarries, hlength⟩⟩

/-- A volume on four blocks stays on them. -/
theorem confined_after_zeros :
    (⟨0⟩ : Volume).Unformatted (Memory.zeros 4) ∧
      64 * (((1 : UInt32).toNat + 63) / 64) < 4294967296 ∧
      ∃ start, (⟨0⟩ : Volume).format (Unsteady.store (fun _ => none) Memory.store) 1
          (0, Memory.zeros 4) = .ok () start ∧
        ∀ (schedule : Nat → Option Fault) (calls : List Call),
          ∃ plan, Plan.make ((Memory.zeros 4).told 0) 1 = .ok plan ∧
            (⟨0⟩ : Volume).Confined schedule plan ((Memory.zeros 4).told 0).toNat
              ((Memory.zeros 4).length 0)
              (Op.after ((⟨0⟩ : Volume).serve
                (Recorded.store (Unsteady.store schedule Memory.store))) calls ([], start)) := by
  obtain ⟨start, hformat⟩ := exists_start (v := ⟨0⟩) (m := Memory.zeros 4)
    (Memory.carries_zeros (by decide)) (by decide) (show Plan.make 4 1 = .ok ⟨1, 1, 1⟩ by decide)
  exact ⟨unformatted_zeros, by decide, start, hformat, fun schedule calls =>
    confined_after unformatted_zeros (by decide) hformat schedule calls⟩

end Volume

end Fat

end BlockLayers
