import BlockLayers.Proofs.Fat.Refinement
import BlockLayers.Proofs.Recorded
import Mathlib.Logic.Function.Iterate

/-!
# `BlockLayers.Proofs.Fat.Attempts`: formatting that is tried again

The superblock is written last, so a medium on which formatting failed
still counts as one without a file system, and formatting can be tried
again. An attempt overwrites all that earlier attempts have written, and
what it leaves does not depend on them.

`attempt_ends` says what one attempt does to a medium that others have
begun, and `begun_tried` and `staged_tried` what any number of them do.

Main statement: `format_repeatable`. Attempts are made on a store any of
whose calls may fail, until there is a new file system (`Pristine`).
-/

set_option autoImplicit false

namespace BlockLayers.Fat

namespace Plan

/-- There are at least as many files as were asked for. -/
theorem make_files_le {p : Plan} {total files : UInt32} (h : make total files = .ok p) :
    files.toNat ≤ 64 * p.recordBlocks.toNat := by
  have hrecords := make_recordBlocks h
  omega

variable {p : Plan} {image image' image'' : Nat → Block}

/-- A medium that nothing was written to counts as begun. -/
theorem begun_self (p : Plan) (image : Nat → Block) : p.Begun image image := ⟨rfl, fun _ _ => rfl⟩

/-- What an attempt on a begun medium leaves is begun. -/
theorem Begun.trans (h : p.Begun image image') (h' : p.Begun image' image'') :
    p.Begun image image'' := ⟨h'.1.trans h.1, fun n hn => (h'.2 n hn).trans (h.2 n hn)⟩

/-- What attempts at laying a medium out leave. -/
def Staged (p : Plan) (image image' : Nat → Block) : Prop :=
  p.Begun image image' ∨ image' = p.laidOut image

/-- A medium that was laid out holds a file system. -/
theorem formatted_laidOut {size : Nat} (spans : p.Spans size) (image : Nat → Block) :
    (Superblock.decode (p.laidOut image 0)).formatted = true := by
  rw [laidOut, if_pos rfl, Superblock.decode_encode, Superblock.formatted, bne_iff_ne]
  intro hzero
  have hpos := spans.records_pos
  rw [show p.recordBlocks = 0 from hzero] at hpos
  exact Nat.lt_irrefl 0 hpos

end Plan

namespace Volume

variable {σ : Type} [Journal σ] {below : Store σ} {v : Volume} {p : Plan} {size : Nat}
  {blame : Fault → σ → Prop} {holds : σ → (Nat → Block) → Prop} {image image' : Nat → Block}
  {total files : UInt32} {s : σ}

/-! ### Attempts -/

section Attempts

variable (hP : Permits below v.medium size (· < p.dataFrom) blame holds)
  (hplan : Plan.make total files = .ok p) (htotal : total.toNat = size)
  (hfiles : 64 * p.recordBlocks.toNat < 4294967296)
  (hempty : (Superblock.decode (image 0)).formatted = false)

include hP hplan htotal hfiles hempty

/-- An attempt on a medium that earlier ones have begun lays it out as
the first one would have, or fails and leaves it begun. -/
theorem attempt_ends (hbegun : p.Begun image image') (hs : holds s image') :
    Op.Ends (v.format below files) s (fun _ after => holds after (p.laidOut image))
      (fun fault after => blame fault after ∧
        ∃ image'', holds after image'' ∧ p.Begun image image'') := by
  have divides : p.Divides size := htotal ▸ Plan.make_divides hplan
  have hempty' : (Superblock.decode (image' 0)).formatted = false := by rw [hbegun.1, hempty]
  refine (format_lays hP hplan htotal divides (.inl hfiles) hempty' hs).mono ?_ ?_
  · intro _ after hafter
    -- What is laid out does not depend on what earlier attempts have written.
    rw [hbegun.laidOut_eq] at hafter
    exact hafter
  · intro fault after hafter
    obtain ⟨hblame, image'', hs'', hbegun''⟩ := hafter
    exact ⟨hblame, image'', hs'', hbegun.trans hbegun''⟩

/-- An attempt on a medium that earlier ones have left leaves it laid
out, or fails and leaves it begun or laid out. -/
theorem retry_ends (hstaged : p.Staged image image') (hs : holds s image') :
    Op.Ends (v.format below files) s (fun _ after => holds after (p.laidOut image))
      (fun fault after => blame fault after ∧
        ∃ image'', holds after image'' ∧ p.Staged image image'') := by
  rcases hstaged with hbegun | rfl
  · refine (attempt_ends hP hplan htotal hfiles hempty hbegun hs).mono (fun _ _ hgood => hgood) ?_
    intro fault after hafter
    obtain ⟨hblame, image'', hs'', hbegun''⟩ := hafter
    exact ⟨hblame, image'', hs'', .inl hbegun''⟩
  · -- Once there is a file system, formatting leaves it alone.
    have divides : p.Divides size := htotal ▸ Plan.make_divides hplan
    have hsize := divides.size_eq
    have hentries := divides.entries_pos
    refine (format_spares hP.toLegible (by omega) (Plan.formatted_laidOut divides.toSpans image)
      files hs).mono (fun _ _ hgood => hgood) ?_
    intro fault after hafter
    exact ⟨hafter.2, _, hafter.1, .inr rfl⟩

/-- As long as every attempt fails the medium is only begun. -/
theorem begun_tried (hs : holds s image) {count : Nat}
    (hfail : ∀ k < count,
      Op.outcome (v.format below files) ((Op.next (v.format below files))^[k] s) ≠ .ok ()) :
    ∃ image', holds ((Op.next (v.format below files))^[count] s) image' ∧ p.Begun image image' := by
  -- By induction on the attempts, each made on what the ones before have left.
  induction count with
  | zero => exact ⟨image, hs, p.begun_self image⟩
  | succ count ih =>
    obtain ⟨image', hs', hbegun⟩ := ih fun k hk => hfail k (Nat.lt_succ_of_lt hk)
    rw [Function.iterate_succ_apply']
    -- The attempt was one of those that failed, so the superblock is still the old one.
    rcases (attempt_ends hP hplan htotal hfiles hempty hbegun hs').outcome_next with
      ⟨_, hok, -⟩ | ⟨_, -, -, hafter⟩
    · exact (hfail count (Nat.lt_succ_self count) hok).elim
    · exact hafter

/-- Attempts leave the medium begun or laid out. -/
theorem staged_tried (hs : holds s image) (count : Nat) :
    ∃ image', holds ((Op.next (v.format below files))^[count] s) image' ∧
      p.Staged image image' := by
  induction count with
  | zero => exact ⟨image, hs, .inl (p.begun_self image)⟩
  | succ count ih =>
    obtain ⟨image', hs', hstaged⟩ := ih
    rw [Function.iterate_succ_apply']
    rcases (retry_ends hP hplan htotal hfiles hempty hstaged hs').outcome_next with
      ⟨_, -, hafter⟩ | ⟨_, -, -, hafter⟩
    · exact ⟨_, hafter, .inr rfl⟩
    · exact hafter

end Attempts

/-! ### A new file system -/

/-- The superblock of a medium that holds no file system is refused. -/
theorem superblock_refused (hL : Legible below v.medium size blame holds) (hpos : 0 < size)
    (hempty : (Superblock.decode (image 0)).formatted = false) (hs : holds s image) :
    Op.Ends (v.superblock below) s (fun _ _ => False)
      (fun fault after => fault = .unformatted ∨ blame fault after) := by
  refine (hL.read hs (show (0 : UInt32).toNat < size from hpos)).bind
    (fun _ _ hbad => .inr hbad.2) ?_
  intro block s' hread
  obtain ⟨rfl, -⟩ := hread
  rw [UInt32.toNat_zero, if_neg (by rw [hempty]; exact Bool.false_ne_true)]
  exact Op.Ends.fail (.inl rfl)

/-- Every call to a medium that holds no file system is refused, but for
a sync. -/
theorem serve_refused (hL : Legible below v.medium size blame holds) (hpos : 0 < size)
    (hempty : (Superblock.decode (image 0)).formatted = false) (hs : holds s image) {c : Call}
    (hc : ∀ ino, c ≠ .request (.sync ino)) :
    Op.Ends (v.serve below c) s (fun _ _ => False)
      (fun fault after => fault = .unformatted ∨ blame fault after) := by
  have hrefused := superblock_refused hL hpos hempty hs
  -- Every request for a file looks at the superblock first, and stops there.
  have hlocate : ∀ {β : Type} (ino : UInt32) (rest : Located → Op σ β),
      Op.Ends (v.locate below ino >>= rest) s (fun _ _ => False)
        (fun fault after => fault = .unformatted ∨ blame fault after) :=
    fun _ _ => (hrefused.seq fun _ _ hno => hno.elim).seq fun _ _ (hno : False) => hno.elim
  cases c with
  | occupancy => exact hrefused.seq fun _ _ hno => hno.elim
  | request q =>
    cases q with
    | capacity => exact hrefused.seq fun _ _ hno => hno.elim
    | size ino => exact hlocate ino _
    | resize ino blocks => exact hlocate ino _
    | read addr => exact hlocate addr.ino _
    | write addr data => exact hlocate addr.ino _
    | sync ino => exact (hc ino rfl).elim

/-- Attempts at formatting a volume, made on a store any of whose calls
may fail, and written down: what `count` of them leave. -/
def tried (v : Volume) (below : Store σ) (schedule : Nat → Option Fault) (files : UInt32)
    (count : Nat) (start : List Exchange × Nat × σ) : List Exchange × Nat × σ :=
  (Op.next (v.format (Recorded.store (Unsteady.store schedule below)) files))^[count] start

/-- A new file system: all entries are free, all files are empty, there
are as many as were asked for, and formatting changes nothing, whichever
calls of the store below fail. -/
structure Pristine (v : Volume) (below : Store σ) (p : Plan) (files : UInt32) (s : σ) : Prop where
  occupancy : Op.outcome (v.occupancy below) s = .ok ⟨p.entries, p.entries, 0⟩
  capacity : ∃ count, Op.outcome (v.store below .capacity) s = .ok count ∧
    count.toNat = 64 * p.recordBlocks.toNat ∧ files ≤ count
  size : ∀ ino : UInt32, ino.toNat < 64 * p.recordBlocks.toNat →
    Op.outcome (v.store below (.size ino)) s = .ok 0
  again : ∀ (schedule : Nat → Option Fault) (first : Nat) (more : UInt32),
    Recorded.Unchanging (v.tried below schedule more 1 ([], first, s)).1

/-- What is laid out is a new file system. -/
theorem pristine_laidOut (hM : Medium below v.medium size (fun _ _ => False) holds)
    (hplan : Plan.make total files = .ok p) (htotal : total.toNat = size)
    (hfiles : 64 * p.recordBlocks.toNat < 4294967296) (hs : holds s (p.laidOut image)) :
    v.Pristine below p files s := by
  have divides : p.Divides size := htotal ▸ Plan.make_divides hplan
  have fits : p.Usable size := ⟨divides.toSpans, divides.entries_le, hfiles⟩
  -- The tables are those of fresh chains, so calls end as on an empty map of files.
  have hpresents : Presents p holds s (FileMap.empty (p.recordBlocks * 64) p.entries) :=
    ⟨_, freshChains p, ⟨_, hs, Plan.catalog_laidOut divides image⟩, fresh_sound divides _,
      fresh_matches p _⟩
  have houtcome : ∀ c, Op.outcome (v.serve below c) s = _ := fun c =>
    (serve_agrees hM (fun _ _ hno => hno) fits c s _ hpresents).1
  have hcount := Plan.files_toNat hfiles
  constructor
  case occupancy =>
    refine (houtcome .occupancy).trans ?_
    show Except.ok _ = Except.ok _
    rw [FileMap.used, FileMap.usedBelow_empty]
    simp [FileMap.empty]
  case capacity =>
    refine ⟨_, houtcome (.request .capacity), hcount, ?_⟩
    rw [UInt32.le_iff_toNat_le]
    exact hcount.symm ▸ Plan.make_files_le hplan
  case size =>
    intro ino hino
    refine (houtcome (.request (.size ino))).trans ?_
    show Op.outcome (FileMap.size ino) _ = _
    unfold Op.outcome FileMap.size
    have hin : ino < p.recordBlocks * 64 := UInt32.lt_iff_toNat_lt.mpr (hcount.symm ▸ hino)
    rw [FileMap.within_apply hin]
    rfl
  case again =>
    intro schedule first more
    -- Formatting only needs what is no change of the store below.
    have hL : Legible (Recorded.store (Unsteady.store schedule below)) v.medium size _
        (fun t image => Recorded.Asked (fun q => q.changes = false) t.1 ∧ 0 ≤ t.2.1 ∧
          holds t.2.2 image) :=
      Recorded.legible (Unsteady.medium hM 0).toLegible rfl fun _ _ => rfl
    have hsize := divides.size_eq
    have hentries := divides.entries_pos
    have hspared := format_spares hL (by omega) (Plan.formatted_laidOut divides.toSpans image) more
      (s := ([], first, s)) ⟨Recorded.asked_nil _, Nat.zero_le first, hs⟩
    exact Op.Ends.next (fun t : List Exchange × Nat × σ => Recorded.Unchanging t.1)
      (hspared.mono (fun _ _ hgood => hgood.1) fun _ _ hbad => hbad.1.1)

/-! ### Formatting as often as it takes -/

/-- Formatting can be tried until it succeeds, whichever calls of the
store below fail: attempts write to the tables only, those that fail
leave the medium without a file system, and one that succeeds leaves what
a single undisturbed one would have left, which is a new file system. -/
structure Repeatable (v : Volume) (below : Store σ) (schedule : Nat → Option Fault)
    (holds : σ → (Nat → Block) → Prop) (p : Plan) (files : UInt32) (image : Nat → Block)
    (start : List Exchange × Nat × σ) : Prop where
  /-- Attempts change nothing but the tables. -/
  writes : ∀ count, Recorded.Asked (Request.Writes v.medium (· < p.dataFrom))
    (v.tried below schedule files count start).1
  /-- No attempt is aborted. -/
  ends : ∀ count abort, Op.outcome (v.format (Recorded.store (Unsteady.store schedule below)) files)
    (v.tried below schedule files count start) ≠ .error (.abort abort)
  /-- As long as every attempt fails, the first block is the one that was
  there, and every call is refused. -/
  unformatted : ∀ count,
    (∀ k < count, Op.outcome (v.format (Recorded.store (Unsteady.store schedule below)) files)
      (v.tried below schedule files k start) ≠ .ok ()) →
    ∃ image', holds (v.tried below schedule files count start).2.2 image' ∧ image' 0 = image 0 ∧
      ∀ c : Call, (∀ ino, c ≠ .request (.sync ino)) →
        Op.outcome (v.serve below c) (v.tried below schedule files count start).2.2 =
          .error (.fault .unformatted)
  /-- An attempt that succeeds leaves the medium laid out. -/
  succeeds : ∀ count,
    Op.outcome (v.format (Recorded.store (Unsteady.store schedule below)) files)
      (v.tried below schedule files count start) = .ok () →
    holds (v.tried below schedule files (count + 1) start).2.2 (p.laidOut image)
  /-- After any attempts, one that nothing disturbs leaves it laid out in
  the same way. -/
  repeats : ∀ count, ∃ after,
    v.format below files (v.tried below schedule files count start).2.2 = .ok () after ∧
      holds after (p.laidOut image)
  /-- A medium that is laid out is a new file system. -/
  pristine : ∀ s, holds s (p.laidOut image) → v.Pristine below p files s

/-- A medium whose first word is zero can be formatted as often as it
takes. -/
theorem format_repeatable (hM : Medium below v.medium total.toNat (fun _ _ => False) holds)
    (hblank : (image 0).word 0 = 0) (hplan : Plan.make total files = .ok p)
    (hfiles : 64 * p.recordBlocks.toNat < 4294967296) (hs : holds s image)
    (schedule : Nat → Option Fault) (first : Nat) :
    v.Repeatable below schedule holds p files image ([], first, s) := by
  have divides := Plan.make_divides hplan
  have hsize := divides.size_eq
  have hentries := divides.entries_pos
  have hempty : (Superblock.decode (image 0)).formatted = false := by
    simp [Superblock.decode, Superblock.formatted, hblank]
  -- The tables are all that has to be written to, so no other write is on the record.
  have hbelow : Permits below v.medium total.toNat (· < p.dataFrom) _ holds :=
    hM.toPermits.restrict divides.tables_lt
  have hP : Permits (Recorded.store (Unsteady.store schedule below)) v.medium total.toNat
      (· < p.dataFrom) _ (fun t image =>
        Recorded.Asked (Request.Writes v.medium (· < p.dataFrom)) t.1 ∧
          0 ≤ t.2.1 ∧ holds t.2.2 image) :=
    Recorded.permits_writes ((Unsteady.medium hM 0).toPermits.restrict divides.tables_lt)
  have hstart : Recorded.Asked (Request.Writes v.medium (· < p.dataFrom)) [] ∧
      0 ≤ first ∧ holds s image := ⟨Recorded.asked_nil _, Nat.zero_le first, hs⟩
  -- Every state that attempts lead to is one in which the medium is begun or laid out.
  have hstaged := staged_tried (s := ([], first, s)) hP hplan rfl hfiles hempty hstart
  constructor
  case writes =>
    intro count
    obtain ⟨_, ⟨hasked, -⟩, -⟩ := hstaged count
    exact hasked
  case ends =>
    intro count abort habort
    obtain ⟨image', ht, hstage⟩ := hstaged count
    rcases (retry_ends hP hplan rfl hfiles hempty hstage ht).outcome_next with
      ⟨_, hend, -⟩ | ⟨_, hend, -⟩
    · cases hend.symm.trans habort
    · cases hend.symm.trans habort
  case unformatted =>
    intro count hfail
    obtain ⟨image', ⟨-, -, ht⟩, hbegun⟩ :=
      begun_tried (s := ([], first, s)) hP hplan rfl hfiles hempty hstart hfail
    refine ⟨image', ht, hbegun.1, fun c hc => ?_⟩
    rcases (serve_refused hM.toLegible (by omega) (by rw [hbegun.1, hempty]) ht
      hc).outcome_next with
      ⟨_, -, hno⟩ | ⟨_, hend, rfl | hno⟩
    · exact hno.elim
    · exact hend
    · exact hno.elim
  case succeeds =>
    intro count hok
    obtain ⟨image', ht, hstage⟩ := hstaged count
    unfold tried
    rw [Function.iterate_succ_apply']
    rcases (retry_ends hP hplan rfl hfiles hempty hstage ht).outcome_next with
      ⟨_, -, -, -, hafter⟩ | ⟨_, hend, -⟩
    · exact hafter
    · cases hend.symm.trans hok
  case repeats =>
    intro count
    obtain ⟨image', ⟨-, -, ht⟩, hstage⟩ := hstaged count
    obtain ⟨_, after, hrun, hafter⟩ :=
      (retry_ends hbelow hplan rfl hfiles hempty hstage ht).ok fun _ _ hbad => hbad.1
    exact ⟨after, hrun, hafter⟩
  case pristine => exact fun _ ht => pristine_laidOut hM hplan rfl hfiles ht

/-- Four blocks of zeros can be formatted as often as it takes. -/
theorem format_repeatable_zeros :
    Medium Memory.store 0 (4 : UInt32).toNat (fun _ _ => False) (Memory.Carries 0 4) ∧
      Block.zero.word 0 = 0 ∧ Plan.make 4 1 = .ok ⟨1, 1, 1⟩ ∧
      64 * (1 : UInt32).toNat < 4294967296 ∧
      Memory.Carries 0 4 (Memory.zeros 4) (fun _ => Block.zero) ∧
      ∀ schedule first, (⟨0⟩ : Volume).Repeatable Memory.store schedule (Memory.Carries 0 4)
        ⟨1, 1, 1⟩ 1 (fun _ => Block.zero) ([], first, Memory.zeros 4) := by
  have hM : Medium Memory.store 0 (4 : UInt32).toNat (fun _ _ => False) (Memory.Carries 0 4) :=
    Memory.medium 0 4
  have hplan : Plan.make 4 1 = .ok ⟨1, 1, 1⟩ := by decide
  have hs : Memory.Carries 0 4 (Memory.zeros 4) (fun _ => Block.zero) :=
    Memory.carries_zeros (by decide)
  refine ⟨hM, by decide, hplan, by decide, hs, fun schedule first => ?_⟩
  refine format_repeatable (v := ⟨0⟩) hM ?_ hplan ?_ hs schedule first
  · decide
  · decide

end Volume

end BlockLayers.Fat
