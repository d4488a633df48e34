import Mathlib
import BlockLayers.Proofs.Fat.Exchanged
import BlockLayers.Proofs.Fat.Format
import BlockLayers.Proofs.Image.Calls

/-!
# `BlockLayers.Proofs.Image.Reopened`: an image that is opened again

A path is opened by making its file, giving it a length if it has none,
and putting a file system on it. When the last fails nothing of it was
written, since the plan is made before the first write and the host
refuses none. So what a failed call leaves is a file of zeros (`Zeros`)
of the length that it was given, and the next call finds it.

To open a new path is to come upon a file of zeros too, and a file system
is put alike on files with the same bytes (`formatFile_alike`).

Main statement: `openVolume_again`. The length that the file has got
stays, and the later call does as if it had been given this one;
`openVolume_keeps_length` shows what follows for a later call with
another length.
-/

set_option autoImplicit false

namespace BlockLayers

namespace Image

open Host (Machine File Directory Failure)
open Fat (Plan Volume)

/-! ### A file of zeros -/

/-- The file with a kept name has `length` bytes, all of them zero. -/
def Zeros (name : String) (length : Nat) (m : Machine) : Prop :=
  name ∈ m.directory.files ∧ (m.directory.get name).Has (List.replicate length 0)

/-- A file without bytes gets a length. -/
theorem Zeros.setLength {name : String} {count : Nat} {m : Machine} (h : Zeros name count m)
    (hcount : count = 0) (length : Nat) :
    Zeros name length (changed name (fun file => file.setLength length) m) := by
  subst hcount
  refine ⟨mem_changed.mpr h.1, ?_⟩
  have hlength := h.2.setLength length
  rw [List.replicate_zero, List.take_nil, List.nil_append, List.length_nil, Nat.sub_zero] at hlength
  rw [get_changed h.1]
  exact hlength

/-- The blocks of zeros are zeros. -/
theorem padded_zeros (n k : Nat) : Block.padded (List.replicate n 0) k = Block.zero := by
  have h := Block.padded_append_zeros [] n k
  rw [List.nil_append] at h
  rw [h, Block.padded_of_le (Nat.zero_le _)]

section Zeros

variable {name : String} {count : Nat} {m m' : Machine} {files : UInt32} {fault : Fault}

/-- Every block of a file of zeros is one of zeros. -/
theorem Zeros.blockAt (h : Zeros name count m) (k : Nat) :
    (m.directory.get name).blockAt k = Block.zero :=
  (h.2.blockAt k).trans (padded_zeros count k)

/-- A file of zeros tells how many whole blocks it has. -/
theorem Zeros.told_eq (h : Zeros name count m) : told name m = UInt32.ofNat (count / 512) := by
  rw [told, h.2.length, List.length_replicate]

/-- A file of zeros is an image of blocks of zeros. -/
theorem Zeros.carries (h : Zeros name count m) :
    Carries name (UInt32.ofNat (count / 512)).toNat m (m.directory.get name).blockAt :=
  ⟨h.1, by rw [h.told_eq], fun _ _ => rfl⟩

/-- Zeros are no superblock. -/
theorem Zeros.unformatted (h : Zeros name count m) :
    (Fat.Superblock.decode ((m.directory.get name).blockAt 0)).formatted = false := by
  rw [h.blockAt]
  decide

/-- A file of zeros is laid out by a plan, if there is one. -/
theorem format_zeros (h : Zeros name count m) :
    volume.format (ofFile name).store files m =
      if UInt32.ofNat (count / 512) = 0 then .error (.fault .noSpace) m
      else (do
        let plan ← Op.ofResult (Plan.make (UInt32.ofNat (count / 512)) files)
        volume.layOut (ofFile name).store plan
        volume.announce (UInt32.ofNat (count / 512)) plan : Op Machine Unit) m := by
  rw [← h.told_eq]
  unfold Fat.Volume.format
  rw [Op.bind_of_ok (show (ofFile name).store (.size volume.medium) m = _ from size_apply)]
  dsimp only
  by_cases hzero : told name m = 0
  · rw [if_pos hzero, if_pos hzero]
    rfl
  have hread : volume.readBlock (ofFile name).store 0 m =
      .ok ((m.directory.get name).blockAt 0) m := by
    have hrun := read_apply name m 0
    rw [if_neg fun hle => hzero (UInt32.le_antisymm hle (UInt32.zero_le ..))] at hrun
    exact hrun
  rw [if_neg hzero, if_neg hzero, Op.bind_of_ok hread, h.unformatted]
  rfl

/-- A format of a file of zeros that ends with a fault has no plan, and
nothing was written. -/
theorem format_fault (h : Zeros name count m)
    (hrun : volume.format (ofFile name).store files m = .error (.fault fault) m') : m' = m := by
  rw [format_zeros h] at hrun
  split at hrun
  · cases hrun
    rfl
  cases hplan : Plan.make (UInt32.ofNat (count / 512)) files with
  | error stop =>
    rw [hplan] at hrun
    cases hrun
    rfl
  | ok plan =>
    rw [hplan, Op.bind_of_ok (show Op.ofResult (.ok plan) m = .ok plan m from rfl)] at hrun
    -- The host refuses no write, and no fault follows the last one.
    have divides := Plan.make_divides hplan
    have hP : Permits (ofFile name).store volume.medium _ (· < plan.dataFrom) _ _ :=
      (medium name _).toPermits.restrict divides.tables_lt
    rcases (Fat.Volume.layOut_ends hP divides h.carries).exists_run with
      ⟨_, after, hlaid, -⟩ | ⟨_, _, -, hnever, -⟩
    · rw [Op.bind_of_ok hlaid] at hrun
      exact (Fat.Volume.announce_ne_fault hrun).elim
    · exact hnever.elim

end Zeros

/-! ### Opening -/

/-- Put a file system on the file with a kept name, unless there is
one. -/
def formatFile (name : String) (files : UInt32) : Op Machine (Except Failure Image) := do
  volume.format (ofFile name).store files
  return .ok (ofFile name)

/-- A path that leads to a file of zeros, or to one that comes to be
there, is opened by giving the file a length if it has none and putting a
file system on it. -/
theorem openVolume_zeros {path name : String} {d : Directory} {m : Machine} {count : Nat}
    (hcreate : m.directory.create path = .ok (name, d))
    (hzeros : Zeros name count (m.onDirectory fun _ => d)) (length : Nat) (files : UInt32) :
    ∃ m', Zeros name (if count = 0 then length else count) m' ∧ m'.filter = m.filter ∧
      m'.directory.create path = .ok (name, m'.directory) ∧ openVolume path length files m =
        if count = 0 ∧ lengthLimit < length then
          .ok (.error .lengthOverflow) (m.onDirectory fun _ => d)
        else formatFile name files m' := by
  let opened := m.onDirectory fun _ => d
  have hlength : (opened.directory.get name).length = count := by
    rw [hzeros.2.length, List.length_replicate]
  -- Once the path is opened, only the length of the file decides what is done.
  have hrun : openVolume path length files m =
      (if (opened.directory.get name).length = 0 then
        if lengthLimit < length then pure (.error .lengthOverflow)
        else do
          (ofFile name).alter fun file => file.setLength length
          formatFile name files
      else formatFile name files) opened := by
    unfold openVolume
    rw [Op.bind_of_ok (Op.get_apply m), hcreate]
    dsimp only
    rw [Op.bind_of_ok (show (modify (Machine.onDirectory fun _ => d) : Op Machine _) m =
      .ok _ opened from rfl), Op.bind_of_ok (Op.get_apply opened)]
    split
    · split <;> rfl
    · rfl
  rw [hlength] at hrun
  have hcreated := Directory.create_eq_ok hcreate
  by_cases hzero : count = 0
  · -- The file has no length yet.
    have hzeros' := hzeros.setLength hzero length
    rw [if_pos hzero] at hrun ⊢
    refine ⟨_, hzeros', rfl, hcreated.again hcreated.folders hzeros'.1, ?_⟩
    rw [hrun]
    by_cases hlong : lengthLimit < length
    · rw [if_pos hlong, if_pos ⟨hzero, hlong⟩]
      rfl
    · rw [if_neg hlong, if_neg fun hboth => hlong hboth.2]
      rfl
  · rw [if_neg hzero] at hrun ⊢
    refine ⟨opened, hzeros, rfl, hcreated.again hcreated.folders hzeros.1, ?_⟩
    rw [hrun, if_neg fun hboth => hzero hboth.1]

/-- A blank path is opened by giving the file its length and putting a
file system on it, unless the host cannot count so far. -/
theorem openVolume_blank {path name : String} {d : Directory} {m : Machine}
    (hcreate : m.directory.create path = .ok (name, d)) (hblank : m.directory.Blank path)
    (length : Nat) (files : UInt32) :
    ∃ m', Zeros name length m' ∧ m'.filter = m.filter ∧
      m'.directory.create path = .ok (name, m'.directory) ∧ openVolume path length files m =
        if lengthLimit < length then .ok (.error .lengthOverflow) (m.onDirectory fun _ => d)
        else formatFile name files m' := by
  have hcreated := Directory.create_eq_ok hcreate
  have hzeros : Zeros name 0 (m.onDirectory fun _ => d) := ⟨hcreated.mem, hcreated.blank hblank⟩
  have hopened := openVolume_zeros hcreate hzeros length files
  simpa only [if_true, true_and] using hopened

/-- Two ways of opening a file end alike: they stop for one reason, the
host refuses for one reason, or the files have the same bytes and hold
file systems that answer all calls alike. -/
inductive OpensAlike (m n : Machine) :
    Except Stop (Except Failure Image) → Except Stop (Except Failure Image) → Prop
  | stopped (stop : Stop) : OpensAlike m n (.error stop) (.error stop)
  | refused (failure : Failure) : OpensAlike m n (.ok (.error failure)) (.ok (.error failure))
  | opened {name name' : String}
      (content : (m.directory.get name).content = (n.directory.get name').content)
      (serve : ∀ calls, Op.outcomes (volume.serve (ofFile name).store) calls m =
        Op.outcomes (volume.serve (ofFile name').store) calls n) :
      OpensAlike m n (.ok (.ok (ofFile name))) (.ok (.ok (ofFile name')))

/-- A file system is put alike on files with the same bytes. -/
theorem formatFile_alike {name name' : String} {m n : Machine} (h : SameBytes name name' m n)
    (files : UInt32) :
    OpensAlike (Op.next (formatFile name files) m) (Op.next (formatFile name' files) n)
      (Op.outcome (formatFile name files) m) (Op.outcome (formatFile name' files) n) := by
  have hexchange := exchange name name'
  obtain ⟨houtcome, hsame⟩ := Fat.Volume.format_exchanged hexchange volume files m n h
  cases hrun : Op.outcome (volume.format (ofFile name).store files) m with
  | error stop =>
    have hstop := Op.bind_of_outcome_error hrun fun _ =>
      (pure (.ok (ofFile name)) : Op Machine (Except Failure Image))
    have hstop' := Op.bind_of_outcome_error (houtcome.symm.trans hrun) fun _ =>
      (pure (.ok (ofFile name')) : Op Machine (Except Failure Image))
    rw [formatFile, formatFile, hstop.1, hstop'.1]
    exact .stopped stop
  | ok _ =>
    have hok := Op.apply_of_outcome_ok hrun
    have hok' := Op.apply_of_outcome_ok (houtcome.symm.trans hrun)
    rw [formatFile, formatFile, Op.outcome_bind hok, Op.outcome_bind hok', Op.next_bind hok,
      Op.next_bind hok']
    obtain ⟨bytes, hm, hn⟩ := hsame.bytes
    -- The formats have left files with the same bytes, so all later calls end alike as well.
    refine .opened (hm.content.trans hn.content.symm) fun calls => ?_
    exact Op.outcomes_eq (fun c => Fat.Volume.serve_exchanged hexchange volume c) calls hsame

/-- A file of zeros on which no file system was put is as it was. -/
theorem formatFile_fault {name : String} {count : Nat} {m : Machine} {files : UInt32}
    {fault : Fault} (h : Zeros name count m)
    (hfailed : Op.outcome (formatFile name files) m = .error (.fault fault)) :
    Op.next (formatFile name files) m = m := by
  cases hrun : volume.format (ofFile name).store files m with
  | ok _ after =>
    rw [formatFile, Op.outcome_bind hrun] at hfailed
    cases hfailed
  | error stop after =>
    have hstop : formatFile name files m = .error stop after := Op.bind_of_error hrun _
    simp only [Op.outcome, hstop] at hfailed
    cases hfailed
    simp only [Op.next, hstop]
    exact format_fault h hrun

/-- A file of zeros for which there is no room for a plan is refused. -/
theorem formatFile_noSpace {name : String} {count : Nat} {m : Machine} {files : UInt32}
    (h : Zeros name count m)
    (hplan : Plan.make (UInt32.ofNat (count / 512)) files = .error (.fault .noSpace)) :
    Op.outcome (formatFile name files) m = .error (.fault .noSpace) := by
  have hrun : volume.format (ofFile name).store files m = .error (.fault .noSpace) m := by
    rw [format_zeros h, hplan]
    split <;> rfl
  simp only [Op.outcome, formatFile, Op.bind_of_error hrun]

/-- A file of zeros gets a file system if there is a plan whose files can
be counted. -/
theorem formatFile_ok {name : String} {count : Nat} {m : Machine} {files : UInt32} {plan : Plan}
    (h : Zeros name count m) (hplan : Plan.make (UInt32.ofNat (count / 512)) files = .ok plan)
    (hfiles : 64 * plan.recordBlocks.toNat < 4294967296) :
    Op.outcome (formatFile name files) m = .ok (.ok (ofFile name)) := by
  have divides := Plan.make_divides hplan
  have hP : Permits (ofFile name).store volume.medium _ (· < plan.dataFrom) _ _ :=
    (medium name _).toPermits.restrict divides.tables_lt
  rcases (Fat.Volume.format_lays hP hplan rfl divides (.inl hfiles) h.unformatted
    h.carries).exists_run with ⟨_, after, hrun, -⟩ | ⟨_, _, -, hnever, -⟩
  · rw [formatFile, Op.outcome_bind hrun]
    rfl
  · exact hnever.elim

/-- A path on which opening stops has a place for a file. -/
theorem exists_create {path : String} {m : Machine} {length : Nat} {files : UInt32} {stop : Stop}
    (h : Op.outcome (openVolume path length files) m = .error stop) :
    ∃ name d, m.directory.create path = .ok (name, d) := by
  cases hcreate : m.directory.create path with
  | ok created => exact ⟨created.1, created.2, rfl⟩
  | error failure =>
    have hrun : openVolume path length files m = .ok (.error failure) m := by
      unfold openVolume
      rw [Op.bind_of_ok (Op.get_apply m), hcreate]
      rfl
    rw [Op.outcome_of_ok hrun] at h
    cases h

/-- A new path is opened if there is a plan for its length whose files
can be counted. -/
theorem openVolume_ok {path : String} {m : Machine} {length : Nat} {files : UInt32} {plan : Plan}
    (hnew : m.directory.New path) (hshort : length ≤ lengthLimit)
    (hplan : Plan.make (UInt32.ofNat (length / 512)) files = .ok plan)
    (hfiles : 64 * plan.recordBlocks.toNat < 4294967296) :
    ∃ image, Op.outcome (openVolume path length files) m = .ok (.ok image) := by
  obtain ⟨name, d, hcreate⟩ := hnew.create
  obtain ⟨m', hzeros, -, -, hrun⟩ := openVolume_blank hcreate hnew.blank length files
  rw [if_neg (Nat.not_lt.mpr hshort)] at hrun
  exact ⟨ofFile name, (Op.outcome_congr hrun).trans (formatFile_ok hzeros hplan hfiles)⟩

/-- A new path is not opened if there is no room for a plan. -/
theorem openVolume_noSpace {path : String} {m : Machine} {length : Nat} {files : UInt32}
    (hnew : m.directory.New path) (hshort : length ≤ lengthLimit)
    (hplan : Plan.make (UInt32.ofNat (length / 512)) files = .error (.fault .noSpace)) :
    Op.outcome (openVolume path length files) m = .error (.fault .noSpace) := by
  obtain ⟨name, d, hcreate⟩ := hnew.create
  obtain ⟨m', hzeros, -, -, hrun⟩ := openVolume_blank hcreate hnew.blank length files
  rw [if_neg (Nat.not_lt.mpr hshort)] at hrun
  exact (Op.outcome_congr hrun).trans (formatFile_noSpace hzeros hplan)

/-- A call that opens a blank path and fails with a fault leaves a file of
zeros of the length that it was given. -/
theorem openVolume_fault {path : String} {m : Machine} {length : Nat} {files : UInt32}
    {fault : Fault} (hblank : m.directory.Blank path)
    (hfailed : Op.outcome (openVolume path length files) m = .error (.fault fault)) :
    let after := Op.next (openVolume path length files) m
    ¬ lengthLimit < length ∧ after.filter = m.filter ∧ ∃ name, Zeros name length after ∧
      after.directory.create path = .ok (name, after.directory) := by
  intro after
  obtain ⟨name, d, hcreate⟩ := exists_create hfailed
  obtain ⟨m', hzeros, hfilter, hagain, hrun⟩ := openVolume_blank hcreate hblank length files
  have hshort : ¬ lengthLimit < length := by
    intro hlong
    rw [if_pos hlong] at hrun
    rw [Op.outcome_of_ok hrun] at hfailed
    cases hfailed
  rw [if_neg hshort] at hrun
  have hafter : after = m' :=
    (Op.next_congr hrun).trans (formatFile_fault hzeros ((Op.outcome_congr hrun).symm.trans hfailed))
  rw [hafter]
  exact ⟨hshort, hfilter, name, hzeros, hagain⟩

/-- A call that opens a blank path and fails with a fault leaves a file
of the length it was given, if this is not 0. So a later call on the path
ends as one on a new path does that is given this length, and as one that
is given its own length if the first was 0. -/
theorem openVolume_again {path fresh : String} {m n : Machine} {length length' : Nat}
    {files files' : UInt32} {fault : Fault} (hblank : m.directory.Blank path)
    (hnew : n.directory.New fresh) (hfilter : m.filter = n.filter)
    (hfailed : Op.outcome (openVolume path length files) m = .error (.fault fault)) :
    let after := Op.next (openVolume path length files) m
    let again := openVolume path length' files'
    let first := openVolume fresh (if length = 0 then length' else length) files'
    OpensAlike (Op.next again after) (Op.next first n) (Op.outcome again after)
      (Op.outcome first n) := by
  intro after again first
  -- The later call comes upon the file that the failed one has left.
  obtain ⟨hshort, hfilter₁, name, hzeros₁, hcreate⟩ := openVolume_fault hblank hfailed
  obtain ⟨m₂, hzeros₂, hfilter₂, -, hagain⟩ := openVolume_zeros hcreate hzeros₁ length' files'
  -- On a new path there is a file without bytes.
  obtain ⟨name', d', hcreate'⟩ := hnew.create
  obtain ⟨n₁, hzeros', hfilter', -, hfirst⟩ := openVolume_blank hcreate' hnew.blank
    (if length = 0 then length' else length) files'
  have hover : (lengthLimit < if length = 0 then length' else length) ↔
      length = 0 ∧ lengthLimit < length' := by
    split
    · rename_i hzero
      exact (and_iff_right hzero).symm
    · rename_i hne
      exact iff_of_false hshort fun hboth => hne hboth.1
  by_cases hlong : length = 0 ∧ lengthLimit < length'
  · rw [if_pos hlong] at hagain
    rw [if_pos (hover.mpr hlong)] at hfirst
    rw [Op.outcome_of_ok hagain, Op.outcome_of_ok hfirst]
    exact .refused .lengthOverflow
  · rw [if_neg hlong] at hagain
    rw [if_neg fun hfirst => hlong (hover.mp hfirst)] at hfirst
    rw [Op.outcome_congr hagain, Op.next_congr hagain, Op.outcome_congr hfirst,
      Op.next_congr hfirst]
    refine formatFile_alike ⟨hzeros₂.1, hzeros'.1, ?_, _, hzeros₂.2, hzeros'.2⟩ files'
    rw [hfilter₂, hfilter₁, hfilter, hfilter']

/-- The later call does not end as on a new path with the length that it
is given. In an empty directory there is no room for a file system in a
file of one block, and there is in one of four blocks. But a file that
was made with one block keeps it. -/
theorem openVolume_keeps_length :
    let m := Machine.start Directory.empty (Event.Filter.upTo none)
    let after := Op.next (openVolume "a" 512 1) m
    m.directory.Blank "a" ∧ Op.outcome (openVolume "a" 512 1) m = .error (.fault .noSpace) ∧
    m.directory.New "b" ∧ (∃ image, Op.outcome (openVolume "b" 2048 1) m = .ok (.ok image)) ∧
    Op.outcome (openVolume "a" 2048 1) after = .error (.fault .noSpace) := by
  intro m after
  have hplan : Plan.make (UInt32.ofNat (2048 / 512)) 1 = .ok ⟨1, 1, 1⟩ := rfl
  have hnew : m.directory.New "a" := ⟨"a", by cbv⟩
  have hnew' : m.directory.New "b" := ⟨"b", by cbv⟩
  have hfailed : Op.outcome (openVolume "a" 512 1) m = .error (.fault .noSpace) :=
    openVolume_noSpace hnew (by decide) rfl
  refine ⟨hnew.blank, hfailed, hnew', openVolume_ok hnew' (by decide) hplan (by decide), ?_⟩
  obtain ⟨-, -, name, hzeros, hcreate⟩ := openVolume_fault hnew.blank hfailed
  obtain ⟨m', hzeros', -, -, hagain⟩ := openVolume_zeros hcreate hzeros 2048 1
  rw [if_neg (by decide)] at hzeros' hagain
  exact (Op.outcome_congr hagain).trans (formatFile_noSpace hzeros' rfl)

/-- The first call asks for too many files in four blocks, and the later
one for a single file. -/
theorem openVolume_again_fewer_files :
    let m := Machine.start Directory.empty (Event.Filter.upTo none)
    let after := Op.next (openVolume "a" 2048 1000) m
    let again := openVolume "a" 2048 1
    let first := openVolume "b" 2048 1
    m.directory.Blank "a" ∧ m.directory.New "b" ∧
    Op.outcome (openVolume "a" 2048 1000) m = .error (.fault .noSpace) ∧
    OpensAlike (Op.next again after) (Op.next first m) (Op.outcome again after)
      (Op.outcome first m) ∧ ∃ image, Op.outcome again after = .ok (.ok image) := by
  intro m after again first
  have hplan : Plan.make (UInt32.ofNat (2048 / 512)) 1 = .ok ⟨1, 1, 1⟩ := rfl
  have hnew : m.directory.New "a" := ⟨"a", by cbv⟩
  have hnew' : m.directory.New "b" := ⟨"b", by cbv⟩
  have hfailed : Op.outcome (openVolume "a" 2048 1000) m = .error (.fault .noSpace) :=
    openVolume_noSpace hnew (by decide) rfl
  have halike : OpensAlike (Op.next again after) (Op.next first m) (Op.outcome again after)
      (Op.outcome first m) :=
    @openVolume_again "a" "b" m m 2048 2048 1000 1 .noSpace hnew.blank hnew' rfl hfailed
  obtain ⟨image, hopened⟩ : ∃ image, Op.outcome first m = .ok (.ok image) :=
    openVolume_ok hnew' (by decide) hplan (by decide)
  refine ⟨hnew.blank, hnew', hfailed, halike, ?_⟩
  -- What ends alike with a file that was opened has opened one.
  generalize Op.outcome again after = result at halike ⊢
  rw [hopened] at halike
  cases halike
  exact ⟨_, rfl⟩

end Image

end BlockLayers
