import BlockLayers.Proofs.Fat.Contained
import BlockLayers.Proofs.Fat.Intact

/-!
# `BlockLayers.Proofs.Fat.Nested`: a volume inside a file of a volume

A file of a volume has blocks, and so it can be the medium of another
volume. To the outer one it is what an inode of a store in memory is.

A map of files keeps the contract of a medium on each of its files, as
long as no block behind the end is asked for (`FileMap.medium`). The
volume that the file is in agrees with the map of its files, so it keeps
the contract too, and the outer volume agrees with a map of its own
files (`Volume.serve_agrees`), the same one as over a store in memory.
The contract also says what the inner map is at any time: the old one
with other blocks in the one file (`FileMap.filled`). So its size, the
count of the entries and all other files stay what they were.

Main statement: `Volume.nested_eq_plain`.
-/

set_option autoImplicit false

namespace BlockLayers.Fat

/-! ### A file as a medium -/

namespace FileMap

variable {f : FileMap} {ino : UInt32} {size : Nat} {image : Nat → Block}

/-- The map with the blocks of an image in a file, as many as it had. -/
def filled (f : FileMap) (ino : UInt32) (size : Nat) (image : Nat → Block) : FileMap :=
  f.setFile ino ((List.range size).map image) f.free

/-- The file that was filled has the blocks of the image. -/
theorem file_filled (f : FileMap) (ino : UInt32) (size : Nat) (image : Nat → Block) :
    (f.filled ino size image).file ino = (List.range size).map image := file_setFile_self ..

/-- The other files stay. -/
theorem file_filled_of_ne {other : UInt32} (h : other ≠ ino) :
    (f.filled ino size image).file other = f.file other := file_setFile_of_ne _ _ h

/-- A map has the blocks of an image that its file has. -/
theorem filled_eq_self (h : f.file ino = (List.range size).map image) :
    f.filled ino size image = f := by
  unfold filled setFile
  rw [← h, Function.update_eq_self]

/-- A file that keeps its length takes no more blocks. -/
theorem used_filled (hino : ino < f.count) (hlength : (f.file ino).length = size) :
    (f.filled ino size image).used = f.used := by
  have hused := used_setFile hino ((List.range size).map image) f.free
  rw [List.length_map, List.length_range] at hused
  show (f.setFile ino ((List.range size).map image) f.free).used = _
  omega

/-- A write within the file changes the image. -/
theorem written_map {n : Nat} (hn : n < size) (image : Nat → Block) (block : Block) :
    written ((List.range size).map image) n block =
      (List.range size).map (Function.update image n block) := by
  rw [written, if_pos (by simpa using hn)]
  refine List.ext_getElem (by simp) fun k hk hk' => ?_
  rw [List.getElem_set, List.getElem_map, List.getElem_map, List.getElem_range]
  split_ifs with hat
  · rw [← hat, Function.update_self]
  · rw [Function.update_of_ne fun heq => hat heq.symm]

/-- A file of a map keeps its blocks, and nothing within its size is
refused. All else in the map stays as it was. -/
theorem medium (hino : ino < f.count) (hsize : size < 4294967296) :
    Medium store ino size (fun _ _ => False) (fun f' image => f' = f.filled ino size image) where
  read := by
    rintro _ image n rfl hn
    refine .of_ok (read_apply (a := ⟨ino, n⟩) hino ?_) ⟨rfl, rfl⟩
    rw [file_filled, List.getElem?_map, List.getElem?_range hn]
    rfl
  size := by
    rintro _ image rfl
    refine .of_ok (within_apply hino) ⟨?_, rfl⟩
    rw [file_filled, List.length_map, List.length_range]
    exact UInt32.toNat_ofNat_of_lt' hsize
  write := by
    rintro _ image n block rfl hn
    -- The file is long enough, so it gains no entries.
    have hgained : n.toNat + 1 - ((f.filled ino size image).file ino).length = 0 := by
      rw [file_filled, List.length_map, List.length_range]
      omega
    have hrun : write ⟨ino, n⟩ block (f.filled ino size image) = _ :=
      write_apply hino block (Nat.le_trans (Nat.le_of_eq hgained) (Nat.zero_le _))
    refine .of_ok hrun ?_
    rw [hgained, file_filled, written_map hn]
    simp only [filled, setFile, Function.update_idem, Nat.sub_zero]
  sync := by
    rintro _ image rfl
    exact .of_ok rfl rfl
  note := fun _ h => h

end FileMap

namespace Volume

/-! ### Media with the same blocks -/

section Media

variable {σ τ : Type} [Journal σ] [Journal τ] {v v' : Volume} {below : Store σ} {below' : Store τ}
  {holds : σ → (Nat → Block) → Prop} {holds' : τ → (Nat → Block) → Prop} {image : Nat → Block}
  {s : σ} {s' : τ} {blocks files : UInt32}

/-- A medium that held no file system and for which there is a plan
presents empty files when it was formatted. -/
theorem format_presents {p : Plan}
    (hM : Medium below v.medium blocks.toNat (fun _ _ => False) holds)
    (hquiet : ∀ s : σ, Journal.keeps s .info = false) (hplan : Plan.make blocks files = .ok p)
    (hempty : (Superblock.decode (image 0)).formatted = false) (hs : holds s image) :
    Op.outcome (v.format below files) s = .ok () ∧
      Presents p holds (Op.next (v.format below files) s)
        (FileMap.empty (p.recordBlocks * 64) p.entries) := by
  have hdivides := Plan.make_divides hplan
  rcases (format_ends hM hplan rfl hdivides (.inr hquiet) hempty hs).outcome_next with
    ⟨_, hrun, hkeeps⟩ | ⟨_, -, hno⟩
  · -- A medium that was laid out has sound chains, and they match empty files.
    exact ⟨hrun, _, _, hkeeps, fresh_sound hdivides _, fresh_matches p _⟩
  · exact hno.elim

/-- Volumes on media with the same blocks, of which one was formatted and
held no file system before, can both be formatted, and then no calls
tell them apart. -/
theorem formatted_agree (hM : Medium below v.medium blocks.toNat (fun _ _ => False) holds)
    (hM' : Medium below' v'.medium blocks.toNat (fun _ _ => False) holds')
    (hquiet : ∀ s : σ, Journal.keeps s .info = false)
    (hquiet' : ∀ s : τ, Journal.keeps s .info = false)
    (hempty : 0 < blocks.toNat → (Superblock.decode (image 0)).formatted = false)
    (hs : holds s image) (hs' : holds' s' image)
    (hfiles : 64 * ((files.toNat + 63) / 64) < 4294967296)
    (hformat : Op.outcome (v'.format below' files) s' = .ok ()) :
    Op.outcome (v.format below files) s = .ok () ∧ ∀ calls,
      Op.outcomes (v.serve below) calls (Op.next (v.format below files) s) =
        Op.outcomes (v'.serve below') calls (Op.next (v'.format below' files) s') ∧
      ∃ image',
        holds (Op.after (v.serve below) calls (Op.next (v.format below files) s)) image' := by
  -- The plan is the same for both, since it is made from the number of blocks.
  obtain ⟨p, -, hplan, -⟩ := formatted_keeps hM' hquiet' rfl hempty hs'
    (Op.apply_of_outcome_ok hformat)
  have hdivides := Plan.make_divides hplan
  have hpos : 0 < blocks.toNat := by
    have hsize := hdivides.size_eq
    unfold Plan.dataFrom Plan.linksFrom at hsize
    omega
  have fits : p.Usable blocks.toNat := Plan.make_usable hplan hfiles
  obtain ⟨hrun, hpresents⟩ := format_presents hM hquiet hplan (hempty hpos) hs
  obtain ⟨-, hpresents'⟩ := format_presents hM' hquiet' hplan (hempty hpos) hs'
  -- Either volume ends its calls as the map of its files does, and the maps are the same.
  have hagrees := serve_agrees hM (fun _ _ h => h) fits
  refine ⟨hrun, fun calls => ⟨?_, ?_⟩⟩
  · exact (Op.outcomes_eq hagrees calls hpresents).trans
      (Op.outcomes_eq (serve_agrees hM' (fun _ _ h => h) fits) calls hpresents').symm
  · obtain ⟨_, _, ⟨image', hkept, -⟩, -⟩ := Op.Agrees.after hagrees calls hpresents
    exact ⟨image', hkept⟩

end Media

/-! ### The inner volume -/

variable {inner : Volume} {plan : Plan} {total : Nat} {f : FileMap} {file : UInt32} {size : Nat}
  {m : Memory}

/-- What is known of a store in memory with a volume on it, one file of
which has the blocks of an image. -/
def Nested (inner : Volume) (plan : Plan) (total : Nat) (f : FileMap) (file : UInt32) (size : Nat)
    (m : Memory) (image : Nat → Block) : Prop :=
  ∃ f', inner.Refines plan total m f' ∧ f' = f.filled file size image

/-- A file of a volume in memory keeps its blocks. -/
theorem nested_medium (fits : plan.Usable total) (hfile : file < f.count)
    (hsize : size < 4294967296) :
    Medium (inner.store Memory.store) file size (fun _ _ => False)
      (inner.Nested plan total f file size) := by
  have hM : Medium (inner.store Memory.store) file size _ (inner.Nested plan total f file size) :=
    .along (fun q => serve_agree fits (.request q)) (fun _ _ _ h => h) (FileMap.medium hfile hsize)
  simpa only [and_false, exists_false] using hM

/-- What is told of the files of the inner volume is what it was, but for
the blocks of the one file. -/
theorem Nested.told {image : Nat → Block} {m' : Memory} {counted : Occupancy}
    (h : inner.Nested plan total f file size m' image) (hf : inner.Refines plan total m f)
    (fits : plan.Usable total) (hfile : file < f.count) (hlength : (f.file file).length = size)
    (hcount : Op.outcome (inner.occupancy Memory.store) m = .ok counted) :
    Op.outcome (inner.store Memory.store (.size file)) m' = .ok (UInt32.ofNat size) ∧
      Op.outcome (inner.occupancy Memory.store) m' = .ok counted ∧
      ∀ other, other ≠ file → inner.SameFile m m' other := by
  obtain ⟨f', hf', rfl⟩ := h
  refine ⟨?_, ?_, fun other hother =>
    hf.sameFile hf' fits fun _ => FileMap.file_filled_of_ne hother⟩
  · rw [hf'.outcome fits, FileMap.outcome_size, FileMap.file_filled, List.length_map,
      List.length_range]
    exact if_neg (UInt32.not_le.mpr hfile)
  · have hbefore := (serve_agree fits .occupancy m f hf).1
    have hafter := (serve_agree fits .occupancy m' _ hf').1
    rw [← hcount]
    refine hafter.trans (Eq.trans ?_ hbefore.symm)
    simp only [FileMap.serve, Op.outcome, FileMap.used_filled hfile hlength]
    rfl

/-! ### The outer volume -/

/-- A file of a volume and an inode of a store in memory have the same
blocks, `blocks` in number. -/
structure SameBlocks (inner : Volume) (m : Memory) (file : UInt32) (plain : Memory)
    (ino blocks : UInt32) : Prop where
  size : Op.outcome (inner.store Memory.store (.size file)) m = .ok blocks
  plain_size : Op.outcome (Memory.store (.size ino)) plain = .ok blocks
  read : ∀ offset < blocks, Op.outcome (inner.store Memory.store (.read ⟨file, offset⟩)) m =
    Op.outcome (Memory.store (.read ⟨ino, offset⟩)) plain

variable {plain : Memory} {ino blocks : UInt32}

/-- The blocks of the file are those that the inode carries. -/
theorem SameBlocks.carried (h : inner.SameBlocks m file plain ino blocks)
    (hf : inner.Refines plan total m f) (fits : plan.Usable total) :
    file < f.count ∧ ∃ image, Memory.Carries ino blocks.toNat plain image ∧
      f.file file = (List.range blocks.toNat).map image := by
  have hsize := (hf.outcome fits (.size file)).symm.trans h.size
  rw [FileMap.outcome_size] at hsize
  split_ifs at hsize with hno
  have hfile := UInt32.not_le.mp hno
  have hlength : (f.file file).length = blocks.toNat := by
    rw [← hf.whole.toNat_length hfile, Except.ok.inj hsize]
  obtain ⟨image, hcarries⟩ := Memory.carries_of_ok rfl (Op.apply_of_outcome_ok h.plain_size)
  have hM := Memory.medium ino (plain.told ino).toNat
  obtain ⟨hblocks, -⟩ := (hM.size hcarries).good_of (Op.apply_of_outcome_ok h.plain_size)
  rw [← hblocks] at hM hcarries
  refine ⟨hfile, image, hcarries, List.ext_getElem (by simpa using hlength) fun k hk hk' => ?_⟩
  have hlt : k < blocks.toNat := hlength ▸ hk
  have hword : (UInt32.ofNat k).toNat = k :=
    UInt32.toNat_ofNat_of_lt' (Nat.lt_trans hlt blocks.toNat_lt)
  -- What is read of the file at `k` is what is read of the inode there.
  have hread := h.read (UInt32.ofNat k) (UInt32.lt_iff_toNat_lt.mpr (by rwa [hword]))
  rw [hf.outcome fits, FileMap.outcome_read, if_neg hno] at hread
  dsimp only at hread
  rw [hword, List.getElem?_eq_getElem hk] at hread
  obtain ⟨heq, -⟩ := (hM.read hcarries (by rwa [hword])).good_of (Op.apply_of_outcome_ok hread.symm)
  rw [heq, hword, List.getElem_map, List.getElem_range]

/-- A volume inside a file of a volume answers as one on an inode of a
store in memory with the same blocks, and it keeps to its file. The
inner volume is one whose entries were counted. Block 0 of the file
holds no file system, and the inode can be formatted. Then the file can
be formatted too, all calls end alike on both, and after any calls the
file has its size, the count of the entries is the old one, and the
other files look the same. -/
theorem nested_eq_plain {counted : Occupancy} {files : UInt32}
    (hcount : Op.outcome (inner.occupancy Memory.store) m = .ok counted)
    (hsame : inner.SameBlocks m file plain ino blocks)
    (hfresh : ∀ block, Op.outcome (inner.store Memory.store (.read ⟨file, 0⟩)) m = .ok block →
      (Superblock.decode block).formatted = false)
    (hfiles : 64 * ((files.toNat + 63) / 64) < 4294967296)
    (hformat : Op.outcome ((⟨ino⟩ : Volume).format Memory.store files) plain = .ok ()) :
    let below := inner.store Memory.store
    let start := Op.next ((⟨file⟩ : Volume).format below files) m
    let plainStart := Op.next ((⟨ino⟩ : Volume).format Memory.store files) plain
    Op.outcome ((⟨file⟩ : Volume).format below files) m = .ok () ∧ ∀ calls,
      Op.outcomes ((⟨file⟩ : Volume).serve below) calls start =
        Op.outcomes ((⟨ino⟩ : Volume).serve Memory.store) calls plainStart ∧
      let m' := Op.after ((⟨file⟩ : Volume).serve below) calls start
      Op.outcome (below (.size file)) m' = .ok blocks ∧
      Op.outcome (inner.occupancy Memory.store) m' = .ok counted ∧
      ∀ other, other ≠ file → inner.SameFile m m' other := by
  intro below start plainStart
  obtain ⟨plan, f, fits, hf⟩ := refines_of_told (Op.apply_of_outcome_ok hcount)
    (.inr ⟨file, rfl⟩) (Op.apply_of_outcome_ok hsame.size)
  obtain ⟨hfile, image, hcarries, hblocks⟩ := hsame.carried hf fits
  have hlength : (f.file file).length = blocks.toNat := by
    rw [hblocks, List.length_map, List.length_range]
  -- To the outer volume the file is a medium like any other.
  have hM : Medium below file blocks.toNat _ _ := nested_medium fits hfile blocks.toNat_lt
  have hempty : 0 < blocks.toNat → (Superblock.decode (image 0)).formatted = false := by
    intro hpos
    refine hfresh (image 0) ?_
    rw [hf.outcome fits, FileMap.outcome_read, if_neg (UInt32.not_le.mpr hfile)]
    dsimp only
    rw [UInt32.toNat_zero, hblocks, List.getElem?_map, List.getElem?_range hpos]
    rfl
  have hnested : inner.Nested plan _ f file blocks.toNat m image :=
    ⟨f, hf, (FileMap.filled_eq_self hblocks).symm⟩
  obtain ⟨hrun, hcalls⟩ := formatted_agree (v := ⟨file⟩) hM
    (Memory.medium ino blocks.toNat) (fun _ => rfl) (fun _ => rfl) hempty hnested hcarries hfiles
    hformat
  refine ⟨hrun, fun calls => ⟨(hcalls calls).1, ?_⟩⟩
  -- Whatever the outer tables are by then, the inner map has them in the one file.
  obtain ⟨image', hafter⟩ := (hcalls calls).2
  have htold := hafter.told hf fits hfile hlength hcount
  rwa [UInt32.ofNat_toNat] at htold

/-- A volume of four blocks inside a file of one of seven blocks. -/
theorem nested_eq_plain_zeros :
    let inner : Volume := ⟨0⟩
    let below := inner.store Memory.store
    let plain := Memory.zeros 4
    let plainStart := Op.next ((⟨0⟩ : Volume).format Memory.store 1) plain
    ∃ m counted, Op.outcome (inner.occupancy Memory.store) m = .ok counted ∧
      inner.SameBlocks m 0 plain 0 4 ∧
      (∀ block, Op.outcome (below (.read ⟨0, 0⟩)) m = .ok block →
        (Superblock.decode block).formatted = false) ∧
      64 * (((1 : UInt32).toNat + 63) / 64) < 4294967296 ∧
      Op.outcome ((⟨0⟩ : Volume).format Memory.store 1) plain = .ok () ∧
      let start := Op.next ((⟨0⟩ : Volume).format below 1) m
      Op.outcome ((⟨0⟩ : Volume).format below 1) m = .ok () ∧ ∀ calls,
        Op.outcomes ((⟨0⟩ : Volume).serve below) calls start =
          Op.outcomes ((⟨0⟩ : Volume).serve Memory.store) calls plainStart ∧
        let m' := Op.after ((⟨0⟩ : Volume).serve below) calls start
        Op.outcome (below (.size 0)) m' = .ok 4 ∧
        Op.outcome (inner.occupancy Memory.store) m' = .ok counted ∧
        ∀ other, other ≠ 0 → inner.SameFile m m' other := by
  intro inner below plain plainStart
  obtain ⟨fits, m, hf⟩ := refines_zeros_seven
  have hfile : ¬ (64 : UInt32) ≤ 0 := by decide
  have hread : ∀ offset < (4 : UInt32),
      Op.outcome ((⟨0⟩ : Volume).store Memory.store (.read ⟨0, offset⟩)) m = .ok Block.zero := by
    intro offset hoffset
    have hlt : offset.toNat < 4 := UInt32.lt_iff_toNat_lt.mp hoffset
    rw [hf.outcome fits, FileMap.outcome_read, FileMap.file_setFile_self,
      List.getElem?_replicate_of_lt hlt]
    exact if_neg hfile
  have hplain : ∀ offset < (4 : UInt32),
      Op.outcome (Memory.store (.read ⟨0, offset⟩)) (Memory.zeros 4) = .ok Block.zero := by
    intro offset hoffset
    have hcarries := Memory.carries_zeros (show 4 < 4294967296 by decide)
    obtain ⟨_, _, hrun, rfl, -⟩ := ((Memory.medium 0 4).read hcarries
      (UInt32.lt_iff_toNat_lt.mp hoffset)).ok fun _ _ hno => hno.2
    rw [Op.outcome, hrun]
  have hsame : (⟨0⟩ : Volume).SameBlocks m 0 (Memory.zeros 4) 0 4 := by
    refine ⟨?_, rfl, fun offset hoffset =>
      (hread offset hoffset).trans (hplain offset hoffset).symm⟩
    rw [hf.outcome fits, FileMap.outcome_size]
    exact if_neg hfile
  have hfresh : ∀ block,
      Op.outcome ((⟨0⟩ : Volume).store Memory.store (.read ⟨0, 0⟩)) m = .ok block →
        (Superblock.decode block).formatted = false := by
    intro block hblock
    cases (hread 0 (by decide)).symm.trans hblock
    decide
  have hcounted := (serve_agree fits .occupancy m _ hf).1
  obtain ⟨_, hrun⟩ := format_zeros_four
  have hformat : Op.outcome ((⟨0⟩ : Volume).format Memory.store 1) (Memory.zeros 4) = .ok () := by
    rw [Op.outcome, hrun]
  exact ⟨m, _, hcounted, hsame, hfresh, by decide, hformat,
    nested_eq_plain hcounted hsame hfresh (by decide) hformat⟩

end Volume

end BlockLayers.Fat
