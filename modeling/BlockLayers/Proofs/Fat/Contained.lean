import BlockLayers.Proofs.Fat.Backing
import BlockLayers.Proofs.Fat.Refinement

/-!
# `BlockLayers.Proofs.Fat.Contained`: a call that fails does no harm

Any calls are made to a volume that was just formatted, and any calls of
the store below may fail. Then a request fails, at whatever call of the
store below. What it leaves is told by a look at the medium as it is
then, through a store that does not fail.

Main statement: `failure_contained`. The other files look the same
(`SameFile`). After a write the blocks that its file had are the same,
and the free chain has lost nothing or what the file was to gain
(`WriteContained`); after a resize the file looks the same or is empty,
and the free chain is the same (`ResizeContained`).
-/

set_option autoImplicit false

namespace BlockLayers.Fat

namespace FileMap

/-- A call to a file is refused if there is no such file. -/
theorem outcome_within {α : Type} (ino : UInt32) (x : FileMap → EStateM.Result Stop FileMap α)
    (f : FileMap) :
    Op.outcome (within ino x) f =
      if f.count ≤ ino then .error (.fault (.noInode ino f.count)) else Op.outcome x f := by
  unfold Op.outcome
  split_ifs with h
  · rw [within_refused h]
  · rw [within_apply (UInt32.not_le.mp h)]

/-- What is told about a size. -/
theorem outcome_size (f : FileMap) (ino : UInt32) :
    Op.outcome (store (.size ino)) f =
      if f.count ≤ ino then .error (.fault (.noInode ino f.count))
      else .ok (UInt32.ofNat (f.file ino).length) := outcome_within ino _ f

/-- What is told about a block. -/
theorem outcome_read (f : FileMap) (addr : Address) :
    Op.outcome (store (.read addr)) f =
      if f.count ≤ addr.ino then .error (.fault (.noInode addr.ino f.count))
      else match (f.file addr.ino)[addr.offset.toNat]? with
        | some block => .ok block
        | none => .error (.fault (.pastEnd addr.ino addr.offset
            (UInt32.ofNat (f.file addr.ino).length))) := by
  refine (outcome_within addr.ino _ f).trans (if_congr Iff.rfl rfl ?_)
  unfold Op.outcome
  dsimp only
  cases (f.file addr.ino)[addr.offset.toNat]? <;> rfl

end FileMap

namespace Volume

variable {v : Volume} {plan : Plan} {size : Nat}

/-! ### What there is to see on a medium -/

/-- A file looks the same on two media: its size and its blocks are told
alike. -/
structure SameFile (v : Volume) (m m' : Memory) (ino : UInt32) : Prop where
  size : Op.outcome (v.store Memory.store (.size ino)) m' =
    Op.outcome (v.store Memory.store (.size ino)) m
  read : ∀ offset, Op.outcome (v.store Memory.store (.read ⟨ino, offset⟩)) m' =
    Op.outcome (v.store Memory.store (.read ⟨ino, offset⟩)) m

/-- The entries of the free chain on a medium, in order. All of them have
a place in the table, so there is only one such list (`FreeChain.eq`). -/
def FreeChain (v : Volume) (plan : Plan) (size : Nat) (m : Memory) (entries : List Link) : Prop :=
  (∀ entry ∈ entries, plan.HasEntry entry) ∧ ∃ image, Memory.Carries v.medium size m image ∧
    Path (plan.catalog image).link (plan.catalog image).superblock.freeHead entries Link.endMark

/-- A medium has one free chain. -/
theorem FreeChain.eq {m : Memory} {entries entries' : List Link} (spans : plan.Spans size)
    (h : v.FreeChain plan size m entries) (h' : v.FreeChain plan size m entries') :
    entries = entries' := by
  obtain ⟨hentries, image, hcarries, hpath⟩ := h
  obtain ⟨hentries', image', hcarries', hpath'⟩ := h'
  have hsame := hcarries'.image_eq hcarries
  -- The superblock and the table lie on the medium, so both paths follow the same links.
  have hsize := spans.size_eq
  have hdata : plan.dataFrom = plan.linksFrom + plan.tableBlocks.toNat := rfl
  have hlinks : plan.linksFrom = 1 + plan.recordBlocks.toNat := rfl
  have hhead : (plan.catalog image').superblock.freeHead =
      (plan.catalog image).superblock.freeHead := by
    show (Superblock.decode (image' 0)).freeHead = (Superblock.decode (image 0)).freeHead
    rw [hsame 0 (by omega)]
  have hlink : ∀ entry ∈ entries', (plan.catalog image').link entry =
      (plan.catalog image).link entry := by
    intro entry hentry
    have hplace : entry.word.toNat < 128 * plan.tableBlocks.toNat := hentries' entry hentry
    simp only [Plan.catalog]
    rw [hsame _ (by omega)]
  -- The end mark has no place in the table.
  have hend : ∀ list : List Link, (∀ entry ∈ list, plan.HasEntry entry) → Link.endMark ∉ list :=
    fun list hlist hmem => Bool.noConfusion (spans.isEnd_eq_false (hlist _ hmem))
  rw [hhead] at hpath'
  exact hpath.unique (hpath'.congr hlink) (hend _ hentries) (hend _ hentries')

/-- What a failed write leaves: the other files and the blocks that its
file had. The file has its old size, or the one that the write was to
give it. The free chain is the old one, or has lost as many entries at
its head as the file was to gain. -/
structure WriteContained (v : Volume) (plan : Plan) (size : Nat) (addr : Address) (m m' : Memory) :
    Prop where
  others : ∀ ino, ino ≠ addr.ino → v.SameFile m m' ino
  file : v.SameFile m m' addr.ino ∨ ∃ old new,
    Op.outcome (v.store Memory.store (.size addr.ino)) m = .ok old ∧
    Op.outcome (v.store Memory.store (.size addr.ino)) m' = .ok new ∧
    new.toNat = max old.toNat (addr.offset.toNat + 1) ∧
    ∀ offset < old, ∃ block,
      Op.outcome (v.store Memory.store (.read ⟨addr.ino, offset⟩)) m = .ok block ∧
      Op.outcome (v.store Memory.store (.read ⟨addr.ino, offset⟩)) m' = .ok block
  free : ∃ entries, v.FreeChain plan size m entries ∧
    (v.FreeChain plan size m' entries ∨ ∃ old,
      Op.outcome (v.store Memory.store (.size addr.ino)) m = .ok old ∧
      addr.offset.toNat + 1 - old.toNat ≤ entries.length ∧
      v.FreeChain plan size m' (entries.drop (addr.offset.toNat + 1 - old.toNat)))

/-- What a failed resize leaves: the other files and the free chain. The
file is the old one, or is empty. -/
structure ResizeContained (v : Volume) (plan : Plan) (size : Nat) (ino : UInt32) (m m' : Memory) :
    Prop where
  others : ∀ other, other ≠ ino → v.SameFile m m' other
  file : v.SameFile m m' ino ∨ Op.outcome (v.store Memory.store (.size ino)) m' = .ok 0
  free : ∃ entries, v.FreeChain plan size m entries ∧ v.FreeChain plan size m' entries

/-- What a failed request leaves. -/
def Contained (v : Volume) (plan : Plan) (size : Nat) : Request → Memory → Memory → Prop
  | .write addr _ => v.WriteContained plan size addr
  | .resize ino _ => v.ResizeContained plan size ino
  | _ => fun m m' => (∀ ino, v.SameFile m m' ino) ∧
      ∃ entries, v.FreeChain plan size m entries ∧ v.FreeChain plan size m' entries

/-! ### Files as the chains have them -/

section Look

variable {catalog catalog' : Catalog} {a a' : Chains} {m m' : Memory}

/-- What is told of the files is what the chains have. -/
theorem outcome_look (fits : plan.Usable size) (hsound : Sound plan catalog a)
    (hs : Keeps plan (Memory.Carries v.medium size) catalog m) {q : Request}
    (hq : q.changes = false) :
    Op.outcome (v.store Memory.store q) m =
      Op.outcome (FileMap.store q) (a.files plan catalog) := by
  refine (Op.Ends.agree (R := fun _ _ => True)
    ((look_ends (Memory.medium v.medium size) fits hsound hs hq).mono ?_ ?_)).1
  · intro value after h
    exact ⟨_, h.2, trivial⟩
  · intro fault after h
    exact ⟨_, h.2.resolve_left id, trivial⟩

/-- A file with the same blocks looks the same. -/
theorem sameFile_of_blocks (fits : plan.Usable size) (hsound : Sound plan catalog a)
    (hs : Keeps plan (Memory.Carries v.medium size) catalog m) (hsound' : Sound plan catalog' a')
    (hs' : Keeps plan (Memory.Carries v.medium size) catalog' m') {ino : UInt32}
    (hblocks : a'.blocks catalog' ino = a.blocks catalog ino) : v.SameFile m m' ino := by
  have hfile : (a'.files plan catalog').file ino = (a.files plan catalog).file ino := hblocks
  have hcount : (a'.files plan catalog').count = (a.files plan catalog).count := rfl
  constructor
  · rw [outcome_look fits hsound' hs' rfl, outcome_look fits hsound hs rfl, FileMap.outcome_size,
      FileMap.outcome_size, hcount, hfile]
  · intro offset
    rw [outcome_look fits hsound' hs' rfl, outcome_look fits hsound hs rfl, FileMap.outcome_read,
      FileMap.outcome_read, hcount, hfile]

/-- A file that there is no record for looks the same everywhere. -/
theorem sameFile_of_no_file (fits : plan.Usable size) (hsound : Sound plan catalog a)
    (hs : Keeps plan (Memory.Carries v.medium size) catalog m) (hsound' : Sound plan catalog' a')
    (hs' : Keeps plan (Memory.Carries v.medium size) catalog' m') {ino : UInt32}
    (hino : ¬ plan.HasFile ino) : v.SameFile m m' ino := by
  have hle : (plan.recordBlocks * 64) ≤ ino :=
    UInt32.not_lt.mp fun hlt => hino ((a.lt_files_count (m := catalog) fits).mp hlt)
  constructor
  · rw [outcome_look fits hsound' hs' rfl, outcome_look fits hsound hs rfl]
    exact ((FileMap.outcome_size _ ino).trans (if_pos hle)).trans
      ((FileMap.outcome_size _ ino).trans (if_pos hle)).symm
  · intro offset
    rw [outcome_look fits hsound' hs' rfl, outcome_look fits hsound hs rfl]
    exact ((FileMap.outcome_read _ ⟨ino, offset⟩).trans (if_pos hle)).trans
      ((FileMap.outcome_read _ ⟨ino, offset⟩).trans (if_pos hle)).symm

/-- The size of a file that there is a record for. -/
theorem outcome_size (fits : plan.Usable size) (hsound : Sound plan catalog a)
    (hs : Keeps plan (Memory.Carries v.medium size) catalog m) {ino : UInt32}
    (hino : plan.HasFile ino) :
    Op.outcome (v.store Memory.store (.size ino)) m =
      .ok (UInt32.ofNat (a.blocks catalog ino).length) := by
  rw [outcome_look fits hsound hs rfl, FileMap.outcome_size,
    if_neg (UInt32.not_le.mpr ((Chains.lt_files_count fits).mpr hino))]
  rfl

/-- A block of a file that there is a record for. -/
theorem outcome_read (fits : plan.Usable size) (hsound : Sound plan catalog a)
    (hs : Keeps plan (Memory.Carries v.medium size) catalog m) (addr : Address)
    (hino : plan.HasFile addr.ino) {block : Block}
    (hblock : (a.blocks catalog addr.ino)[addr.offset.toNat]? = some block) :
    Op.outcome (v.store Memory.store (.read addr)) m = .ok block := by
  rw [outcome_look fits hsound hs rfl, FileMap.outcome_read,
    if_neg (UInt32.not_le.mpr ((Chains.lt_files_count fits).mpr hino)),
    show (a.files plan catalog).file addr.ino = a.blocks catalog addr.ino from rfl, hblock]

/-- The free chain that the tables are sound for is the one on the
medium. -/
theorem freeChain_of_sound (hplaces : plan.entries.toNat ≤ 128 * plan.tableBlocks.toNat)
    (hsound : Sound plan catalog a) (hs : Keeps plan (Memory.Carries v.medium size) catalog m) :
    v.FreeChain plan size m a.free := by
  obtain ⟨image, hcarries, rfl⟩ := hs
  exact ⟨fun entry hentry => Nat.lt_of_lt_of_le (hsound.apart.free_lt entry hentry) hplaces, image,
    hcarries, hsound.free_path⟩

/-- The number of blocks of a file is a word. -/
theorem toNat_ofNat_blocks (hsound : Sound plan catalog a) (ino : UInt32) :
    (UInt32.ofNat (a.blocks catalog ino).length).toNat = (a.blocks catalog ino).length := by
  refine UInt32.toNat_ofNat_of_lt' ?_
  rw [Chains.blocks, List.length_map, hsound.length_eq]
  exact UInt32.toNat_lt _

/-- What an interrupted write leaves, as it looks on the medium. -/
theorem writeContained_of_left (fits : plan.Usable size) (hsound : Sound plan catalog a)
    (hs : Keeps plan (Memory.Carries v.medium size) catalog m) (hsound' : Sound plan catalog' a')
    (hs' : Keeps plan (Memory.Carries v.medium size) catalog' m') {addr : Address}
    (hleft : WriteLeft plan addr catalog a catalog' a') :
    v.WriteContained plan size addr m m' := by
  have hnat := toNat_ofNat_blocks hsound addr.ino
  have hfree' := freeChain_of_sound fits.entries_le hsound' hs'
  refine ⟨fun ino hino => sameFile_of_blocks fits hsound hs hsound' hs' (hleft.others ino hino), ?_,
    a.free, freeChain_of_sound fits.entries_le hsound hs, ?_⟩
  · by_cases hino : plan.HasFile addr.ino
    · rcases hleft.length with hlength | hlength
      · -- The file begins as it was and is not longer.
        have hblocks := hleft.begins.eq_of_length hlength.symm
        exact .inl (sameFile_of_blocks fits hsound hs hsound' hs' hblocks.symm)
      · refine .inr ⟨_, _, outcome_size fits hsound hs hino, outcome_size fits hsound' hs' hino, ?_,
          fun offset hoffset => ?_⟩
        · rw [toNat_ofNat_blocks hsound' addr.ino, hnat, hlength]
        · rw [UInt32.lt_iff_toNat_lt, hnat] at hoffset
          exact ⟨_, outcome_read fits hsound hs ⟨addr.ino, offset⟩ hino
              (List.getElem?_eq_getElem hoffset),
            outcome_read fits hsound' hs' ⟨addr.ino, offset⟩ hino
              (List.prefix_iff_getElem?.mp hleft.begins _ hoffset)⟩
    · exact .inl (sameFile_of_no_file fits hsound hs hsound' hs' hino)
  · -- The free chain is the old one, or lacks what the write was to take.
    rcases hleft.free with hfree | ⟨hino, hroom, hfree⟩
    · exact .inl (hfree ▸ hfree')
    · refine .inr ⟨_, outcome_size fits hsound hs hino, ?_, ?_⟩
      · rw [hnat]
        exact hroom
      · rw [hnat, ← hfree]
        exact hfree'

/-- What an interrupted resize leaves, as it looks on the medium. -/
theorem resizeContained_of_left (fits : plan.Usable size) (hsound : Sound plan catalog a)
    (hs : Keeps plan (Memory.Carries v.medium size) catalog m) (hsound' : Sound plan catalog' a')
    (hs' : Keeps plan (Memory.Carries v.medium size) catalog' m') {ino : UInt32}
    (hleft : ResizeLeft ino catalog a catalog' a') : v.ResizeContained plan size ino m m' := by
  refine ⟨fun other hother => sameFile_of_blocks fits hsound hs hsound' hs'
    (hleft.others other hother), ?_, a.free, freeChain_of_sound fits.entries_le hsound hs,
    hleft.free ▸ freeChain_of_sound fits.entries_le hsound' hs'⟩
  by_cases hino : plan.HasFile ino
  · rcases hleft.file with hfile | hfile
    · exact .inl (sameFile_of_blocks fits hsound hs hsound' hs' hfile)
    · refine .inr ((outcome_size fits hsound' hs' hino).trans ?_)
      rw [hfile]
      rfl
  · exact .inl (sameFile_of_no_file fits hsound hs hsound' hs' hino)

end Look

/-! ### Files as a map has them -/

namespace Refines

variable {m m' : Memory} {f f' : FileMap}

/-- What is told of the files on a medium is what the map has. -/
theorem outcome (h : v.Refines plan size m f) (fits : plan.Usable size) (q : Request) :
    Op.outcome (v.store Memory.store q) m = Op.outcome (FileMap.store q) f :=
  (serve_agree fits (.request q) m f h).1

/-- The map has a file for every record. -/
theorem count_eq (h : v.Refines plan size m f) : f.count = plan.recordBlocks * 64 := by
  obtain ⟨_, _, -, -, hf⟩ := h
  exact hf.count_eq

/-- The map has lost no block. -/
theorem whole (h : v.Refines plan size m f) : f.Whole := by
  obtain ⟨_, _, -, -, hf⟩ := h
  exact hf.whole.trans (congrArg UInt32.toNat hf.total_eq).symm

/-- A file that two maps have alike looks the same on their media. -/
theorem sameFile (h : v.Refines plan size m f) (h' : v.Refines plan size m' f')
    (fits : plan.Usable size) {ino : UInt32}
    (hfile : ino < f.count → f'.file ino = f.file ino) : v.SameFile m m' ino := by
  have hcount : f'.count = f.count := h'.count_eq.trans h.count_eq.symm
  constructor
  · rw [h'.outcome fits, h.outcome fits, FileMap.outcome_size, FileMap.outcome_size, hcount]
    split_ifs with hno
    · rfl
    · rw [hfile (UInt32.not_le.mp hno)]
  · intro offset
    rw [h'.outcome fits, h.outcome fits, FileMap.outcome_read, FileMap.outcome_read, hcount]
    split_ifs with hno
    · rfl
    · rw [hfile (UInt32.not_le.mp hno)]

end Refines

/-- A volume of four blocks with no blocks in its files. -/
theorem refines_zeros_four :
    Plan.Usable ⟨1, 1, 1⟩ 4 ∧
      ∃ m, (⟨0⟩ : Volume).Refines ⟨1, 1, 1⟩ 4 m (FileMap.empty 64 1) := by
  have hplan : Plan.make 4 1 = .ok ⟨1, 1, 1⟩ := by decide
  obtain ⟨m, data, -, hkeeps⟩ := format_zeros_keeps
  exact ⟨Plan.make_usable hplan (by decide), m, _, _, hkeeps,
    fresh_sound (Plan.make_divides hplan) data, fresh_matches _ data⟩

/-- A volume of seven blocks, all four data blocks of which are in a file
of zeros. -/
theorem refines_zeros_seven :
    Plan.Usable ⟨1, 1, 4⟩ 7 ∧
      ∃ m, (⟨0⟩ : Volume).Refines ⟨1, 1, 4⟩ 7 m
        ((FileMap.empty 64 4).setFile 0 (List.replicate 4 Block.zero) 0) := by
  have hcarries := Memory.carries_zeros (show 7 < 4294967296 by decide)
  have hplan : Plan.make 7 1 = .ok ⟨1, 1, 4⟩ := by decide
  have fits : Plan.Usable ⟨1, 1, 4⟩ 7 := Plan.make_usable hplan (by decide)
  obtain ⟨m, -, hkeeps⟩ := format_ok (v := ⟨0⟩) (m := Memory.zeros 7) hcarries (by decide) hplan
  have hf : (⟨0⟩ : Volume).Refines ⟨1, 1, 4⟩ 7 m (FileMap.empty 64 4) :=
    ⟨_, _, hkeeps, fresh_sound (Plan.make_divides hplan) _, fresh_matches _ _⟩
  -- A write to the last block makes the file as long as it can be.
  exact ⟨fits, _, (serve_agree fits (.request (.write ⟨0, 3⟩ Block.zero)) _ _ hf).2⟩

/-- Media on which all files look the same, and the free chain is the
same, are what any request may leave. -/
theorem contained_of_same {m m' : Memory} (q : Request) (hsame : ∀ ino, v.SameFile m m' ino)
    {entries : List Link} (hfree : v.FreeChain plan size m entries)
    (hfree' : v.FreeChain plan size m' entries) : v.Contained plan size q m m' := by
  cases q with
  | write addr data =>
    exact ⟨fun ino _ => hsame ino, .inl (hsame addr.ino), entries, hfree, .inl hfree'⟩
  | resize ino blocks =>
    exact ⟨fun other _ => hsame other, .inl (hsame ino), entries, hfree, hfree'⟩
  | _ => exact ⟨hsame, entries, hfree, hfree'⟩

/-- What an interrupted request leaves, as it looks on the medium. -/
theorem contained_of_left {catalog catalog' : Catalog} {a a' : Chains} {m m' : Memory}
    (fits : plan.Usable size) (hsound : Sound plan catalog a)
    (hs : Keeps plan (Memory.Carries v.medium size) catalog m) (hsound' : Sound plan catalog' a')
    (hs' : Keeps plan (Memory.Carries v.medium size) catalog' m') {q : Request}
    (hleft : Left plan q catalog a catalog' a') : v.Contained plan size q m m' := by
  cases hq : q.changes with
  | true =>
    cases q with
    | write addr data => exact writeContained_of_left fits hsound hs hsound' hs' hleft
    | resize ino blocks => exact resizeContained_of_left fits hsound hs hsound' hs' hleft
    | _ => cases hq
  | false =>
    have hsame : catalog' = catalog ∧ a' = a := by
      cases q with
      | write | resize => cases hq
      | _ => exact hleft
    obtain ⟨rfl, rfl⟩ := hsame
    exact contained_of_same q (fun ino => sameFile_of_blocks fits hsound hs hsound hs' rfl)
      (freeChain_of_sound fits.entries_le hsound hs) (freeChain_of_sound fits.entries_le hsound hs')

/-! ### When the number of files is no word -/

section Overflow

variable {catalog : Catalog} {a : Chains} {m m' : Memory}

/-- Without a failure below, what is stuck was aborted. -/
theorem Stuck.outcome {σ α : Type} {holds : σ → (Nat → Block) → Prop} {x : Op σ α} {s : σ}
    (h : Stuck plan (fun _ _ => False) holds catalog x s) :
    Op.outcome x s = .error (.abort .mulOverflow) := by
  obtain ⟨stop, after, hrun, -, rfl | ⟨_, _, hno⟩⟩ := h
  · unfold Op.outcome
    rw [hrun]
  · exact hno.elim

/-- No file can be told from itself. -/
theorem sameFile_of_overflow (divides : plan.Divides size)
    (hfiles : ¬ 64 * plan.recordBlocks.toNat < 4294967296) (hsound : Sound plan catalog a)
    (hs : Keeps plan (Memory.Carries v.medium size) catalog m)
    (hs' : Keeps plan (Memory.Carries v.medium size) catalog m') (ino : UInt32) :
    v.SameFile m m' ino := by
  -- Every look at a file is aborted when the number of files is worked out.
  have hlook : ∀ {β : Type} (rest : Located → Op Memory β),
      Op.outcome (v.locate Memory.store ino >>= rest) m' =
        Op.outcome (v.locate Memory.store ino >>= rest) m := by
    intro β rest
    have hM := Memory.medium v.medium size
    rw [(locate_overflow hM divides hfiles hsound hs' ino rest).outcome,
      (locate_overflow hM divides hfiles hsound hs ino rest).outcome]
  exact ⟨hlook _, fun offset => hlook _⟩

end Overflow

/-! ### Any calls, any failures -/

section Failures

variable {schedule : Nat → Option Fault}

/-- What a call does, whichever calls of the store below fail. -/
theorem serve_became (schedule : Nat → Option Fault) (divides : plan.Divides size)
    {catalog : Catalog} {a : Chains} (hsound : Sound plan catalog a) {s : Nat × Memory}
    (hs : Keeps plan (fun t : Nat × Memory => Memory.Carries v.medium size t.2) catalog s)
    (c : Call) :
    ∃ catalog' a', Keeps plan (Memory.Carries v.medium size) catalog'
        (Op.next (v.serve (Unsteady.store schedule Memory.store) c) s).2 ∧
      Sound plan catalog' a' ∧
      Became plan c (Op.outcome (v.serve (Unsteady.store schedule Memory.store) c) s)
        catalog a catalog' a' := by
  cases c with
  | request q =>
    exact store_became (Unsteady.memory_medium schedule v.medium size) divides hsound hs q
  | occupancy =>
    -- A count only makes requests that are no change, whatever becomes of it.
    have houtlasts : Outlasts (Unsteady.store schedule Memory.store)
        fun t : Nat × Memory => Memory.Alike t.2 s.2 := by
      refine ⟨fun q hq => ?_, fun _ _ ht => ht⟩
      have hbelow : Op.Preserves (Memory.store q) (Memory.Alike · s.2) := by
        intro m hm
        have hkept : Memory.Alike (Op.next (Memory.store q) m) m :=
          Op.Ends.next (Memory.Alike · m) (Memory.store_keeps hq)
        exact ⟨hkept.inodes.trans hm.inodes, hkept.dead.trans hm.dead⟩
      exact Unsteady.store_preserves hbelow
    obtain ⟨image, ⟨hdead, hblocks⟩, rfl⟩ := hs
    have hafter := occupancy_preserves (v := v) houtlasts s ⟨rfl, rfl⟩
    exact ⟨_, a, ⟨image, ⟨hafter.dead.trans hdead, hafter.inodes ▸ hblocks⟩, rfl⟩, hsound, rfl, rfl⟩

/-- A call leaves sound chains, whichever calls of the store below
fail. -/
theorem chainsSound_serve (divides : plan.Divides size) (c : Call) {s : Nat × Memory}
    (h : v.ChainsSound plan size s.2) :
    v.ChainsSound plan size
      (Op.next (v.serve (Unsteady.store schedule Memory.store) c) s).2 := by
  obtain ⟨image, a, hcarries, hsound⟩ := h
  obtain ⟨catalog', a', hkeeps', hsound', -⟩ :=
    serve_became schedule divides hsound ⟨image, hcarries, rfl⟩ c
  exact .of_keeps hkeeps' hsound'

/-- A request that fails does no harm elsewhere. -/
theorem contained_next (divides : plan.Divides size) {q : Request} {s : Nat × Memory}
    (h : v.ChainsSound plan size s.2) {fault : Fault}
    (hfail : Op.outcome (v.store (Unsteady.store schedule Memory.store) q) s =
      .error (.fault fault)) :
    v.Contained plan size q s.2
      (Op.next (v.store (Unsteady.store schedule Memory.store) q) s).2 := by
  obtain ⟨image, a, hcarries, hsound⟩ := h
  have hM := Unsteady.memory_medium schedule v.medium size
  have hs : Keeps plan (fun s : Nat × Memory => Memory.Carries v.medium size s.2)
      (plan.catalog image) s := ⟨image, hcarries, rfl⟩
  -- Where the number of files is no word, no request gets to change anything.
  by_cases hfiles : 64 * plan.recordBlocks.toNat < 4294967296
  · obtain ⟨catalog', a', hkeeps', hsound', hbecame⟩ := store_became hM divides hsound hs q
    rw [hfail] at hbecame
    exact contained_of_left ⟨divides.toSpans, divides.entries_le, hfiles⟩ hsound hs hsound'
      hkeeps' hbecame
  · obtain ⟨hafter, -⟩ := store_overflow hM divides hfiles hsound hs q
    exact contained_of_same q (sameFile_of_overflow divides hfiles hsound hs hafter)
      (freeChain_of_sound divides.entries_le hsound hs)
      (freeChain_of_sound divides.entries_le hsound hafter)

/-- A medium that is formatted and held no file system before has the
tables of a new one, also when the store below may fail. -/
theorem fresh_formatted {files : UInt32} {m : Memory} (hfresh : v.Unformatted m) {first : Nat}
    {start : Nat × Memory}
    (hformat : v.format (Unsteady.store schedule Memory.store) files (first, m) = .ok () start) :
    ∃ plan data, Plan.make (m.told v.medium) files = .ok plan ∧
      Keeps plan (Memory.Carries v.medium (m.told v.medium).toNat) (plan.fresh data) start.2 := by
  obtain ⟨_, _, hsize, -⟩ := Op.exists_of_bind_ok hformat
  obtain ⟨image, hcarries⟩ := Memory.carries_of_ok rfl (Unsteady.of_store_ok hsize)
  -- Whatever the schedule was, an attempt that succeeds has laid out all tables.
  exact formatted_keeps (Unsteady.memory_medium schedule v.medium _) (fun _ => rfl) rfl
    (hfresh.first hcarries) hcarries hformat

/-- The chains of a new volume are sound. -/
theorem chainsSound_formatted {files : UInt32} {m : Memory} (hfresh : v.Unformatted m) {first : Nat}
    {start : Nat × Memory}
    (hformat : v.format (Unsteady.store schedule Memory.store) files (first, m) = .ok () start) :
    ∃ plan, Plan.make (m.told v.medium) files = .ok plan ∧
      v.ChainsSound plan (m.told v.medium).toNat start.2 := by
  obtain ⟨plan, data, hplan, hkeeps⟩ := fresh_formatted hfresh hformat
  exact ⟨plan, hplan, .of_keeps hkeeps (fresh_sound (Plan.make_divides hplan) data)⟩

/-- A medium for which there is a plan is formatted when no call of the
store below fails. -/
theorem exists_start {files : UInt32} {m : Memory} {image : Nat → Block}
    (hcarries : Memory.Carries v.medium (m.told v.medium).toNat m image)
    (hempty : (Superblock.decode (image 0)).formatted = false)
    (hplan : Plan.make (m.told v.medium) files = .ok plan) :
    ∃ start,
      v.format (Unsteady.store (fun _ => none) Memory.store) files (0, m) = .ok () start := by
  have hends := format_ends (s := (0, m))
    (Unsteady.memory_medium (fun _ => none) v.medium (m.told v.medium).toNat) hplan rfl
    (Plan.make_divides hplan) (.inr fun _ => rfl) hempty hcarries
  obtain ⟨_, start, hrun, -⟩ := hends.ok fun fault after hfailed => by
    rcases hfailed.2 with hno | hno
    · cases hno
    · exact hno
  exact ⟨start, hrun⟩

end Failures

/-- A request that fails does no harm elsewhere: a volume is formatted,
then any calls are made to it, and then a request that fails. Any calls
of the store below may fail at any time. What the request leaves is told
through a store that does not fail. -/
theorem failure_contained {files : UInt32} {m : Memory} (hfresh : v.Unformatted m)
    {formatting : Nat → Option Fault} {first : Nat} {start : Nat × Memory}
    (hformat : v.format (Unsteady.store formatting Memory.store) files (first, m) = .ok () start)
    (schedule : Nat → Option Fault) (calls : List Call) {s : Nat × Memory}
    (hs : s = Op.after (v.serve (Unsteady.store schedule Memory.store)) calls start)
    {q : Request} {fault : Fault}
    (hfail : Op.outcome (v.store (Unsteady.store schedule Memory.store) q) s =
      .error (.fault fault)) :
    ∃ plan, Plan.make (m.told v.medium) files = .ok plan ∧
      v.Contained plan (m.told v.medium).toNat q s.2
        (Op.next (v.store (Unsteady.store schedule Memory.store) q) s).2 := by
  obtain ⟨plan, hplan, hstart⟩ := chainsSound_formatted hfresh hformat
  have hdivides := Plan.make_divides hplan
  refine ⟨plan, hplan, contained_next hdivides ?_ hfail⟩
  rw [hs]
  -- The calls before the request keep the chains sound, by induction over them.
  exact Op.after_invariant (fun s : Nat × Memory => v.ChainsSound plan _ s.2)
    (fun c _ h => chainsSound_serve hdivides c h) calls hstart

/-- A volume of seven blocks with a block in each of two files, before a
write whose call 25 of the store below is to fail. -/
def twoFiles : Nat × Memory :=
  Op.after ((⟨0⟩ : Volume).serve
      (Unsteady.store (fun call => if call = 25 then some .io else none) Memory.store))
    [.request (.write ⟨0, 0⟩ (Block.fill 1)), .request (.write ⟨1, 0⟩ (Block.fill 2))]
    (Op.next ((⟨0⟩ : Volume).format (Unsteady.store (fun _ => none) Memory.store) 1)
      (0, Memory.zeros 7))

/-- A write that needs the two free entries fails where it writes the
record of its file. By then the superblock has lost both, and the file
has its old size. -/
theorem failure_contained_twoFiles :
    let below := Unsteady.store (fun call => if call = 25 then some .io else none) Memory.store
    let q : Request := .write ⟨0, 2⟩ (Block.fill 3)
    let after := Op.next ((⟨0⟩ : Volume).store below q) twoFiles
    let freeHead (m : Memory) := (Op.outcome (Memory.store (.read ⟨0, 0⟩)) m).map fun block =>
      (Superblock.decode block).freeHead
    Op.outcome ((⟨0⟩ : Volume).format (Unsteady.store (fun _ => none) Memory.store) 1)
        (0, Memory.zeros 7) = .ok () ∧
      Op.outcome ((⟨0⟩ : Volume).store below q) twoFiles = .error (.fault .io) ∧
      freeHead twoFiles.2 = .ok ⟨2⟩ ∧ freeHead after.2 = .ok Link.endMark ∧
      Op.outcome ((⟨0⟩ : Volume).store Memory.store (.size 0)) after.2 = .ok 1 ∧
      ∃ plan, Plan.make ((Memory.zeros 7).told 0) 1 = .ok plan ∧
        (⟨0⟩ : Volume).Contained plan ((Memory.zeros 7).told 0).toNat q twoFiles.2 after.2 := by
  intro below q after freeHead
  have hformat : Op.outcome ((⟨0⟩ : Volume).format (Unsteady.store (fun _ => none) Memory.store) 1)
      (0, Memory.zeros 7) = .ok () := by decide +kernel
  have hrun : Op.outcome ((⟨0⟩ : Volume).store below q) twoFiles = .error (.fault .io) ∧
      freeHead twoFiles.2 = .ok ⟨2⟩ ∧ freeHead after.2 = .ok Link.endMark ∧
      Op.outcome ((⟨0⟩ : Volume).store Memory.store (.size 0)) after.2 = .ok 1 := by
    decide +kernel
  obtain ⟨hfail, hbefore, hlost, hsize⟩ := hrun
  refine ⟨hformat, hfail, hbefore, hlost, hsize, ?_⟩
  exact failure_contained unformatted_zeros (Op.apply_of_outcome_ok hformat) _ _
    (by rw [twoFiles]) hfail

end Volume

end BlockLayers.Fat
