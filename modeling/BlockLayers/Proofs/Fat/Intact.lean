import BlockLayers.Proofs.Fat.Exact
import Mathlib.Data.List.Lattice
import Mathlib.Data.List.Pairwise

/-!
# `BlockLayers.Proofs.Fat.Intact`: a medium that was counted holds files

A medium in memory has any content, and the count of its entries ends
with numbers. Then its superblock divides it, and its tables are in
order, so the chains hold the files of a map. That takes the number of
files to be a word, which a count does not work out, and every call to
a file does.

Main statement: `refines_of_counted`, for any call that works the number
of files out.
-/

set_option autoImplicit false

namespace BlockLayers.Fat

/-! ### Sizes that could be worked out -/

namespace Superblock

variable {sb : Superblock}

/-- Where the data blocks begin. -/
theorem dataStart_toNat {start : UInt32} (h : sb.dataStart = .ok start) :
    start.toNat = 1 + sb.recordBlocks.toNat + sb.tableBlocks.toNat := by
  unfold dataStart at h
  cases htable : sb.tableStart with
  | error abort =>
    rw [htable] at h
    cases h
  | ok table =>
    rw [htable] at h
    have hrecords := Checked.add_eq_ok_iff.mp htable
    have hdata := Checked.add_eq_ok_iff.mp h
    rw [UInt32.toNat_one] at hrecords
    omega

/-- A cursor is opened on a table whose number of places is a word. -/
theorem places_lt_of_open {medium : UInt32} {c : Cursor} (h : Cursor.open_ medium sb = .ok c) :
    128 * sb.tableBlocks.toNat < 4294967296 := by
  unfold Cursor.open_ at h
  cases htable : sb.tableStart with
  | error abort =>
    rw [htable] at h
    cases h
  | ok table =>
    cases hcapacity : sb.tableCapacity with
    | error abort =>
      rw [htable, hcapacity] at h
      cases h
    | ok capacity =>
      have hplaces := Checked.mul_eq_ok_iff.mp hcapacity
      have hlt := capacity.toNat_lt
      rw [show (128 : UInt32).toNat = 128 from rfl] at hplaces
      omega

/-- The number of files is a word. -/
theorem files_lt {files : UInt32} (h : sb.files = .ok files) :
    64 * sb.recordBlocks.toNat < 4294967296 := by
  have hfiles := Checked.mul_eq_ok_iff.mp h
  have hlt := files.toNat_lt
  rw [show (64 : UInt32).toNat = 64 from rfl] at hfiles
  omega

end Superblock

/-! ### Tables in order hold files -/

namespace Chains

variable {p : Plan} {m : Catalog} {a : Chains} {size : Nat} {image : Nat → Block}

/-- The free chain and the chains of the files that there are records
for. They come to an end. -/
def recorded (a : Chains) (p : Plan) : Chains where
  free := a.free
  file ino := if p.HasFile ino then a.file ino else []
  rest _ := Link.endMark

/-- A file that there is a record for has its entries. -/
theorem file_recorded {ino : UInt32} (hino : p.HasFile ino) :
    (a.recorded p).file ino = a.file ino := if_pos hino

/-- A file without a record has none. -/
theorem file_recorded_of_not {ino : UInt32} (hino : ¬ p.HasFile ino) :
    (a.recorded p).file ino = [] := if_neg hino

/-- The entries of a file are those of one with a record. -/
theorem mem_recorded {ino : UInt32} {entry : Link} :
    entry ∈ (a.recorded p).file ino ↔ p.HasFile ino ∧ entry ∈ a.file ino := by
  by_cases hino : p.HasFile ino
  · rw [file_recorded hino, and_iff_right hino]
  · rw [file_recorded_of_not hino]
    exact ⟨nofun, fun h => (hino h.1).elim⟩

/-- An entry of a file is one of all entries. -/
theorem mem_flatMap_of_recorded {ino : UInt32} {entry : Link}
    (hentry : entry ∈ (a.recorded p).file ino) :
    entry ∈ (List.range (64 * p.recordBlocks.toNat)).flatMap fun i => a.file (UInt32.ofNat i) := by
  obtain ⟨hino, hmem⟩ := mem_recorded.mp hentry
  refine List.mem_flatMap.mpr ⟨ino.toNat, List.mem_range.mpr hino, ?_⟩
  rwa [UInt32.ofNat_toNat]

/-- An entry of a file is on one of the chains. -/
theorem mem_upTo_of_recorded {ino : UInt32} {entry : Link}
    (hentry : entry ∈ (a.recorded p).file ino) : entry ∈ a.upTo (64 * p.recordBlocks.toNat) :=
  List.mem_append_right _ (mem_flatMap_of_recorded hentry)

/-- Chains that have no entry twice are apart. -/
theorem apart_recorded (hnodup : (a.upTo (64 * p.recordBlocks.toNat)).Nodup)
    (hblock : ∀ entry ∈ a.upTo (64 * p.recordBlocks.toNat), entry.word.toNat < p.entries.toNat) :
    (a.recorded p).Apart p.entries.toNat := by
  -- The list of all entries has none twice, so no two of its parts share one.
  obtain ⟨hfree, hfiles, hapart⟩ := List.nodup_append.mp hnodup
  obtain ⟨heach, hpairs⟩ := List.nodup_flatMap.mp hfiles
  constructor
  case free_nodup => exact hfree
  case free_lt => exact fun entry hentry => hblock entry (List.mem_append_left _ hentry)
  case file_lt => exact fun ino entry hentry => hblock entry (mem_upTo_of_recorded hentry)
  case free_file =>
    exact fun ino entry hentry hmem => hapart entry hentry entry (mem_flatMap_of_recorded hmem) rfl
  case file_nodup =>
    intro ino
    by_cases hino : p.HasFile ino
    · have hfile := heach ino.toNat (List.mem_range.mpr hino)
      rw [UInt32.ofNat_toNat] at hfile
      rwa [file_recorded hino]
    · rw [file_recorded_of_not hino]
      exact List.nodup_nil
  case file_file =>
    intro ino other hne entry hentry hmem
    obtain ⟨hino, hentry⟩ := mem_recorded.mp hentry
    obtain ⟨hother, hmem⟩ := mem_recorded.mp hmem
    have hsymm : Std.Symm (Function.onFun List.Disjoint fun i => a.file (UInt32.ofNat i)) :=
      ⟨fun _ _ h => List.Disjoint.symm h⟩
    have hdisjoint := hpairs.forall (List.mem_range.mpr hino) (List.mem_range.mpr hother)
      fun heq => hne (UInt32.toNat_inj.mp heq)
    simp only [Function.onFun, UInt32.ofNat_toNat] at hdisjoint
    exact hdisjoint hentry hmem

/-- Where every entry with a data block is on a chain, it has a place in
the table. -/
theorem Whole.entries_le (h : a.Whole p m) : p.entries.toNat ≤ 128 * p.tableBlocks.toNat := by
  rcases Nat.eq_zero_or_pos p.entries.toNat with hzero | hpos
  · omega
  have hlt := p.entries.toNat_lt
  have hnat : (UInt32.ofNat (p.entries.toNat - 1)).toNat = p.entries.toNat - 1 :=
    UInt32.toNat_ofNat_of_lt' (show _ < 4294967296 by omega)
  -- The last entry has a place, and so have all before it.
  have hlast : (⟨UInt32.ofNat (p.entries.toNat - 1)⟩ : Link) ∈ p.allEntries := by
    rw [Plan.mem_allEntries, hnat]
    omega
  have hentry := h.hasEntry _ (h.each_once.mem_iff.mpr hlast)
  rw [Plan.HasEntry, hnat] at hentry
  omega

/-- Tables in order have sound chains. -/
theorem Whole.sound (h : a.Whole p (p.catalog image)) (spans : p.Spans size)
    (hfiles : 64 * p.recordBlocks.toNat < 4294967296)
    (hrecords : (p.catalog image).superblock.recordBlocks = p.recordBlocks)
    (htable : (p.catalog image).superblock.tableBlocks = p.tableBlocks) :
    Sound p (p.catalog image) (a.recorded p) := by
  obtain ⟨htidy, -⟩ := (whole_iff hfiles).mp h
  have hempty : ∀ ino, ¬ p.HasFile ino → (p.catalog image).record ino = Record.empty :=
    fun _ hino => if_neg hino
  -- A file without a record has an empty chain on the medium too.
  have hpath : ∀ ino, Path (p.catalog image).link ((p.catalog image).record ino).head
      ((a.recorded p).file ino) Link.endMark := by
    intro ino
    by_cases hino : p.HasFile ino
    · rw [file_recorded hino]
      exact h.file_path ino hino
    · rw [file_recorded_of_not hino, hempty ino hino]
      rfl
  have hlength : ∀ ino, ((a.recorded p).file ino).length =
      ((p.catalog image).record ino).blocks.toNat := by
    intro ino
    by_cases hino : p.HasFile ino
    · rw [file_recorded hino]
      exact h.length_eq ino hino
    · rw [file_recorded_of_not hino, hempty ino hino]
      rfl
  refine ⟨hrecords, htable, apart_recorded htidy.nodup htidy.hasBlock, h.free_path, hpath, hlength,
    fun ino => ?_⟩
  have hfile := hpath ino
  have hcount := hlength ino
  -- The end mark is on no chain, so only an empty one begins with it.
  have hno : Link.endMark ∉ (a.recorded p).file ino :=
    fun hmem => htidy.endMark_not_mem spans (mem_upTo_of_recorded hmem)
  generalize (a.recorded p).file ino = entries at hfile hcount hno
  rw [← UInt32.toNat_inj, ← hcount, UInt32.toNat_zero]
  cases entries with
  | nil => exact ⟨fun _ => rfl, fun _ => hfile⟩
  | cons entry rest =>
    refine ⟨fun hhead => ?_, fun hzero => (Nat.succ_ne_zero _ hzero).elim⟩
    exact (hno (hhead ▸ hfile.1 ▸ List.mem_cons_self)).elim

/-- Tables in order hold the files of a map. -/
theorem Whole.matches_files (h : a.Whole p m) (hfiles : 64 * p.recordBlocks.toNat < 4294967296)
    (hsound : Sound p m (a.recorded p)) :
    Matches p m (a.recorded p) ((a.recorded p).files p m) where
  count_eq := rfl
  total_eq := rfl
  file_eq _ := rfl
  free_eq := rfl
  ended _ := rfl
  whole := by
    obtain ⟨htidy, hlength⟩ := (whole_iff hfiles).mp h
    have hcount : ((a.recorded p).files p m).used = m.usedBelow (64 * p.recordBlocks.toNat) := by
      rw [← usedBelow_files _ hsound, FileMap.used]
      exact congrArg _ (Plan.files_toNat hfiles)
    -- The list of all entries is as long as there are entries, free ones included.
    rw [hcount, ← hlength, htidy.length_upTo]
    rfl

end Chains

namespace Volume

variable {σ : Type} [Journal σ] {below : Store σ} {v : Volume} {size : Nat}
  {blame : Fault → σ → Prop} {holds : σ → (Nat → Block) → Prop} {image : Nat → Block} {s : σ}
  {m : Memory}

omit [Journal σ] in
/-- A superblock that was read is formatted. -/
theorem superblock_of_ok {sb : Superblock} {after : σ} (h : v.superblock below s = .ok sb after) :
    ∃ block, below (.read ⟨v.medium, 0⟩) s = .ok block after ∧ sb = Superblock.decode block ∧
      sb.recordBlocks ≠ 0 := by
  obtain ⟨block, s₁, hread, h⟩ := Op.exists_of_bind_ok h
  dsimp only at h
  split at h
  · rename_i hformatted
    cases h
    exact ⟨block, hread, rfl, bne_iff_ne.mp hformatted⟩
  · cases h

/-- A call that works the number of files out reaches its end only where
that is a word. -/
theorem files_lt_of_ok (hL : Legible below v.medium size blame holds) (hpos : 0 < size)
    (hs : holds s image) {α : Type} {rest : Superblock → UInt32 → Op σ α} {value : α} {after : σ}
    (h : (v.superblock below >>= fun sb => liftM sb.files >>= rest sb) s = .ok value after) :
    64 * (Superblock.decode (image 0)).recordBlocks.toNat < 4294967296 := by
  obtain ⟨sb, s₁, hsb, h⟩ := Op.exists_of_bind_ok h
  obtain ⟨files, s₂, hfiles, -⟩ := Op.exists_of_bind_ok h
  obtain ⟨block, hread, rfl, -⟩ := superblock_of_ok hsb
  -- The superblock that was read is the one on the medium.
  obtain ⟨rfl, -⟩ := (hL.read hs (show (0 : UInt32).toNat < size from hpos)).good_of hread
  exact Superblock.files_lt (Op.of_lift_ok hfiles).1

/-- The superblock of a medium that was counted divides it. -/
theorem spans_of_counted {counted : Occupancy} {after : Memory}
    (h : v.occupancy Memory.store m = .ok counted after) :
    ∃ image, Memory.Carries v.medium (m.told v.medium).toNat m image ∧
      ((Superblock.decode (image 0)).plan (m.told v.medium).toNat).Spans
        (m.told v.medium).toNat := by
  obtain ⟨sb, s₁, hsb, h⟩ := Op.exists_of_bind_ok h
  obtain ⟨blocks, s₂, hsize, h⟩ := Op.exists_of_bind_ok h
  obtain ⟨start, s₃, hstart, h⟩ := Op.exists_of_bind_ok h
  dsimp only at h
  -- The count went on, so the tables lie on the medium and the cursor was opened.
  split at h
  · cases h
  rename_i hlong
  obtain ⟨c, s₄, hopen, -⟩ := Op.exists_of_bind_ok h
  obtain ⟨block, hread, rfl, hformatted⟩ := superblock_of_ok hsb
  obtain ⟨image, hcarries⟩ := Memory.carries_of_ok rfl hread
  have hL := (Memory.medium v.medium (m.told v.medium).toNat).toLegible
  -- The size is asked for after the superblock was read, which changed nothing.
  obtain ⟨hinodes, hdead⟩ := (Memory.store_keeps (q := .read ⟨v.medium, 0⟩) rfl).good_of hread
  have hcarries₁ : Memory.Carries v.medium (m.told v.medium).toNat s₁ image :=
    ⟨hdead.trans hcarries.1, hinodes ▸ hcarries.2⟩
  obtain ⟨hblocks, -⟩ := (hL.size hcarries₁).good_of hsize
  rw [UInt32.lt_iff_toNat_lt, Superblock.dataStart_toNat (Op.of_lift_ok hstart).1, hblocks,
    Nat.not_lt] at hlong
  have hpos : 0 < (m.told v.medium).toNat := by omega
  obtain ⟨rfl, -⟩ := (hL.read hcarries (show (0 : UInt32).toNat < _ from hpos)).good_of hread
  exact ⟨image, hcarries, Superblock.plan_spans hformatted
    (Superblock.places_lt_of_open (Op.of_lift_ok hopen).1) (UInt32.toNat_lt _) hlong⟩

/-- A medium that was counted, and on which a call worked the number of
files out, holds the files of a map. The call may have been made to a
store that fails. -/
theorem refines_of_counted {counted : Occupancy} {after : Memory}
    (hcount : v.occupancy Memory.store m = .ok counted after)
    (hL : Legible below v.medium (m.told v.medium).toNat blame holds)
    (hs : ∀ image, Memory.Carries v.medium (m.told v.medium).toNat m image → holds s image)
    {α : Type} {rest : Superblock → UInt32 → Op σ α} {value : α} {after' : σ}
    (h : (v.superblock below >>= fun sb => liftM sb.files >>= rest sb) s = .ok value after') :
    ∃ plan f, Plan.Usable plan (m.told v.medium).toNat ∧
      v.Refines plan (m.told v.medium).toNat m f := by
  obtain ⟨image, hcarries, spans⟩ := spans_of_counted hcount
  have hsize := spans.size_eq
  unfold Plan.dataFrom Plan.linksFrom at hsize
  have hfiles := files_lt_of_ok hL (by omega) (hs image hcarries) h
  obtain ⟨⟨a, hwhole, -⟩, -⟩ := (occupancy_checks
    (Memory.medium v.medium (m.told v.medium).toNat).toLegible spans hfiles rfl rfl
    hcarries).good_of hcount
  -- The count has found the tables in order.
  have hsound := hwhole.sound spans hfiles rfl rfl
  exact ⟨_, _, ⟨spans, hwhole.entries_le, hfiles⟩, _, _, ⟨image, hcarries, rfl⟩, hsound,
    hwhole.matches_files hfiles hsound⟩

/-- A file was resized, which looks it up first. -/
theorem refines_of_resized {counted : Occupancy} {after : Memory}
    (hcount : v.occupancy Memory.store m = .ok counted after) {schedule : Nat → Option Fault}
    {calls : Nat} {ino blocks before : UInt32} {after' : Nat × Memory}
    (hresize : v.store (Unsteady.store schedule Memory.store) (.resize ino blocks) (calls, m) =
      .ok before after') :
    ∃ plan f, Plan.Usable plan (m.told v.medium).toNat ∧
      v.Refines plan (m.told v.medium).toNat m f := by
  obtain ⟨l, s₁, hlocate, -⟩ := Op.exists_of_bind_ok hresize
  exact refines_of_counted hcount
    (Unsteady.memory_medium schedule v.medium (m.told v.medium).toNat).toLegible
    (fun _ hcarries => hcarries) hlocate

/-- The size of a file was told, or the number of files. -/
theorem refines_of_told {counted : Occupancy} {after : Memory}
    (hcount : v.occupancy Memory.store m = .ok counted after) {q : Request}
    (hq : q = .capacity ∨ ∃ ino, q = .size ino) {value : q.Answer} {after' : Memory}
    (htold : v.store Memory.store q m = .ok value after') :
    ∃ plan f, Plan.Usable plan (m.told v.medium).toNat ∧
      v.Refines plan (m.told v.medium).toNat m f := by
  have hL := (Memory.medium v.medium (m.told v.medium).toNat).toLegible
  rcases hq with rfl | ⟨ino, rfl⟩
  · have hfiles : (v.superblock Memory.store >>= fun sb =>
        liftM sb.files >>= (fun _ files => pure files : Superblock → UInt32 → Op Memory UInt32) sb)
          m = .ok value after' := by
      simp only [bind_pure]
      exact htold
    exact refines_of_counted hcount hL (fun _ hcarries => hcarries) hfiles
  · obtain ⟨l, s₁, hlocate, -⟩ := Op.exists_of_bind_ok htold
    exact refines_of_counted hcount hL (fun _ hcarries => hcarries) hlocate

end Volume

end BlockLayers.Fat
