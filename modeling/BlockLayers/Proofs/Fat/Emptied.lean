import BlockLayers.Proofs.Fat.Contained

/-!
# `BlockLayers.Proofs.Fat.Emptied`: what an interruption costs a file

Any calls are made to a volume that was just formatted, and any calls of
the store below may fail. Then the files are looked at through a store
that does not fail: every block within the size of a file can be read,
and a file can be emptied, which gives all of its entries back to the
free chain.

There is one exception. A growth writes the link to the new entries
before the record of its file, and when it is interrupted between the
two the chain of the file goes on behind the file. Such a file cannot be
emptied until it has grown. `interrupted` keeps account of the files
that this may have happened to.

Main statement: `readable_and_emptied`.
-/

set_option autoImplicit false

namespace BlockLayers.Fat

/-- A file without entries has none to give back. -/
theorem Chains.released_of_nil {a : Chains} {ino : UInt32} (hfile : a.file ino = [])
    (hrest : a.rest ino = Link.endMark) : a.released ino = a := by
  have hsame := a.setFile_self ino
  rw [hfile, hrest] at hsame
  rw [released, hsame, hfile]
  rfl

/-- The chain of a file without blocks ends at once. -/
theorem Sound.of_blocks_eq_zero {p : Plan} {m : Catalog} {a : Chains} (h : Sound p m a)
    {ino : UInt32} (hzero : (m.record ino).blocks = 0) :
    a.file ino = [] ∧ a.rest ino = Link.endMark := by
  have hfile : a.file ino = [] := by
    rw [← List.length_eq_zero_iff, h.length_eq, hzero, UInt32.toNat_zero]
  have hpath := h.file_path ino
  rw [hfile, (h.head_eq ino).mpr hzero] at hpath
  exact ⟨hfile, hpath.symm⟩

namespace Volume

section Ends

variable {σ : Type} [Journal σ] {below : Store σ} {v : Volume} {p : Plan} {size : Nat}
  {blame : Fault → σ → Prop} {holds : σ → (Nat → Block) → Prop} {m : Catalog} {a : Chains}
  {s : σ}

/-- A file is emptied, or its chain goes on behind it. -/
theorem resize_zero_ends (hM : Medium below v.medium size blame holds) (fits : p.Usable size)
    (hsound : Sound p m a) (hs : Keeps p holds m s) {ino : UInt32} (hino : p.HasFile ino) :
    Op.Ends (v.store below (.resize ino 0)) s
      (fun count after => count = (m.record ino).blocks ∧ Retains p holds m (a.released ino) after)
      (fun fault after => blame fault after ∨
        Keeps p holds m after ∧ fault = .corrupted .longChain ∧ a.rest ino ≠ Link.endMark) := by
  obtain ⟨image, hs, rfl⟩ := hs
  refine (locate_ends (fits.tables hM.toLegible) fits.toSpans fits.files_lt
    hsound.recordBlocks_eq hs ino).bind ?_ ?_
  · rintro fault after ⟨-, hblame | ⟨hno, -⟩⟩
    · exact .inl hblame
    · exact (hno hino).elim
  rintro l s₁ ⟨-, hl, hs₁⟩
  have hkeeps : Keeps p holds (p.catalog image) s₁ := ⟨image, hs₁, rfl⟩
  dsimp only
  split
  -- A file without blocks is told to have its own size, and its chain is not followed at all.
  · rename_i hzero
    rw [hl.record_eq] at hzero ⊢
    obtain ⟨hfile, hrest⟩ := hsound.of_blocks_eq_zero hzero.symm
    refine Op.Ends.pure ⟨rfl, _, hkeeps, ?_, rfl⟩
    rw [Chains.released_of_nil hfile hrest]
    exact hsound
  -- No number is below 0, so the file is neither to grow nor to be cut to a part.
  refine Op.Ends.guard (fun hless => (UInt32.not_lt_zero hless).elim) fun _ => ?_
  refine Op.Ends.guard (fun hless => (UInt32.not_lt_zero hless).elim) fun _ => ?_
  refine (emptied_ends hM fits hsound hkeeps hino hl l.record.blocks).mono ?_ ?_
  · rintro _ after ⟨rfl, hreleased⟩
    exact ⟨congrArg Record.blocks hl.record_eq, hreleased⟩
  · exact fun _ _ hbad => hbad.imp_left And.left

end Ends

/-! ### Files through a store that does not fail -/

variable {v : Volume} {plan : Plan} {size : Nat} {catalog catalog' : Catalog} {a a' : Chains}
  {m : Memory}

/-- The size of a file as it is told. -/
def toldSize (v : Volume) (m : Memory) (ino : UInt32) : Except Stop UInt32 :=
  Op.outcome (v.store Memory.store (.size ino)) m

/-- The entries of a file on a medium, in order, as far as they are
looked at. -/
def FileChain (v : Volume) (plan : Plan) (size : Nat) (m : Memory) (ino : UInt32)
    (entries : List Link) : Prop :=
  ∃ image rest, Memory.Carries v.medium size m image ∧
    Path (plan.catalog image).link ((plan.catalog image).record ino).head entries rest

/-- Every block within the size of a file can be read. -/
structure Readable (v : Volume) (m : Memory) (ino count : UInt32) : Prop where
  size : v.toldSize m ino = .ok count
  read : ∀ offset < count, ∃ block,
    Op.outcome (v.store Memory.store (.read ⟨ino, offset⟩)) m = .ok block

/-- A file is emptied: its size is answered, and all of its entries go to
the head of the free chain. -/
structure Empties (v : Volume) (plan : Plan) (size : Nat) (m : Memory) (ino count : UInt32) :
    Prop where
  answer : Op.outcome (v.store Memory.store (.resize ino 0)) m = .ok count
  empty : v.toldSize (Op.next (v.store Memory.store (.resize ino 0)) m) ino = .ok 0
  free : ∃ chain entries, chain.length = count.toNat ∧ v.FileChain plan size m ino chain ∧
    v.FreeChain plan size m entries ∧
    v.FreeChain plan size (Op.next (v.store Memory.store (.resize ino 0)) m)
      (chain.reverse ++ entries)

/-- A file is not emptied since its chain goes on behind it. All files
look the same afterwards, and so does the free chain. -/
structure Overruns (v : Volume) (plan : Plan) (size : Nat) (m : Memory) (ino : UInt32) : Prop where
  answer : Op.outcome (v.store Memory.store (.resize ino 0)) m =
    .error (.fault (.corrupted .longChain))
  same : ∀ other, v.SameFile m (Op.next (v.store Memory.store (.resize ino 0)) m) other
  free : ∃ entries, v.FreeChain plan size m entries ∧
    v.FreeChain plan size (Op.next (v.store Memory.store (.resize ino 0)) m) entries

/-- The blocks of a file on sound chains can be read. -/
theorem readable_of_sound (fits : plan.Usable size) (hsound : Sound plan catalog a)
    (hs : Keeps plan (Memory.Carries v.medium size) catalog m) {ino : UInt32}
    (hino : plan.HasFile ino) : v.Readable m ino (UInt32.ofNat (a.blocks catalog ino).length) where
  size := outcome_size fits hsound hs hino
  read offset hoffset := by
    rw [UInt32.lt_iff_toNat_lt, toNat_ofNat_blocks hsound] at hoffset
    exact ⟨_, outcome_read fits hsound hs ⟨ino, offset⟩ hino (List.getElem?_eq_getElem hoffset)⟩

/-- A file on sound chains is emptied, or its chain goes on behind it. -/
theorem empties_or_overruns (fits : plan.Usable size) (hsound : Sound plan catalog a)
    (hs : Keeps plan (Memory.Carries v.medium size) catalog m) {ino : UInt32}
    (hino : plan.HasFile ino) :
    v.Empties plan size m ino (UInt32.ofNat (a.blocks catalog ino).length) ∨
      v.Overruns plan size m ino ∧ a.rest ino ≠ Link.endMark := by
  rcases (resize_zero_ends (Memory.medium v.medium size) fits hsound hs hino).outcome_next with
    ⟨count, hanswer, rfl, catalog', hs', hsound', -⟩ |
      ⟨_, hanswer, hno | ⟨hs', rfl, hrest⟩⟩
  · -- The size that is told is the number of the entries of the file.
    have hcount := a.ofNat_length_files hsound ino
    refine .inl ⟨hanswer.trans (congrArg _ hcount.symm), ?_, a.file ino, a.free, ?_, ?_,
      freeChain_of_sound fits.entries_le hsound hs, freeChain_of_sound fits.entries_le hsound' hs'⟩
    · refine (outcome_size fits hsound' hs' hino).trans ?_
      rw [Chains.blocks, Chains.released, Chains.file_setFile_self]
      rfl
    · rw [toNat_ofNat_blocks hsound, Chains.blocks, List.length_map]
    · obtain ⟨image, hcarries, rfl⟩ := hs
      exact ⟨image, a.rest ino, hcarries, hsound.file_path ino⟩
  · exact hno.elim
  · exact .inr ⟨⟨hanswer, fun other => sameFile_of_blocks fits hsound hs hsound hs' rfl, a.free,
      freeChain_of_sound fits.entries_le hsound hs,
      freeChain_of_sound fits.entries_le hsound hs'⟩, hrest⟩

/-! ### Interrupted growth -/

/-- A write at or behind the end of a file fails. -/
def GrowthFails (v : Volume) (below : Store (Nat × Memory)) (c : Call) (s : Nat × Memory)
    (ino : UInt32) : Prop :=
  ∃ offset data count stop, c = .request (.write ⟨ino, offset⟩ data) ∧
    v.toldSize s.2 ino = .ok count ∧ count ≤ offset ∧
    Op.outcome (v.serve below c) s = .error stop

/-- The files whose growth was interrupted: a write at or behind the end
of the file failed, and it has had the same size ever since. -/
def interrupted (v : Volume) (below : Store (Nat × Memory)) (before : UInt32 → Prop) (c : Call)
    (s : Nat × Memory) (ino : UInt32) : Prop :=
  v.toldSize (Op.next (v.serve below c) s).2 ino = v.toldSize s.2 ino ∧
    (before ino ∨ v.GrowthFails below c s ino)

/-- The chains on a medium are sound, and end with their files, save those
of some files. -/
def EndedBut (v : Volume) (plan : Plan) (size : Nat) (m : Memory) (torn : UInt32 → Prop) : Prop :=
  ∃ catalog a, Keeps plan (Memory.Carries v.medium size) catalog m ∧ Sound plan catalog a ∧
    ∀ ino, plan.HasFile ino → a.rest ino = Link.endMark ∨ torn ino

/-- A call leaves every chain as it was or lets it end, unless it was a
write that failed to let the file grow. -/
theorem Became.settles {c : Call} {result : Except Stop c.Answer}
    (h : Became plan c result catalog a catalog' a') (ino : UInt32) :
    a.Settles a' ino ∨ ∃ offset data stop, c = .request (.write ⟨ino, offset⟩ data) ∧
      result = .error stop ∧ (a.blocks catalog ino).length ≤ offset.toNat ∧
      (a'.blocks catalog' ino).length = (a.blocks catalog ino).length := by
  cases c with
  | occupancy =>
    obtain ⟨rfl, rfl⟩ := h
    exact .inl (a'.settles_refl ino)
  | request q =>
    cases result with
    | ok value => exact .inl (h.2 ino)
    | error stop =>
      cases q with
      | write addr data =>
        have hleft : WriteLeft plan addr catalog a catalog' a' := h
        refine (hleft.rest ino).imp_right ?_
        rintro ⟨rfl, hgrows, hsame⟩
        exact ⟨addr.offset, data, stop, rfl, rfl, hgrows, hsame⟩
      | resize other blocks =>
        have hleft : ResizeLeft other catalog a catalog' a' := h
        exact .inl (hleft.rest ino)
      | _ =>
        obtain ⟨rfl, rfl⟩ := h
        exact .inl (a'.settles_refl ino)

variable {schedule : Nat → Option Fault}

/-- The chains of a new volume end with their files. -/
theorem ended_formatted {files : UInt32} {m : Memory} (hfresh : v.Unformatted m)
    {formatting : Nat → Option Fault} {first : Nat} {start : Nat × Memory}
    (hformat : v.format (Unsteady.store formatting Memory.store) files (first, m) = .ok () start) :
    ∃ plan, Plan.make (m.told v.medium) files = .ok plan ∧
      v.EndedBut plan (m.told v.medium).toNat start.2 fun _ => False := by
  obtain ⟨plan, data, hplan, hkeeps⟩ := fresh_formatted hfresh hformat
  exact ⟨plan, hplan, _, _, hkeeps, fresh_sound (Plan.make_divides hplan) data,
    fun ino _ => .inl ((fresh_matches plan data).ended ino)⟩

/-- A call leaves chains that end with their files, save those whose
growth was interrupted. -/
theorem endedBut_serve (fits : plan.Fits size) (c : Call) {s : Nat × Memory}
    {torn : UInt32 → Prop} (h : v.EndedBut plan size s.2 torn) :
    v.EndedBut plan size (Op.next (v.serve (Unsteady.store schedule Memory.store) c) s).2
      (v.interrupted (Unsteady.store schedule Memory.store) torn c s) := by
  obtain ⟨catalog, a, hs, hsound, hended⟩ := h
  obtain ⟨catalog', a', hs', hsound', hbecame⟩ :=
    serve_became schedule fits.toDivides hsound hs c
  have hM := Memory.medium v.medium size
  refine ⟨catalog', a', hs', hsound', fun ino hino => ?_⟩
  have htold : v.toldSize s.2 ino = .ok (UInt32.ofNat (a.blocks catalog ino).length) :=
    outcome_size fits.toUsable hsound hs hino
  -- As long as a file has as many blocks as before, it tells the same size.
  have hsize : (a'.blocks catalog' ino).length = (a.blocks catalog ino).length →
      v.toldSize (Op.next (v.serve (Unsteady.store schedule Memory.store) c) s).2 ino =
        v.toldSize s.2 ino := by
    intro hsame
    rw [htold, ← hsame]
    exact outcome_size fits.toUsable hsound' hs' hino
  rcases hbecame.settles ino with
    (⟨hfile, hrest⟩ | hrest) | ⟨offset, data, stop, hc, hfail, hgrows, hsame⟩
  -- A chain that is as it was is torn only if it was before, and its file has the same size.
  · rw [hrest]
    refine (hended ino hino).imp_right fun htorn => ⟨hsize ?_, .inl htorn⟩
    rw [Chains.blocks, List.length_map, Chains.blocks, List.length_map, hfile]
  · exact .inl hrest
  · refine .inr ⟨hsize hsame, .inr ⟨offset, data, _, stop, hc, htold, ?_, hfail⟩⟩
    rw [UInt32.le_iff_toNat_le, toNat_ofNat_blocks hsound]
    exact hgrows

/-- Files stay usable: a volume is formatted, and then any calls are made
to it, any of whose calls of the store below may fail. Every block of
every file can be read afterwards, and every file can be emptied, save
one whose growth was interrupted. -/
theorem readable_and_emptied {files : UInt32} {m : Memory} (hfresh : v.Unformatted m)
    (hfiles : 64 * ((files.toNat + 63) / 64) < 4294967296) {formatting : Nat → Option Fault}
    {first : Nat} {start : Nat × Memory}
    (hformat : v.format (Unsteady.store formatting Memory.store) files (first, m) = .ok () start)
    (schedule : Nat → Option Fault) (calls : List Call) :
    ∃ plan, Plan.make (m.told v.medium) files = .ok plan ∧ ∀ ino, plan.HasFile ino →
      ∃ count, v.Readable
          (Op.after (v.serve (Unsteady.store schedule Memory.store)) calls start).2 ino count ∧
        (v.Empties plan (m.told v.medium).toNat
            (Op.after (v.serve (Unsteady.store schedule Memory.store)) calls start).2 ino count ∨
          v.Overruns plan (m.told v.medium).toNat
              (Op.after (v.serve (Unsteady.store schedule Memory.store)) calls start).2 ino ∧
            Op.accounted (v.serve (Unsteady.store schedule Memory.store))
              (v.interrupted (Unsteady.store schedule Memory.store)) calls start (fun _ => False)
              ino) := by
  obtain ⟨plan, hplan, hstart⟩ := ended_formatted hfresh hformat
  have hdivides := Plan.make_divides hplan
  have fits : plan.Fits (m.told v.medium).toNat := ⟨hdivides, Plan.make_files_lt hplan hfiles⟩
  -- The account of the files whose growth was interrupted is carried through the run.
  obtain ⟨catalog, a, hs, hsound, hended⟩ := Op.accounted_invariant
    (fun s : Nat × Memory => v.EndedBut plan (m.told v.medium).toNat s.2)
    (v.interrupted (Unsteady.store schedule Memory.store))
    (fun c _ _ h => endedBut_serve fits c h) calls hstart
  refine ⟨plan, hplan, fun ino hino => ⟨_, readable_of_sound fits.toUsable hsound hs hino, ?_⟩⟩
  rcases empties_or_overruns fits.toUsable hsound hs hino with hempties | ⟨hoverruns, hrest⟩
  · exact .inl hempties
  · exact .inr ⟨hoverruns, (hended ino hino).resolve_left hrest⟩

/-- The files of a new volume of four blocks. -/
theorem readable_and_emptied_zeros :
    ∃ start, (⟨0⟩ : Volume).format (Unsteady.store (fun _ => none) Memory.store) 1
        (0, Memory.zeros 4) = .ok () start ∧
      ∀ (schedule : Nat → Option Fault) (calls : List Call),
        ∃ plan, Plan.make ((Memory.zeros 4).told 0) 1 = .ok plan ∧ ∀ ino, plan.HasFile ino →
          ∃ count, (⟨0⟩ : Volume).Readable (Op.after
              ((⟨0⟩ : Volume).serve (Unsteady.store schedule Memory.store)) calls start).2
              ino count ∧
            ((⟨0⟩ : Volume).Empties plan ((Memory.zeros 4).told 0).toNat (Op.after
                ((⟨0⟩ : Volume).serve (Unsteady.store schedule Memory.store)) calls start).2
                ino count ∨
              (⟨0⟩ : Volume).Overruns plan ((Memory.zeros 4).told 0).toNat (Op.after
                  ((⟨0⟩ : Volume).serve (Unsteady.store schedule Memory.store)) calls start).2 ino ∧
                Op.accounted ((⟨0⟩ : Volume).serve (Unsteady.store schedule Memory.store))
                  ((⟨0⟩ : Volume).interrupted (Unsteady.store schedule Memory.store)) calls start
                  (fun _ => False) ino) := by
  obtain ⟨start, hformat⟩ := exists_start (v := ⟨0⟩) (m := Memory.zeros 4)
    (Memory.carries_zeros (by decide)) (by decide) (show Plan.make 4 1 = .ok ⟨1, 1, 1⟩ by decide)
  exact ⟨start, hformat, fun schedule calls =>
    readable_and_emptied unformatted_zeros (by decide) hformat schedule calls⟩

/-- A volume of five blocks whose file 0 has one block and was to gain
another: the write fails where it writes the record of the file, with
the call 18 of the store below. -/
def tornGrowth : Nat × Memory :=
  Op.after ((⟨0⟩ : Volume).serve
      (Unsteady.store (fun call => if call = 18 then some .io else none) Memory.store))
    [.request (.write ⟨0, 0⟩ Block.zero), .request (.write ⟨0, 1⟩ Block.zero)]
    (Op.next ((⟨0⟩ : Volume).format (Unsteady.store (fun _ => none) Memory.store) 1)
      (0, Memory.zeros 5))

/-- The file still has its block, and cannot be emptied. -/
theorem overruns_tornGrowth :
    Op.outcome ((⟨0⟩ : Volume).format (Unsteady.store (fun _ => none) Memory.store) 1)
        (0, Memory.zeros 5) = .ok () ∧
      (⟨0⟩ : Volume).toldSize tornGrowth.2 0 = .ok 1 ∧
      Op.outcome ((⟨0⟩ : Volume).store Memory.store (.resize 0 0)) tornGrowth.2 =
        .error (.fault (.corrupted .longChain)) := by
  decide +kernel

end Volume

end BlockLayers.Fat
