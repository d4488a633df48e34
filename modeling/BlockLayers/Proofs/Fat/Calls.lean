import BlockLayers.Proofs.Fat.Interrupted

/-!
# `BlockLayers.Proofs.Fat.Calls`: what each call does

Every call of a volume with sound chains ends with sound chains, whether
it succeeds, is refused or is interrupted. A call that succeeds does to
the files that the chains hold what it does to a map of them
(`Follows`). A call that fails was refused by the map too, unless the
store below is to blame, or a file could not be emptied because its
chain goes on behind it (`Refuses`); it is then known what the call
leaves. Reads and questions for a size change nothing (`Answers`,
`Declines`).

Main statements: `store_ends`, and `Follows.matches` and
`Refuses.matches`, which say the same of a map that the chains match.
-/

set_option autoImplicit false

namespace BlockLayers.Fat.Volume

variable {σ : Type} [Journal σ] {below : Store σ} {v : Volume} {p : Plan} {size : Nat}
  {blame : Fault → σ → Prop} {holds : σ → (Nat → Block) → Prop} {m : Catalog} {a : Chains}
  {s : σ} {α : Type}

/-- How a call ends that succeeds: the chains are sound, each as it was
or one that ends with its file, and the files that they hold are those
that the call leaves on a map. -/
def Follows (p : Plan) (holds : σ → (Nat → Block) → Prop) (m : Catalog) (a : Chains)
    (x : Op FileMap α) (value : α) (s : σ) : Prop :=
  ∃ m' a', Keeps p holds m' s ∧ Sound p m' a' ∧ (∀ ino, a.Settles a' ino) ∧
    x (a.files p m) = .ok value (a'.files p m')

/-- How a call ends that fails: the store below is to blame, and the call
leaves sound chains and what an interrupted call may leave, or nothing
has changed. Then the map refuses the call too, or the chain of a file
goes on behind the file. -/
def Refuses (p : Plan) (blame : Fault → σ → Prop) (holds : σ → (Nat → Block) → Prop)
    (left : Catalog → Chains → Prop) (m : Catalog) (a : Chains) (x : Op FileMap α) (fault : Fault)
    (s : σ) : Prop :=
  (blame fault s ∧ ∃ m' a', Keeps p holds m' s ∧ Sound p m' a' ∧ left m' a') ∨
    Keeps p holds m s ∧ (x (a.files p m) = .error (.fault fault) (a.files p m) ∨
      fault = .corrupted .longChain ∧ ∃ ino, a.rest ino ≠ Link.endMark)

/-- How a call ends that succeeds and changes nothing: as on the files
that the chains hold. -/
def Answers (p : Plan) (holds : σ → (Nat → Block) → Prop) (m : Catalog) (a : Chains)
    (x : Op FileMap α) (value : α) (s : σ) : Prop :=
  Keeps p holds m s ∧ x (a.files p m) = .ok value (a.files p m)

/-- How a call ends that fails and changes nothing: the store below is to
blame, or it is refused on the files that the chains hold. -/
def Declines (p : Plan) (blame : Fault → σ → Prop) (holds : σ → (Nat → Block) → Prop) (m : Catalog)
    (a : Chains) (x : Op FileMap α) (fault : Fault) (s : σ) : Prop :=
  Keeps p holds m s ∧ (blame fault s ∨ x (a.files p m) = .error (.fault fault) (a.files p m))

section Ends

variable {left : Catalog → Chains → Prop} {x : Op FileMap α} {value : α} {fault : Fault}

omit [Journal σ]

/-- A call that fails leaves sound chains, and what it may leave. -/
theorem Refuses.sound (h : Refuses p blame holds left m a x fault s) (hsound : Sound p m a)
    (hleft : left m a) : ∃ m' a', Keeps p holds m' s ∧ Sound p m' a' ∧ left m' a' := by
  rcases h with ⟨-, hkept⟩ | ⟨hkept, -⟩
  · exact hkept
  · exact ⟨m, a, hkept, hsound, hleft⟩

/-- The store below is to blame, and nothing has changed. -/
theorem Refuses.blamed {image : Nat → Block} (hsound : Sound p (p.catalog image) a)
    (hleft : left (p.catalog image) a) (h : holds s image ∧ blame fault s) :
    Refuses p blame holds left (p.catalog image) a x fault s :=
  .inl ⟨h.2, _, a, ⟨image, h.1, rfl⟩, hsound, hleft⟩

/-- The store below is to blame, and nothing has changed. -/
theorem Declines.blamed {image : Nat → Block} (h : holds s image ∧ blame fault s) :
    Declines p blame holds (p.catalog image) a x fault s :=
  ⟨⟨image, h.1, rfl⟩, .inl h.2⟩

/-- A call that changes nothing leaves the chains that there were. -/
theorem Answers.follows (h : Answers p holds m a x value s) (hsound : Sound p m a) :
    Follows p holds m a x value s := ⟨m, a, h.1, hsound, a.settles_refl, h.2⟩

/-- A call that declines leaves what an interrupted call may leave. -/
theorem Declines.refuses (h : Declines p blame holds m a x fault s) (hsound : Sound p m a)
    (hleft : left m a) : Refuses p blame holds left m a x fault s := by
  obtain ⟨hkept, hblame | hrefused⟩ := h
  · exact .inl ⟨hblame, m, a, hkept, hsound, hleft⟩
  · exact .inr ⟨hkept, .inl hrefused⟩

/-- A request that succeeds does what it does to a map that the chains
match, and they match the map that it leaves. -/
theorem Follows.matches {q : Request} {value : q.Answer} {f : FileMap}
    (h : Follows p holds m a (FileMap.store q) value s) (hf : Matches p m a f) :
    ∃ m' a' f', Keeps p holds m' s ∧ Sound p m' a' ∧ FileMap.store q f = .ok value f' ∧
      Matches p m' a' f' := by
  obtain ⟨m', a', hkeeps, hsound, hsettles, hrun⟩ := h
  refine ⟨m', a', a'.files p m', hkeeps, hsound, ?_, hf.store hrun fun ino => ?_⟩
  · rw [hf.eq_files]
    exact hrun
  · -- A chain that is as it was ended with its file, and so does every other one.
    rcases hsettles ino with ⟨-, hrest⟩ | hrest
    · rw [hrest, hf.ended]
    · exact hrest

/-- A request that is refused is refused by a map that the chains match. -/
theorem Refuses.matches {f : FileMap} (h : Refuses p blame holds left m a x fault s)
    (hf : Matches p m a f) :
    (blame fault s ∧ ∃ m' a', Keeps p holds m' s ∧ Sound p m' a' ∧ left m' a') ∨
      Keeps p holds m s ∧ x f = .error (.fault fault) f := by
  refine h.imp_right fun ⟨hkept, hrefused⟩ => ⟨hkept, ?_⟩
  rcases hrefused with hrun | ⟨-, ino, hrest⟩
  · rw [hf.eq_files]
    exact hrun
  · exact (hrest (hf.ended ino)).elim

end Ends

/-- A file is found, or there is none. -/
theorem located_ends (hL : Legible below v.medium size blame holds) (fits : p.Usable size)
    (hsound : Sound p m a) (hs : Keeps p holds m s) (ino : UInt32)
    (x : FileMap → EStateM.Result Stop FileMap α) :
    Op.Ends (v.locate below ino) s
      (fun l after => p.HasFile ino ∧ l.Of p m ino ∧ Keeps p holds m after)
      (Declines p blame holds m a (FileMap.within ino x)) := by
  obtain ⟨image, hs, rfl⟩ := hs
  refine (locate_ends (fits.tables hL) fits.toSpans fits.files_lt hsound.recordBlocks_eq hs
    ino).mono ?_ ?_
  · intro l after h
    exact ⟨h.1, h.2.1, image, h.2.2, rfl⟩
  · intro fault after h
    obtain ⟨hs', hblame | ⟨hino, rfl⟩⟩ := h
    · exact .blamed ⟨hs', hblame⟩
    · refine ⟨⟨image, hs', rfl⟩, .inr (FileMap.within_refused (UInt32.not_lt.mp fun hlt => ?_))⟩
      exact hino ((Chains.lt_files_count fits).mp hlt)

/-- A data block is written. -/
theorem writeData_ends {entry : Link}
    (hP : Permits below v.medium size (· = p.dataFrom + entry.word.toNat) blame holds)
    {number : UInt32} (hnumber : number.toNat = p.dataFrom + entry.word.toNat) (data : Block)
    (hs : Keeps p holds m s) :
    Op.Ends (v.writeBlock below number data) s
      (fun _ after => Keeps p holds { m with data := Function.update m.data entry data } after)
      (fun fault after => Keeps p holds m after ∧ blame fault after) := by
  obtain ⟨image, hs, rfl⟩ := hs
  refine (hP.write data hs hnumber).mono ?_ ?_
  · intro _ after hafter
    rw [hnumber] at hafter
    exact ⟨_, hafter, catalog_writeData entry data⟩
  · intro fault after hbad
    exact ⟨⟨image, hbad.1, rfl⟩, hbad.2⟩

/-- The data blocks of some entries are made zeros. -/
theorem clear_ends {entries : List Link}
    (hP : Permits below v.medium size (fun n => ∃ e ∈ entries, n = p.dataFrom + e.word.toNat)
      blame holds)
    (fits : p.Usable size) {sb : Superblock} (hrecords : sb.recordBlocks = p.recordBlocks)
    (htable : sb.tableBlocks = p.tableBlocks)
    (hentries : ∀ e ∈ entries, e.word.toNat < p.entries.toNat) (hs : Keeps p holds m s) :
    Op.Ends (v.clear below sb entries) s
      (fun _ after => ∃ data, Keeps p holds { m with data := data } after ∧
        (∀ e ∈ entries, data e = Block.zero) ∧ ∀ e, e ∉ entries → data e = m.data e)
      (fun fault after => blame fault after ∧ ∃ data, Keeps p holds { m with data := data } after ∧
        ∀ e, e ∉ entries → data e = m.data e) := by
  -- By induction on the entries, with the data that was cleared before in the catalog.
  induction entries generalizing m s with
  | nil => exact Op.Ends.pure ⟨m.data, hs, by simp, fun _ _ => rfl⟩
  | cons entry rest ih =>
    have hentry := hentries entry List.mem_cons_self
    obtain ⟨number, hblock, hnumber⟩ := fits.exists_dataBlock hrecords htable hentry
    have hfirst : Permits below v.medium size (· = p.dataFrom + entry.word.toNat) blame holds :=
      hP.restrict fun _ hn => ⟨entry, List.mem_cons_self, hn⟩
    have hrest : Permits below v.medium size (fun n => ∃ e ∈ rest, n = p.dataFrom + e.word.toNat)
        blame holds :=
      hP.restrict fun _ ⟨e, he, hn⟩ => ⟨e, List.mem_cons_of_mem entry he, hn⟩
    refine Op.Ends.lift_seq hblock ((writeData_ends hfirst hnumber Block.zero hs).bind ?_ ?_)
    · intro fault after hbad
      exact ⟨hbad.2, m.data, hbad.1, fun _ _ => rfl⟩
    intro _ after hafter
    -- What is the same outside the entries that are left is the same outside all of them.
    have hkept : ∀ data : Link → Block,
        (∀ e, e ∉ rest → data e = Function.update m.data entry Block.zero e) →
          ∀ e, e ∉ entry :: rest → data e = m.data e := by
      intro data hsame e he
      rw [hsame e fun h => he (List.mem_cons_of_mem _ h)]
      exact Function.update_of_ne (fun h => he (by rw [h]; exact List.mem_cons_self)) _ _
    refine (ih hrest (fun e he => hentries e (List.mem_cons_of_mem _ he)) hafter).mono ?_ ?_
    · intro _ final hfinal
      obtain ⟨data, hkeeps, hzero, hsame⟩ := hfinal
      -- An entry that comes again further on is cleared again there.
      refine ⟨data, hkeeps, fun e he => ?_, hkept data hsame⟩
      by_cases hlater : e ∈ rest
      · exact hzero e hlater
      · rw [hsame e hlater, (List.mem_cons.mp he).resolve_right hlater]
        exact Function.update_self _ _ _
    · intro fault final hfinal
      obtain ⟨hblame, data, hkeeps, hsame⟩ := hfinal
      exact ⟨hblame, data, hkeeps, hkept data hsame⟩

/-- The size of a file is the length of its list. -/
theorem size_answers (hM : Medium below v.medium size blame holds) (fits : p.Usable size)
    (hsound : Sound p m a) (hs : Keeps p holds m s) (ino : UInt32) :
    Op.Ends (v.store below (.size ino)) s (Answers p holds m a (FileMap.size ino))
      (Declines p blame holds m a (FileMap.size ino)) := by
  refine (located_ends hM.toLegible fits hsound hs ino _).seq ?_
  intro l after h
  obtain ⟨hino, hl, hafter⟩ := h
  refine Op.Ends.pure ⟨hafter, ?_⟩
  rw [FileMap.size, FileMap.within_apply ((Chains.lt_files_count fits).mpr hino),
    a.ofNat_length_files hsound, hl.record_eq]

/-- A block is read from the list of its file. -/
theorem read_answers (hM : Medium below v.medium size blame holds) (fits : p.Usable size)
    (hsound : Sound p m a) (hs : Keeps p holds m s) (addr : Address) :
    Op.Ends (v.store below (.read addr)) s (Answers p holds m a (FileMap.read addr))
      (Declines p blame holds m a (FileMap.read addr)) := by
  refine (located_ends hM.toLegible fits hsound hs addr.ino _).seq ?_
  intro l s₁ h
  obtain ⟨hino, hl, hs₁⟩ := h
  refine Op.Ends.guard (fun hend => ⟨hs₁, .inr ?_⟩) fun hend => ?_
  · rw [UInt32.le_iff_toNat_le] at hend
    have hread := FileMap.read_pastEnd ((Chains.lt_files_count fits).mpr hino)
      (by rw [a.length_files hsound, ← hl.record_eq]; exact hend)
    rw [a.ofNat_length_files hsound, ← hl.record_eq] at hread
    exact hread
  obtain ⟨image, hs₁, rfl⟩ := hs₁
  refine (entryOf_ends hM.toLegible fits hsound hs₁ hl (UInt32.not_le.mp hend)).bind
    (fun _ _ hbad => .blamed hbad) ?_
  intro entry s₂ h
  obtain ⟨hentry, hs₂⟩ := h
  -- The entry is on the chain of the file, so it has a data block with a number.
  have hlt := hsound.apart.file_lt _ entry (List.mem_of_getElem? hentry)
  obtain ⟨hrecords, htable⟩ := hl.sizes_eq hsound
  obtain ⟨number, hblock, hnumber⟩ := fits.exists_dataBlock hrecords htable hlt
  have hsize := fits.size_eq
  refine Op.Ends.lift_seq hblock ((hM.read hs₂ (by omega)).mono ?_
    fun _ _ hbad => .blamed hbad)
  intro block after h
  obtain ⟨rfl, hafter⟩ := h
  refine ⟨⟨image, hafter, rfl⟩, ?_⟩
  refine FileMap.read_apply ((Chains.lt_files_count fits).mpr hino) ?_
  rw [show (a.files p _).file addr.ino = (a.file addr.ino).map _ from rfl, List.getElem?_map,
    hentry, hnumber]
  rfl

/-- A file that has room gains a block, and zeros before it. -/
theorem gain_ends {ino offset : UInt32}
    (hP : Permits below v.medium size (a.Opens p ⟨ino, offset⟩) blame holds) (fits : p.Usable size)
    (hsound : Sound p m a) (hs : Keeps p holds m s) {l : Located} (hino : p.HasFile ino)
    (hl : l.Of p m ino) {gap : Nat} (hgap : offset.toNat = l.record.blocks.toNat + gap)
    (hmax : offset ≠ 0xffffffff) :
    Op.Ends (v.gain below l offset) s
      (fun entry after => gap < a.free.length ∧
        ∃ front m', front ++ [entry] = a.free.take (gap + 1) ∧ Keeps p holds m' after ∧
          Sound p m' (a.grown ino (gap + 1)) ∧ (∀ e ∈ front, m'.data e = Block.zero) ∧
          ∀ e, e ∉ front → m'.data e = m.data e)
      (fun fault after => (blame fault after ∧ ∃ m' a', Keeps p holds m' after ∧ Sound p m' a' ∧
          WriteLeft p ⟨ino, offset⟩ m a m' a') ∨
        fault = .noSpace ∧ a.free.length ≤ gap ∧ Keeps p holds m after) := by
  obtain ⟨image, hs, rfl⟩ := hs
  obtain ⟨c, hopen, hshows⟩ := hl.cursor fits hsound v.medium
  have hlength : offset.toNat = (a.file ino).length + gap := by
    rw [hsound.length_eq, ← hl.record_eq]
    exact hgap
  refine Op.Ends.lift_seq hopen (Op.Ends.withOwn_seq
    (grow_ends (hP.restrict fun _ => Or.inl) fits hsound hl hino hgap hmax ⟨image, rfl, hshows, hs⟩)
    ?_ ?_)
  · intro fault after hbad
    rcases hbad with ⟨hblame, ⟨m', hkeeps, hsound', hdata⟩ |
      ⟨hroom, rest, m', hkeeps, hsound', hdata⟩⟩ | hfull
    · exact .inl ⟨hblame, m', a, hkeeps, hsound', .of_chains hdata⟩
    · exact .inl ⟨hblame, m', _, hkeeps, hsound', .of_growing hdata hino hlength hroom rest⟩
    · exact .inr hfull
  intro run after hgrown
  obtain ⟨hroom, htake, m', hkeeps, hsound', hdata⟩ := hgrown
  -- The entries to clear are those that were taken before the last one.
  have htaken : ∀ e ∈ run.gap, e ∈ a.free.take (gap + 1) := fun e he =>
    htake ▸ List.mem_append_left _ he
  have hentries : ∀ e ∈ run.gap, e.word.toNat < p.entries.toNat := fun e he =>
    hsound.apart.free_lt e (List.mem_of_mem_take (htaken e he))
  have hcount : offset.toNat + 1 - (a.file ino).length = gap + 1 := by omega
  have hclear : Permits below v.medium size
      (fun n => ∃ e ∈ run.gap, n = p.dataFrom + e.word.toNat) blame holds :=
    hP.restrict fun _ ⟨e, he, hn⟩ =>
      .inr ⟨e, List.mem_append_right _ (hcount ▸ htaken e he), hn⟩
  obtain ⟨hrecords, htable⟩ := hl.sizes_eq hsound
  refine (clear_ends hclear fits hrecords htable hentries hkeeps).bind ?_ ?_
  · intro fault final hbad
    obtain ⟨hblame, data, hkeeps', hsame⟩ := hbad
    -- Growth has succeeded, and only new blocks of the file have been written to.
    refine .inl ⟨hblame, _, _, hkeeps', hsound'.withData data,
      .of_grown hsound.apart hino hlength hroom fun e he => ?_⟩
    rw [← htake] at he
    rw [← hdata]
    exact hsame e fun hmem => he (List.mem_append_left _ hmem)
  · intro _ final hfinal
    obtain ⟨data, hkeeps', hzero, hsame⟩ := hfinal
    refine Op.Ends.pure ⟨hroom, run.gap, _, htake, hkeeps', hsound'.withData data, hzero, ?_⟩
    intro e he
    rw [← hdata]
    exact hsame e he

/-- The entry of a block that is about to be written. With the block
written to its data block the files are those of the map. -/
theorem entryFor_ends {addr : Address}
    (hP : Permits below v.medium size (a.Opens p addr) blame holds) (fits : p.Usable size)
    (hsound : Sound p m a) (hs : Keeps p holds m s) {l : Located} (hino : p.HasFile addr.ino)
    (hl : l.Of p m addr.ino) (data : Block) :
    Op.Ends (v.entryFor below l addr.offset) s
      (fun entry after => entry ∈ a.reach addr ∧
        ∃ m' a', Keeps p holds m' after ∧ Sound p m' a' ∧ WriteLeft p addr m a m' a' ∧
          (∀ ino, a.Settles a' ino) ∧ FileMap.write addr data (a.files p m) =
            .ok () (a'.files p { m' with data := Function.update m'.data entry data }))
      (Refuses p blame holds (WriteLeft p addr m a) m a (FileMap.write addr data)) := by
  have hrefl : WriteLeft p addr m a m a := Left.refl p (.write addr data) m a
  unfold entryFor
  split
  · -- The file has the block, and keeps its entries.
    rename_i hoffset
    obtain ⟨image, hs, rfl⟩ := hs
    refine (entryOf_ends hP.toLegible fits hsound hs hl hoffset).mono ?_
      fun _ _ hbad => .blamed hsound hrefl hbad
    intro entry after h
    obtain ⟨hentry, hafter⟩ := h
    exact ⟨List.mem_append_left _ (List.mem_of_getElem? hentry), _, a,
      ⟨image, hafter, rfl⟩, hsound, hrefl, a.settles_refl,
      Chains.write_over fits hsound hino hentry data⟩
  rename_i hoffset
  rw [UInt32.not_lt, UInt32.le_iff_toNat_le] at hoffset
  split
  · rename_i hmax
    exact Op.Ends.fail (.inr ⟨hs, .inl (Chains.write_last fits hsound hino hmax data)⟩)
  · -- The file gains the block and `gap` others before it.
    rename_i hmax
    obtain ⟨gap, hgap⟩ := Nat.exists_eq_add_of_le hoffset
    have hrecord := hl.record_eq ▸ hgap
    refine (gain_ends hP fits hsound hs hino hl hgap hmax).mono ?_ ?_
    · intro entry after hgained
      obtain ⟨hroom, front, m', hrun, hkeeps, hsound', hzero, hsame⟩ := hgained
      have htaken : entry ∈ a.free.take (gap + 1) := hrun ▸ by simp
      have hcount : addr.offset.toNat + 1 - (a.file addr.ino).length = gap + 1 := by
        rw [hsound.length_eq]
        omega
      refine ⟨List.mem_append_right _ (hcount ▸ htaken), m', _, hkeeps, hsound', ?_,
        (a.shortened (gap + 1)).settles_setFile addr.ino _,
        Chains.write_grown fits hsound hino hrecord hroom hrun hzero hsame data⟩
      refine .of_grown hsound.apart hino (hrecord.trans (by rw [hsound.length_eq])) hroom
        fun e he => ?_
      rw [← hrun] at he
      exact hsame e fun hmem => he (List.mem_append_left _ hmem)
    · intro fault after hbad
      rcases hbad with hblame | ⟨rfl, hfull, hkeeps⟩
      · exact .inl hblame
      · exact .inr ⟨hkeeps, .inl (Chains.write_full fits hsound hino hrecord hfull data)⟩

/-- A block is written to the list of its file. -/
theorem write_ends {addr : Address} (hP : Permits below v.medium size (a.Opens p addr) blame holds)
    (fits : p.Usable size) (hsound : Sound p m a) (hs : Keeps p holds m s) (data : Block) :
    Op.Ends (v.store below (.write addr data)) s (Follows p holds m a (FileMap.write addr data))
      (Refuses p blame holds (WriteLeft p addr m a) m a (FileMap.write addr data)) := by
  refine (located_ends hP.toLegible fits hsound hs addr.ino _).bind
    (fun _ _ hbad => hbad.refuses hsound (Left.refl p (.write addr data) m a)) ?_
  intro l s₁ h
  obtain ⟨hino, hl, hs₁⟩ := h
  refine (entryFor_ends hP fits hsound hs₁ hino hl data).seq ?_
  intro entry s₂ h
  obtain ⟨hentry, m', a', hkeeps, hsound', hleft, hsettles, hwrite⟩ := h
  obtain ⟨hrecords, htable⟩ := hl.sizes_eq hsound
  obtain ⟨number, hblock, hnumber⟩ :=
    fits.exists_dataBlock hrecords htable (hsound.lt_of_mem_reach hentry)
  -- The data block is one that the write may open, so the store below permits it.
  have hdata : Permits below v.medium size (· = p.dataFrom + entry.word.toNat) blame holds :=
    hP.restrict fun _ hn => .inr ⟨entry, hentry, hn⟩
  refine Op.Ends.lift_seq hblock ((writeData_ends hdata hnumber data hkeeps).mono ?_ ?_)
  · intro _ after hafter
    exact ⟨_, a', hafter, hsound'.withData _, hsettles, hwrite⟩
  · intro fault after hbad
    exact .inl ⟨hbad.2, m', a', hbad.1, hsound', hleft⟩

/-- A file that was found gives all its blocks back, or its chain goes on
behind it. -/
theorem emptied_ends (hM : Medium below v.medium size blame holds) (fits : p.Usable size)
    (hsound : Sound p m a) (hs : Keeps p holds m s) {l : Located} {ino : UInt32}
    (hino : p.HasFile ino) (hl : l.Of p m ino) (before : UInt32) :
    Op.Ends (do
        let cursor ← Cursor.open_ v.medium l.superblock
        let _ ← Op.withOwn cursor (v.free below l)
        return before) s
      (fun count after => count = before ∧ Retains p holds m (a.released ino) after)
      (fun fault after => (blame fault after ∧ ∃ m' a', Keeps p holds m' after ∧ Sound p m' a' ∧
          ResizeLeft ino m a m' a') ∨
        Keeps p holds m after ∧ fault = .corrupted .longChain ∧ a.rest ino ≠ Link.endMark) := by
  obtain ⟨image, hs, rfl⟩ := hs
  obtain ⟨c, hopen, hshows⟩ := hl.cursor fits hsound v.medium
  refine Op.Ends.lift_seq hopen (Op.Ends.withOwn_seq
    (free_ends (hM.toPermits.restrict fits.tables_lt) fits hsound hl hino
      ⟨image, rfl, hshows, hs⟩) ?_ ?_)
  · intro fault after hbad
    -- Three ways to fail: before the record was cleared, after it, or with a long chain.
    rcases hbad with ⟨hblame, ⟨m', hkeeps, hsound', hdata⟩ | ⟨m', hkeeps, hsound', hdata⟩⟩ |
      ⟨hrest, hfault, hkeeps⟩
    · exact .inl ⟨hblame, m', a, hkeeps, hsound', .of_chains hdata⟩
    · exact .inl ⟨hblame, m', _, hkeeps, hsound', .of_emptied hdata⟩
    · exact .inr ⟨hkeeps, hfault, hrest⟩
  · intro _ after hreleased
    exact Op.Ends.pure ⟨rfl, hreleased⟩

/-- A file is resized to its own size or to none. -/
theorem resize_ends (hM : Medium below v.medium size blame holds) (fits : p.Usable size)
    (hsound : Sound p m a) (hs : Keeps p holds m s) (ino blocks : UInt32) :
    Op.Ends (v.store below (.resize ino blocks)) s (Follows p holds m a (FileMap.resize ino blocks))
      (Refuses p blame holds (ResizeLeft ino m a) m a (FileMap.resize ino blocks)) := by
  refine (located_ends hM.toLegible fits hsound hs ino _).bind
    (fun _ _ hbad => hbad.refuses hsound (Left.refl p (.resize ino blocks) m a)) ?_
  intro l s₁ h
  obtain ⟨hino, hl, hs₁⟩ := h
  -- What the map does is known before; each test below takes one branch off.
  have hresize : FileMap.resize ino blocks (a.files p m) = _ :=
    FileMap.resize_apply ((Chains.lt_files_count fits).mpr hino)
      ((a.ofNat_length_files hsound ino).trans (congrArg Record.blocks hl.record_eq).symm)
  dsimp only
  split
  · rename_i hsame
    exact Op.Ends.pure ⟨m, a, hs₁, hsound, a.settles_refl, hresize.trans (if_pos hsame)⟩
  rename_i hsame
  rw [if_neg hsame] at hresize
  refine Op.Ends.guard (fun hmore => .inr ⟨hs₁, .inl (hresize.trans (if_pos hmore))⟩)
    fun hmore => ?_
  rw [if_neg hmore] at hresize
  refine Op.Ends.guard (fun hsome => .inr ⟨hs₁, .inl (hresize.trans (if_pos hsome))⟩)
    fun hsome => ?_
  rw [if_neg hsome] at hresize
  refine (emptied_ends hM fits hsound hs₁ hino hl l.record.blocks).mono ?_ ?_
  · rintro _ after ⟨rfl, m', hkeeps, hsound', hdata⟩
    refine ⟨m', _, hkeeps, hsound', a.settles_setFile ino [], hresize.trans ?_⟩
    rw [a.files_released ino hdata]
    rfl
  · rintro fault after (hblame | ⟨hkeeps, hfault, hrest⟩)
    · exact .inl hblame
    · exact .inr ⟨hkeeps, .inr ⟨hfault, ino, hrest⟩⟩

/-- The number of files is the one that the map has. -/
theorem capacity_answers (hM : Medium below v.medium size blame holds) (fits : p.Usable size)
    (hsound : Sound p m a) (hs : Keeps p holds m s) :
    Op.Ends (v.store below .capacity) s (Answers p holds m a (FileMap.store .capacity))
      (Declines p blame holds m a (FileMap.store .capacity)) := by
  obtain ⟨image, hs, rfl⟩ := hs
  refine (superblock_ends (fits.tables hM.toLegible) fits.toSpans hsound.recordBlocks_eq hs).bind
    (fun _ _ hbad => .blamed hbad) ?_
  intro sb after h
  obtain ⟨rfl, hafter⟩ := h
  rw [Plan.files_ok fits.files_lt hsound.recordBlocks_eq]
  have hanswers : Answers p holds (p.catalog image) a (FileMap.store .capacity)
      (p.recordBlocks * 64) after := ⟨⟨image, hafter, rfl⟩, rfl⟩
  exact Op.Ends.pure hanswers

/-- A sync changes nothing. -/
theorem sync_answers (hM : Medium below v.medium size blame holds) (hs : Keeps p holds m s)
    (ino : UInt32) :
    Op.Ends (v.store below (.sync ino)) s (Answers p holds m a (FileMap.store (.sync ino)))
      (Declines p blame holds m a (FileMap.store (.sync ino))) := by
  obtain ⟨image, hs, rfl⟩ := hs
  exact (hM.sync hs).mono (fun _ _ hafter => ⟨⟨image, hafter, rfl⟩, rfl⟩)
    fun _ _ hbad => .blamed hbad

/-- A request that is no change is answered from the files. -/
theorem look_ends (hM : Medium below v.medium size blame holds) (fits : p.Usable size)
    (hsound : Sound p m a) (hs : Keeps p holds m s) {q : Request} (hq : q.changes = false) :
    Op.Ends (v.store below q) s (Answers p holds m a (FileMap.store q))
      (Declines p blame holds m a (FileMap.store q)) := by
  cases q with
  | capacity => exact capacity_answers hM fits hsound hs
  | size ino => exact size_answers hM fits hsound hs ino
  | read addr => exact read_answers hM fits hsound hs addr
  | sync ino => exact sync_answers hM hs ino
  | _ => cases hq

/-- Every request leaves sound chains, and does to the files what it does
to a map that they match. -/
theorem store_ends (hM : Medium below v.medium size blame holds) (fits : p.Usable size)
    (hsound : Sound p m a) (hs : Keeps p holds m s) (q : Request) :
    Op.Ends (v.store below q) s (Follows p holds m a (FileMap.store q))
      (Refuses p blame holds (Left p q m a) m a (FileMap.store q)) := by
  cases hq : q.changes with
  | false =>
    exact (look_ends hM fits hsound hs hq).mono (fun _ _ h => h.follows hsound)
      fun _ _ h => h.refuses hsound (Left.refl p q m a)
  | true =>
    cases q with
    | resize ino blocks => exact resize_ends hM fits hsound hs ino blocks
    | write addr data =>
      exact write_ends (hM.toPermits.restrict fun _ => hsound.lt_of_opens fits) fits hsound hs data
    | _ => cases hq

end BlockLayers.Fat.Volume
