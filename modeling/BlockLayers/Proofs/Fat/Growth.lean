import BlockLayers.Proofs.Fat.Volume

/-!
# `BlockLayers.Proofs.Fat.Growth`: a file grows

A growth takes entries off the free chain, cuts them off from it, joins
them to the chain of the file and writes the file's record, one write at
a time. After each of these writes the chains are sound, so a growth
that is interrupted at any of them leaves sound chains, and every file
with the entries that it had.

Main statement: `grow_ends`.
-/

set_option autoImplicit false

namespace BlockLayers.Fat

namespace Chains

/-- The chains after entries were taken off the free chain. -/
def shortened (a : Chains) (count : Nat) : Chains := { a with free := a.free.drop count }

/-- The chains while a file takes entries from the free chain. They are
on no chain yet, and the chain of the file may go on anywhere. -/
def growing (a : Chains) (ino : UInt32) (count : Nat) (rest : Link) : Chains :=
  (a.shortened count).setFile ino (a.file ino) rest

/-- The chains after a file has taken entries from the free chain. -/
def grown (a : Chains) (ino : UInt32) (count : Nat) : Chains :=
  (a.shortened count).setFile ino (a.file ino ++ a.free.take count) Link.endMark

/-- Another rest leaves the files as they are. -/
theorem file_setFile (a : Chains) (ino : UInt32) (rest : Link) :
    (a.setFile ino (a.file ino) rest).file = a.file := Function.update_eq_self _ _

/-- A file with the chain that it has. -/
theorem setFile_self (a : Chains) (ino : UInt32) :
    a.setFile ino (a.file ino) (a.rest ino) = a := by
  simp only [setFile, Function.update_eq_self]

/-- As long as the file is not joined to them, its chain goes on as it
did. -/
theorem growing_rest (a : Chains) (ino : UInt32) (count : Nat) :
    a.growing ino count (a.rest ino) = a.shortened count := setFile_self (a.shortened count) ino

/-- While it takes entries a file has those that it had. -/
theorem file_growing (a : Chains) (ino : UInt32) (count : Nat) (rest : Link) :
    (a.growing ino count rest).file = a.file := file_setFile (a.shortened count) ino rest

/-- Of two chains that are set for a file the last counts. -/
theorem setFile_setFile (a : Chains) (ino : UInt32) (chain chain' : List Link) (rest rest' : Link) :
    (a.setFile ino chain rest).setFile ino chain' rest' = a.setFile ino chain' rest' := by
  simp only [setFile, Function.update_idem]

/-- Entries that were taken off the free chain are on no chain. -/
theorem Apart.not_owned_take {a : Chains} {entries : Nat} (h : a.Apart entries) {count : Nat}
    {entry : Link} (hentry : entry ∈ a.free.take count) : ¬ (a.shortened count).Owned entry := by
  have hnodup := h.free_nodup
  rw [← List.take_append_drop count a.free, List.nodup_append] at hnodup
  intro howned
  rcases howned with hfree | ⟨ino, hfile⟩
  · exact hnodup.2.2 entry hentry entry hfree rfl
  · exact h.free_file ino entry (List.mem_of_mem_take hentry) hfile

/-- The entries that a write can reach: those of the file, and those that
the file gains. -/
def reach (a : Chains) (addr : Address) : List Link :=
  a.file addr.ino ++ a.free.take (addr.offset.toNat + 1 - (a.file addr.ino).length)

/-- The places of the medium that a write may write to: the tables, and
the data blocks of the entries that it can reach. -/
def Opens (a : Chains) (p : Plan) (addr : Address) (n : Nat) : Prop :=
  n < p.dataFrom ∨ ∃ entry ∈ a.reach addr, n = p.dataFrom + entry.word.toNat

end Chains

namespace Sound

variable {p : Plan} {m : Catalog} {a : Chains}

/-- A run at the head of the free chain is a chain of its own once the
link of its last entry is the end mark. -/
theorem run_path (h : Sound p m a) {gap : List Link} {last : Link} {count : Nat}
    (hrun : gap ++ [last] = a.free.take count) :
    Path (Function.update m.link last Link.endMark) (gap.headD last) (gap ++ [last])
      Link.endMark := by
  have hfree := h.free_path
  have hnodup := h.apart.free_nodup.sublist (List.take_sublist count a.free)
  rw [← List.take_append_drop count a.free, path_append, ← hrun] at hfree
  rw [← hrun, List.nodup_append] at hnodup
  obtain ⟨mid, htake, -⟩ := hfree
  obtain ⟨hgap, -⟩ := path_concat.mp htake
  -- The links before the last entry are kept, and the last one is the end mark.
  refine path_concat.mpr ⟨?_, Function.update_self _ _ _⟩
  rw [hgap.head_eq] at hgap
  exact hgap.update fun hmem => hnodup.2.2 last hmem last (by simp) rfl

/-- The entries that a write can reach have data blocks. -/
theorem lt_of_mem_reach (h : Sound p m a) {addr : Address} {entry : Link}
    (hentry : entry ∈ a.reach addr) : entry.word.toNat < p.entries.toNat := by
  rcases List.mem_append.mp hentry with hown | htaken
  · exact h.apart.file_lt _ entry hown
  · exact h.apart.free_lt entry (List.mem_of_mem_take htaken)

/-- The places that a write may write to lie on the medium. -/
theorem lt_of_opens (h : Sound p m a) {size : Nat} (fits : p.Usable size) {addr : Address} {n : Nat}
    (hn : a.Opens p addr n) : n < size := by
  rcases hn with htables | ⟨entry, hentry, rfl⟩
  · exact fits.tables_lt n htables
  · have hlt := h.lt_of_mem_reach hentry
    have hsize := fits.size_eq
    omega

/-- The link of an entry that is on no chain does not matter. -/
theorem relinkOne (h : Sound p m a) {entry : Link} (hentry : ¬ a.Owned entry) (link : Link) :
    Sound p { m with link := Function.update m.link entry link } a := by
  refine h.relink fun other hother => ?_
  rw [Function.update_of_ne]
  intro heq
  exact hentry (heq ▸ hother)

/-- The record of a file takes in the entries that were taken off the
free chain and joined to the file's chain. -/
theorem grown {size : Nat} {a₀ : Chains} {ino : UInt32} {gap : Nat} {rest : Link} {record : Record}
    (h : Sound p m (a₀.growing ino (gap + 1) rest)) (fits : p.Usable size)
    (hapart : a₀.Apart p.entries.toNat) (hroom : gap < a₀.free.length)
    (hpath : Path m.link record.head (a₀.file ino ++ a₀.free.take (gap + 1)) Link.endMark)
    (hlength : (a₀.file ino).length + (gap + 1) = record.blocks.toNat) :
    Sound p { m with record := Function.update m.record ino record } (a₀.grown ino (gap + 1)) := by
  have hfile : (a₀.growing ino (gap + 1) rest).file ino = a₀.file ino :=
    Chains.file_setFile_self _ _ _
  -- At least one entry was taken, so the file is not empty afterwards.
  have hne : a₀.free.take (gap + 1) ≠ [] := by
    rw [ne_eq, List.take_eq_nil_iff]
    rintro (hzero | hnil)
    · cases hzero
    · rw [hnil] at hroom
      cases hroom
  have hlt : ∀ entry ∈ a₀.file ino ++ a₀.free.take (gap + 1),
      entry.word.toNat < p.entries.toNat := by
    intro entry hentry
    rcases List.mem_append.mp hentry with hmem | hmem
    · exact hapart.file_lt ino entry hmem
    · exact hapart.free_lt entry (List.mem_of_mem_take hmem)
  -- The chain begins with an entry, and no entry is the end mark.
  have hhead : record.head ≠ Link.endMark := by
    refine hpath.head_ne (by simp [hne]) fun entry hentry hend => ?_
    have hfalse := fits.isEnd_eq_false (Nat.lt_of_lt_of_le (hlt entry hentry) fits.entries_le)
    rw [Link.isEnd_iff.mpr hend] at hfalse
    cases hfalse
  have hgrown := h.extend (hfile ▸ hpath) (by simp [hfile]; omega) hne hhead
    (hapart.free_nodup.sublist (List.take_sublist _ _)) ?_
    (fun entry hentry => hlt entry (List.mem_append_right _ hentry))
  · rw [hfile, Chains.growing, Chains.setFile_setFile] at hgrown
    exact hgrown
  · intro entry hentry howned
    refine hapart.not_owned_take hentry (howned.imp_right ?_)
    rintro ⟨other, hmem⟩
    exact ⟨other, Chains.file_growing a₀ ino _ rest ▸ hmem⟩

end Sound

namespace Volume

variable {σ : Type} [Journal σ] {below : Store σ} {v : Volume} {p : Plan} {size : Nat}
  {blame : Fault → σ → Prop} {holds : σ → (Nat → Block) → Prop} {m : Catalog} {a : Chains}
  {c : Cursor} {medium : UInt32} {s : σ}

/-- The store below holds tables that are sound for the chains, and the
data of a catalog. -/
def Retains (p : Plan) (holds : σ → (Nat → Block) → Prop) (m : Catalog) (a : Chains) (s : σ) :
    Prop :=
  ∃ m', Keeps p holds m' s ∧ Sound p m' a ∧ m'.data = m.data

/-- A run is cut off behind its last entry. -/
theorem cutRun_ends (hP : Permits below medium size (· < p.dataFrom) blame holds)
    (fits : p.Usable size) {run : Run} (hlast : p.HasEntry run.last)
    (hsees : Sees medium p holds m m.link (c, s)) :
    Op.Ends (cutRun below run) (c, s)
      (fun _ after => Sees medium p holds
        { m with link := Function.update m.link run.last Link.endMark }
        (Function.update m.link run.last Link.endMark) after)
      (fun fault after => blame fault after.2 ∧ ∃ kept,
        Keeps p holds { m with link := Function.update m.link run.last kept } after.2) := by
  obtain ⟨image, hm, hreads⟩ := hsees
  refine (Cursor.setNext_ends (fits.tables hP.toLegible) fits.toSpans hreads Link.endMark
    hlast).bind ?_ ?_
  · intro fault after hbad
    refine ⟨hbad.2, m.link run.last, image, hbad.1, ?_⟩
    rw [hm, Function.update_eq_self]
  · intro _ after hafter
    exact flush_ends_one hP.takes fits.toSpans ⟨image, hm, hafter⟩

/-- A run that is on no chain is joined to the end of a file, whose
record is not written yet. -/
theorem joinRun_ends (hP : Permits below medium size (· < p.dataFrom) blame holds)
    (fits : p.Usable size) (hsound : Sound p m a) {ino : UInt32} {run : Run}
    (hpath : Path m.link run.first (run.gap ++ [run.last]) Link.endMark)
    (hrun : ∀ entry ∈ run.gap ++ [run.last], ¬ a.Owned entry)
    (hsees : Sees medium p holds m m.link (c, s)) :
    Op.Ends (joinRun below (m.record ino).head (a.file ino).getLast? run) (c, s)
      (fun head after => ∃ link rest, Sees medium p holds { m with link := link } link after ∧
        Sound p { m with link := link } (a.setFile ino (a.file ino) rest) ∧
        Path link head (a.file ino ++ (run.gap ++ [run.last])) Link.endMark)
      (fun fault after => blame fault after.2 ∧
        ∃ rest, Retains p holds m (a.setFile ino (a.file ino) rest) after.2) := by
  cases hlast : (a.file ino).getLast? with
  | none =>
    -- The file is empty, and the run will be all of it.
    have hnil : a.file ino = [] := List.getLast?_eq_none_iff.mp hlast
    refine Op.Ends.pure ⟨m.link, a.rest ino, hsees, ?_, ?_⟩
    · rw [Chains.setFile_self]
      exact hsound
    · rw [hnil]
      exact hpath
  | some tail =>
    -- The last entry of the file leads to the run from now on.
    obtain ⟨front, hfront⟩ := List.getLast?_eq_some_iff.mp hlast
    have htail : tail ∈ a.file ino := by simp [hfront]
    obtain ⟨image, hm, hreads⟩ := hsees
    refine (Cursor.setNext_ends (fits.tables hP.toLegible) fits.toSpans hreads run.first
      (hsound.hasEntry_file fits htail)).bind ?_ ?_
    · intro fault after hbad
      refine ⟨hbad.2, a.rest ino, m, ⟨image, hbad.1, hm⟩, ?_, rfl⟩
      rw [Chains.setFile_self]
      exact hsound
    intro _ after hafter
    refine (flush_ends_one hP.takes fits.toSpans ⟨image, hm, hafter⟩).bind ?_ ?_
    · intro fault after' hbad
      obtain ⟨hblame, kept, hkeeps⟩ := hbad
      exact ⟨hblame, kept, _, hkeeps, hsound.join kept hfront, rfl⟩
    · intro _ after' hafter'
      have hjoin := hsound.join run.first hfront
      refine Op.Ends.pure ⟨_, run.first, hafter', hjoin, path_append.mpr ⟨run.first, ?_, ?_⟩⟩
      · have hfile := hjoin.file_path ino
        rw [Chains.file_setFile_self, Chains.rest_setFile_self] at hfile
        exact hfile
      · exact hpath.update fun hmem => hrun tail hmem (.inr ⟨ino, htail⟩)

/-- The numbers of a growth by `gap` blocks and one more. The new size is
a word, as the offset is not the last one. -/
theorem growth_sizes {offset blocks : UInt32} {gap : Nat}
    (hgap : offset.toNat = blocks.toNat + gap) (hmax : offset ≠ 0xffffffff) :
    (offset + 1).toNat = offset.toNat + 1 ∧ (offset - blocks).toNat = gap ∧
      Checked.sub (offset + 1) blocks = .ok (offset + 1 - blocks) := by
  have hnext : (offset + 1).toNat = offset.toNat + 1 := by
    have hlt := offset.toNat_lt
    have hne : offset.toNat ≠ 4294967295 := fun heq => hmax (UInt32.toNat_inj.mp heq)
    exact Checked.toNat_succ (by omega)
  -- The file ends before the block, so that neither difference is negative.
  refine ⟨hnext, ?_, ?_⟩
  · rw [UInt32.toNat_sub_of_le _ _ (UInt32.le_iff_toNat_le.mpr (by omega))]
    omega
  · rw [Checked.sub_eq_ok_iff, UInt32.toNat_sub_of_le _ _ (UInt32.le_iff_toNat_le.mpr (by omega))]
    omega

/-- A file that has room grows, and one that has none is left as it is.
An interrupted growth changes no file, and the free chain has lost what
the file was to gain, or nothing. -/
theorem grow_ends (hP : Permits below v.medium size (· < p.dataFrom) blame holds)
    (fits : p.Usable size) (hsound : Sound p m a) {l : Located} {ino : UInt32} (hl : l.Of p m ino)
    (hino : p.HasFile ino) {offset : UInt32} {gap : Nat}
    (hgap : offset.toNat = l.record.blocks.toNat + gap) (hmax : offset ≠ 0xffffffff)
    (hsees : Sees v.medium p holds m m.link (c, s)) :
    Op.Ends (v.grow below l offset) (c, s)
      (fun run after => gap < a.free.length ∧ run.gap ++ [run.last] = a.free.take (gap + 1) ∧
        Retains p holds m (a.grown ino (gap + 1)) after.2)
      (fun fault after => blame fault after.2 ∧ (Retains p holds m a after.2 ∨
          gap < a.free.length ∧ ∃ rest, Retains p holds m (a.growing ino (gap + 1) rest) after.2) ∨
        fault = .noSpace ∧ a.free.length ≤ gap ∧ Keeps p holds m after.2) := by
  obtain ⟨hnext, hwanted, hsub⟩ := growth_sizes hgap hmax
  obtain ⟨image, rfl, hreads⟩ := hsees
  have hspared : ∀ {fault : Fault} {after : Cursor × σ}, Cursor.Spoils blame holds image fault
      after → blame fault after.2 ∧ Retains p holds (p.catalog image) a after.2 :=
    fun hbad => ⟨hbad.2, _, ⟨image, hbad.1, rfl⟩, hsound, rfl⟩
  refine Op.Ends.lift_seq hsub ?_
  rw [hwanted, hl.superblock_eq]
  -- Until the run and the end of the file are known nothing is written.
  refine (takeRun_ends hP.toLegible fits _ hsound.free_path
    (fun _ h => hsound.hasEntry_free fits h) gap hreads).bind ?_ ?_
  · intro fault after hbad
    obtain ⟨hs, hblame | ⟨hshort, hfault⟩⟩ := hbad
    · exact .inl ((hspared ⟨hs, hblame⟩).imp_right .inl)
    · exact .inr ⟨hfault, hshort, image, hs, rfl⟩
  intro run state hrun
  obtain ⟨c₁, s₁⟩ := state
  obtain ⟨hroom, htake, hrest, hreads₁⟩ := hrun
  refine (tailOf_ends hP.toLegible fits (hl.record_eq ▸ hsound.file_path ino)
    (fun _ h => hsound.hasEntry_file fits h) (hl.record_eq ▸ hsound.length_eq ino) hreads₁).bind
    (fun _ _ hbad => .inl ((hspared hbad).imp_right .inl)) ?_
  intro tail state htail
  obtain ⟨c₂, s₂⟩ := state
  obtain ⟨rfl, hreads₂⟩ := htail
  have htaken : ∀ entry ∈ run.gap ++ [run.last], ¬ (a.shortened (gap + 1)).Owned entry := by
    rw [htake]
    exact fun _ => hsound.apart.not_owned_take
  have hlt : ∀ entry ∈ run.gap ++ [run.last], entry.word.toNat < p.entries.toNat := by
    rw [htake]
    exact fun entry hentry => hsound.apart.free_lt entry (List.mem_of_mem_take hentry)
  have hin : run.last ∈ run.gap ++ [run.last] := List.mem_append_right _ (List.mem_singleton_self _)
  have hlast : p.HasEntry run.last := Nat.lt_of_lt_of_le (hlt _ hin) fits.entries_le
  rw [hrest]
  -- The superblock goes first: from then on the run is on no chain.
  refine (writeSuperblock_ends hP.takes _ ⟨image, rfl, hreads₂⟩).bind ?_ ?_
  · intro fault after hbad
    exact .inl ⟨hbad.2, .inl ⟨_, hbad.1, hsound, rfl⟩⟩
  intro _ state hsees₃
  obtain ⟨c₃, s₃⟩ := state
  have hsound₃ := hsound.takeOff (gap + 1)
  -- The run is cut off behind its end, and then the file leads to it.
  refine (cutRun_ends hP fits hlast hsees₃).bind ?_ ?_
  · intro fault after hbad
    obtain ⟨hblame, kept, hkeeps⟩ := hbad
    refine .inl ⟨hblame, .inr ⟨hroom, a.rest ino, _, hkeeps, ?_, rfl⟩⟩
    rw [Chains.growing_rest]
    exact hsound₃.relinkOne (htaken _ hin) kept
  intro _ state hsees₄
  obtain ⟨c₄, s₄⟩ := state
  have hsound₄ := hsound₃.relinkOne (htaken _ hin) Link.endMark
  rw [hl.record_eq]
  refine (joinRun_ends hP fits hsound₄ (hsound.run_path htake) htaken hsees₄).bind
    (fun _ _ hbad => .inl (hbad.imp_right fun hspared => .inr ⟨hroom, hspared⟩)) ?_
  intro head state hhead
  obtain ⟨c₅, s₅⟩ := state
  obtain ⟨link, rest, hsees₅, hsound₅, hpath⟩ := hhead
  refine Op.Ends.note_seq ?_
  -- Only the record makes the run a part of the file.
  refine (writeRecord_ends hP.takes hl hino ?_ ⟨head, offset + 1⟩
    (hsees₅.note hP.toDiscloses _)).bind ?_ ?_
  · rfl
  · intro fault after hbad
    exact .inl ⟨hbad.2, .inr ⟨hroom, rest, _, hbad.1, hsound₅, rfl⟩⟩
  intro _ after hafter
  refine Op.Ends.pure ⟨hroom, htake, _, hafter.keeps, ?_, rfl⟩
  rw [htake] at hpath
  refine hsound₅.grown fits hsound.apart hroom hpath ?_
  rw [hsound.length_eq, ← hl.record_eq]
  exact (hnext.trans (by omega)).symm

end Volume

end BlockLayers.Fat
