import BlockLayers.Proofs.Fat.Chains
import Mathlib.Algebra.GroupWithZero.Nat
import Mathlib.Data.List.Nodup
import Mathlib.Data.List.Perm.Subperm

/-!
# `BlockLayers.Proofs.Fat.Partition`: chains that divide the entries

The tables of a file system are in order when every chain comes to an
end, every file has as many entries as its record says, and the chains
divide the entries among them: each entry that has a data block is on
exactly one chain, once (`Chains.Whole`).

A count goes through the chains one after the other, so the same is said
of the free chain and the first files alone (`Chains.Tidy`). Following
the links from a head meets one chain only (`Path.unique`). Hence there
is at most one way to see the tables in order, and a count that meets a
contradiction shows that there is none.

Main statements: `Tidy.extend` (one more file), `Tidy.upTo_eq` (there is
one way only) and `whole_iff` (all entries are on the chains when there
are as many of them).
-/

set_option autoImplicit false

namespace BlockLayers.Fat

/-- The entries that have a data block, in order. -/
def Plan.allEntries (p : Plan) : List Link :=
  (List.range p.entries.toNat).map fun i => ⟨UInt32.ofNat i⟩

/-- The entries that have a data block are those whose number is small
enough. -/
theorem Plan.mem_allEntries {p : Plan} {entry : Link} :
    entry ∈ p.allEntries ↔ entry.word.toNat < p.entries.toNat := by
  have hlt := p.entries.toNat_lt
  simp only [allEntries, List.mem_map, List.mem_range]
  constructor
  · rintro ⟨i, hi, rfl⟩
    rwa [UInt32.toNat_ofNat_of_lt' (show i < 4294967296 by omega)]
  · intro hentry
    exact ⟨entry.word.toNat, hentry, by simp⟩

/-- No entry is listed twice. -/
theorem Plan.nodup_allEntries (p : Plan) : p.allEntries.Nodup := by
  have hlt := p.entries.toNat_lt
  refine List.Nodup.map_on (fun i hi j hj heq => ?_) List.nodup_range
  rw [List.mem_range] at hi hj
  have hnat := congrArg (fun entry => entry.word.toNat) heq
  simp only at hnat
  rwa [UInt32.toNat_ofNat_of_lt' (show i < 4294967296 by omega),
    UInt32.toNat_ofNat_of_lt' (show j < 4294967296 by omega)] at hnat

/-- There are as many entries as the plan has. -/
theorem Plan.length_allEntries (p : Plan) : p.allEntries.length = p.entries.toNat := by
  simp [allEntries]

/-- Different entries with data blocks are no more than there are. -/
theorem Plan.length_le {p : Plan} {entries : List Link} (hnodup : entries.Nodup)
    (hlt : ∀ entry ∈ entries, entry.word.toNat < p.entries.toNat) :
    entries.length ≤ p.entries.toNat := by
  rw [← p.length_allEntries]
  exact (List.subperm_of_subset hnodup fun entry hentry =>
    Plan.mem_allEntries.mpr (hlt entry hentry)).length_le

/-- The number of blocks that the records of the first `n` files tell. -/
def Catalog.usedBelow (m : Catalog) (n : Nat) : Nat :=
  ((List.range n).map fun i => (m.record (UInt32.ofNat i)).blocks.toNat).sum

/-- The blocks of one more file. -/
theorem Catalog.usedBelow_succ (m : Catalog) (n : Nat) :
    m.usedBelow (n + 1) = m.usedBelow n + (m.record (UInt32.ofNat n)).blocks.toNat := by
  simp [usedBelow, List.range_succ]

namespace Chains

/-- The entries of the free chain and of the first `n` files. -/
def upTo (a : Chains) (n : Nat) : List Link :=
  a.free ++ (List.range n).flatMap fun i => a.file (UInt32.ofNat i)

/-- The entries of one more file. -/
theorem upTo_succ (a : Chains) (n : Nat) :
    a.upTo (n + 1) = a.upTo n ++ a.file (UInt32.ofNat n) := by
  rw [upTo, List.range_succ, List.flatMap_append, ← List.append_assoc, List.flatMap_singleton]
  rfl

/-- Fewer files have some of the entries. -/
theorem upTo_sublist (a : Chains) {n k : Nat} (h : k ≤ n) :
    (a.upTo k).Sublist (a.upTo n) := by
  induction h with
  | refl => exact List.Sublist.refl _
  | step _ ih =>
    rw [upTo_succ]
    exact ih.trans (List.sublist_append_left _ _)

/-- The free chain and the chains of the first `n` files are in order:
they come to an end, the files have as many entries as their records
tell, no entry is met twice, and every entry has a data block and a
link. -/
structure Tidy (p : Plan) (m : Catalog) (a : Chains) (n : Nat) : Prop where
  free_path : Path m.link m.superblock.freeHead a.free Link.endMark
  file_path : ∀ i < n, Path m.link (m.record (UInt32.ofNat i)).head (a.file (UInt32.ofNat i))
    Link.endMark
  length_eq : ∀ i < n, (a.file (UInt32.ofNat i)).length =
    (m.record (UInt32.ofNat i)).blocks.toNat
  nodup : (a.upTo n).Nodup
  hasBlock : ∀ entry ∈ a.upTo n, entry.word.toNat < p.entries.toNat
  hasEntry : ∀ entry ∈ a.upTo n, p.HasEntry entry

/-- The tables are in order: every chain comes to an end, every file has
as many entries as its record tells, every entry on a chain has a link,
and each entry that has a data block is on exactly one chain, once. -/
structure Whole (p : Plan) (m : Catalog) (a : Chains) : Prop where
  free_path : Path m.link m.superblock.freeHead a.free Link.endMark
  file_path : ∀ ino, p.HasFile ino → Path m.link (m.record ino).head (a.file ino) Link.endMark
  length_eq : ∀ ino, p.HasFile ino → (a.file ino).length = (m.record ino).blocks.toNat
  hasEntry : ∀ entry ∈ a.upTo (64 * p.recordBlocks.toNat), p.HasEntry entry
  each_once : (a.upTo (64 * p.recordBlocks.toNat)).Perm p.allEntries

variable {p : Plan} {m : Catalog} {a a' : Chains} {n k size : Nat}

namespace Tidy

/-- The first of these files are in order. -/
theorem mono (h : Tidy p m a n) (hk : k ≤ n) : Tidy p m a k where
  free_path := h.free_path
  file_path i hi := h.file_path i (Nat.lt_of_lt_of_le hi hk)
  length_eq i hi := h.length_eq i (Nat.lt_of_lt_of_le hi hk)
  nodup := h.nodup.sublist (a.upTo_sublist hk)
  hasBlock entry hentry := h.hasBlock entry ((a.upTo_sublist hk).subset hentry)
  hasEntry entry hentry := h.hasEntry entry ((a.upTo_sublist hk).subset hentry)

/-- The end mark is on no chain. -/
theorem endMark_not_mem (h : Tidy p m a n) (spans : p.Spans size) :
    Link.endMark ∉ a.upTo n := by
  intro hmem
  have hend := spans.isEnd_eq_false (h.hasEntry _ hmem)
  cases hend.symm.trans (Link.isEnd_iff.mpr rfl)

/-- Two ways to see chains in order have the same free chain. -/
theorem free_eq (h : Tidy p m a n) (h' : Tidy p m a' k) (spans : p.Spans size) :
    a.free = a'.free :=
  h.free_path.unique h'.free_path
    (fun hmem => h.endMark_not_mem spans (List.mem_append_left _ hmem))
    fun hmem => h'.endMark_not_mem spans (List.mem_append_left _ hmem)

/-- Two ways to see chains in order have the same chain for a file. -/
theorem file_eq (h : Tidy p m a n) (h' : Tidy p m a' n) (spans : p.Spans size) {i : Nat}
    (hi : i < n) : a.file (UInt32.ofNat i) = a'.file (UInt32.ofNat i) := by
  have hmem : ∀ {b : Chains} {entry : Link}, entry ∈ b.file (UInt32.ofNat i) → entry ∈ b.upTo n :=
    fun hentry => List.mem_append_right _
      (List.mem_flatMap.mpr ⟨i, List.mem_range.mpr hi, hentry⟩)
  exact (h.file_path i hi).unique (h'.file_path i hi)
    (fun hend => h.endMark_not_mem spans (hmem hend))
    fun hend => h'.endMark_not_mem spans (hmem hend)

/-- There is only one way to see the chains in order. -/
theorem upTo_eq (h : Tidy p m a n) (h' : Tidy p m a' n) (spans : p.Spans size) :
    a.upTo n = a'.upTo n := by
  rw [upTo, upTo, h.free_eq h' spans]
  congr 1
  exact List.flatMap_congr fun i hi => h.file_eq h' spans (List.mem_range.mp hi)

/-- There are as many entries as those of the free chain and those that
the records tell. -/
theorem length_upTo (h : Tidy p m a n) : (a.upTo n).length = a.free.length + m.usedBelow n := by
  -- By induction on the files, each of which has the entries that its record tells.
  induction n with
  | zero => simp [upTo, Catalog.usedBelow]
  | succ n ih =>
    rw [upTo_succ, List.length_append, ih (h.mono (Nat.le_succ n)), Catalog.usedBelow_succ,
      h.length_eq n (Nat.lt_succ_self n), Nat.add_assoc]

/-- A chain that can be the chain of the next file. -/
theorem extend (h : Tidy p m a n) (hn : n < 4294967296) {chain : List Link}
    (hpath : Path m.link (m.record (UInt32.ofNat n)).head chain Link.endMark)
    (hlength : chain.length = (m.record (UInt32.ofNat n)).blocks.toNat)
    (hnodup : (a.upTo n ++ chain).Nodup)
    (hblock : ∀ entry ∈ chain, entry.word.toNat < p.entries.toNat)
    (hentry : ∀ entry ∈ chain, p.HasEntry entry) :
    ∃ a', Tidy p m a' (n + 1) ∧ a'.upTo (n + 1) = a.upTo n ++ chain := by
  have hne : ∀ i < n, UInt32.ofNat i ≠ UInt32.ofNat n := by
    intro i hi heq
    have hnat := congrArg UInt32.toNat heq
    rw [UInt32.toNat_ofNat_of_lt' (show i < 4294967296 by omega),
      UInt32.toNat_ofNat_of_lt' hn] at hnat
    omega
  -- The files before keep their chains, and the new one comes behind them.
  have hold : ∀ i < n, (a.setFile (UInt32.ofNat n) chain Link.endMark).file (UInt32.ofNat i) =
      a.file (UInt32.ofNat i) := fun i hi => file_setFile_of_ne _ _ (hne i hi)
  have hnew : (a.setFile (UInt32.ofNat n) chain Link.endMark).file (UInt32.ofNat n) = chain :=
    file_setFile_self _ _ _
  have hupTo : (a.setFile (UInt32.ofNat n) chain Link.endMark).upTo (n + 1) =
      a.upTo n ++ chain := by
    rw [upTo_succ, hnew]
    congr 1
    exact congrArg (a.free ++ ·) (List.flatMap_congr fun i hi => hold i (List.mem_range.mp hi))
  refine ⟨a.setFile (UInt32.ofNat n) chain Link.endMark, ⟨h.free_path, fun i hi => ?_,
    fun i hi => ?_, hupTo ▸ hnodup, ?_, ?_⟩, hupTo⟩
  · rcases Nat.lt_succ_iff_lt_or_eq.mp hi with hlt | rfl
    · rw [hold i hlt]
      exact h.file_path i hlt
    · rw [hnew]
      exact hpath
  · rcases Nat.lt_succ_iff_lt_or_eq.mp hi with hlt | rfl
    · rw [hold i hlt]
      exact h.length_eq i hlt
    · rw [hnew]
      exact hlength
  · intro entry hmem
    rw [hupTo] at hmem
    exact (List.mem_append.mp hmem).elim (h.hasBlock entry) (hblock entry)
  · intro entry hmem
    rw [hupTo] at hmem
    exact (List.mem_append.mp hmem).elim (h.hasEntry entry) (hentry entry)

end Tidy

/-- The chains of all files are in order and have as many entries as
there are exactly when the tables are in order. -/
theorem whole_iff (hfiles : 64 * p.recordBlocks.toNat < 4294967296) :
    Whole p m a ↔ Tidy p m a (64 * p.recordBlocks.toNat) ∧
      (a.upTo (64 * p.recordBlocks.toNat)).length = p.entries.toNat := by
  have hfile : ∀ i < 64 * p.recordBlocks.toNat, p.HasFile (UInt32.ofNat i) := by
    intro i hi
    show (UInt32.ofNat i).toNat < _
    rwa [UInt32.toNat_ofNat_of_lt' (show i < 4294967296 by omega)]
  have hino : ∀ ino : UInt32, UInt32.ofNat ino.toNat = ino := fun ino => by simp
  constructor
  · intro h
    refine ⟨⟨h.free_path, fun i hi => h.file_path _ (hfile i hi),
      fun i hi => h.length_eq _ (hfile i hi), h.each_once.nodup_iff.mpr p.nodup_allEntries,
      fun entry hentry => Plan.mem_allEntries.mp (h.each_once.mem_iff.mp hentry), h.hasEntry⟩, ?_⟩
    rw [h.each_once.length_eq, p.length_allEntries]
  · rintro ⟨h, hlength⟩
    refine ⟨h.free_path, fun ino hhas => ?_, fun ino hhas => ?_, h.hasEntry, ?_⟩
    · have hpath := h.file_path ino.toNat hhas
      rwa [hino] at hpath
    · have hcount := h.length_eq ino.toNat hhas
      rwa [hino] at hcount
    · -- Distinct entries, as many as there are, are all of them.
      have hsubset : a.upTo (64 * p.recordBlocks.toNat) ⊆ p.allEntries :=
        fun entry hentry => Plan.mem_allEntries.mpr (h.hasBlock entry hentry)
      exact (List.subperm_of_subset h.nodup hsubset).perm_of_length_le
        (Nat.le_of_eq (p.length_allEntries.trans hlength.symm))

end Chains

end BlockLayers.Fat
