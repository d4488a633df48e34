import BlockLayers.Proofs.Fat.Catalog
import BlockLayers.Proofs.Fat.Path

/-!
# `BlockLayers.Proofs.Fat.Chains`: which entry is on which chain

`Chains` names the entries of the free chain and of the chain of every
file, and `Sound` says that a catalog has these chains and that no entry
is on two of them. A file's chain may go on behind the file
(`Chains.rest`), and an entry may be on no chain at all: both happen
when an operation is interrupted, and neither lets two files share an
entry.

An operation changes the tables by one write at a time. Each kind of
write has its lemma, which names the chains after it: `Sound.takeOff`
and `Sound.giveBack` for the superblock, `Sound.relink` and `Sound.join`
for the table, `Sound.extend` and `Sound.clear` for a record. A
growth and a release are sequences of these, so their halves are sound
too.
-/

set_option autoImplicit false

namespace BlockLayers.Fat

/-- The entries of a file system by the chain that they are on. -/
structure Chains where
  /-- The entries of the free chain, in order. -/
  free : List Link
  /-- The entries of each file, in order. -/
  file : UInt32 → List Link
  /-- Where the chain of each file goes on behind the file. -/
  rest : UInt32 → Link

namespace Chains

/-- No entry is on two chains or twice on one, and every entry has a
data block. -/
structure Apart (a : Chains) (entries : Nat) : Prop where
  free_nodup : a.free.Nodup
  file_nodup : ∀ ino, (a.file ino).Nodup
  free_file : ∀ ino, ∀ entry ∈ a.free, entry ∉ a.file ino
  file_file : ∀ ino other, ino ≠ other → ∀ entry ∈ a.file ino, entry ∉ a.file other
  free_lt : ∀ entry ∈ a.free, entry.word.toNat < entries
  file_lt : ∀ ino, ∀ entry ∈ a.file ino, entry.word.toNat < entries

/-- The entry is on a chain. -/
def Owned (a : Chains) (entry : Link) : Prop := entry ∈ a.free ∨ ∃ ino, entry ∈ a.file ino

/-- The blocks of a file. -/
def blocks (a : Chains) (m : Catalog) (ino : UInt32) : List Block := (a.file ino).map m.data

/-- The chains with another chain of a file. -/
def setFile (a : Chains) (ino : UInt32) (chain : List Link) (rest : Link) : Chains where
  free := a.free
  file := Function.update a.file ino chain
  rest := Function.update a.rest ino rest

variable {a : Chains} {entries : Nat}

/-- The file that was set has the chain that it was set to. -/
theorem file_setFile_self (ino : UInt32) (chain : List Link) (rest : Link) :
    (a.setFile ino chain rest).file ino = chain := Function.update_self _ _ _

/-- Other files keep their entries. -/
theorem file_setFile_of_ne {ino other : UInt32} (chain : List Link) (rest : Link)
    (h : other ≠ ino) : (a.setFile ino chain rest).file other = a.file other :=
  Function.update_of_ne h _ _

/-- The chain that was set goes on where it was set to. -/
theorem rest_setFile_self (ino : UInt32) (chain : List Link) (rest : Link) :
    (a.setFile ino chain rest).rest ino = rest := Function.update_self _ _ _

/-- The chains of other files go on where they did. -/
theorem rest_setFile_of_ne {ino other : UInt32} (chain : List Link) (rest : Link)
    (h : other ≠ ino) : (a.setFile ino chain rest).rest other = a.rest other :=
  Function.update_of_ne h _ _

/-- What the data blocks of free entries hold does not matter to any
file. -/
theorem Apart.blocks_congr (h : a.Apart entries) {m m' : Catalog}
    (hsame : ∀ entry, entry ∉ a.free → m'.data entry = m.data entry) (ino : UInt32) :
    a.blocks m' ino = a.blocks m ino :=
  List.map_congr_left fun entry hentry =>
    hsame entry fun hfree => h.free_file ino entry hfree hentry

/-- A shorter free chain. -/
theorem Apart.dropFree (h : a.Apart entries) (count : Nat) :
    Apart { a with free := a.free.drop count } entries where
  free_nodup := h.free_nodup.sublist (List.drop_sublist _ _)
  file_nodup := h.file_nodup
  free_file ino entry hentry := h.free_file ino entry (List.mem_of_mem_drop hentry)
  file_file := h.file_file
  free_lt entry hentry := h.free_lt entry (List.mem_of_mem_drop hentry)
  file_lt := h.file_lt

/-- Entries that are on no chain join the free chain. -/
theorem Apart.addFree (h : a.Apart entries) {run : List Link} (hnodup : run.Nodup)
    (hrun : ∀ entry ∈ run, ¬ a.Owned entry) (hlt : ∀ entry ∈ run, entry.word.toNat < entries) :
    Apart { a with free := run ++ a.free } entries where
  free_nodup := List.nodup_append.mpr ⟨hnodup, h.free_nodup,
    fun entry hentry other hother heq => hrun entry hentry (.inl (heq ▸ hother))⟩
  file_nodup := h.file_nodup
  free_file ino entry hentry hfile := by
    rcases List.mem_append.mp hentry with hmem | hmem
    · exact hrun entry hmem (.inr ⟨ino, hfile⟩)
    · exact h.free_file ino entry hmem hfile
  file_file := h.file_file
  free_lt entry hentry := (List.mem_append.mp hentry).elim (hlt entry) (h.free_lt entry)
  file_lt := h.file_lt

/-- A file has other entries: some of its own and some that are on no
chain. -/
theorem Apart.setFile (h : a.Apart entries) {ino : UInt32} {chain : List Link} (rest : Link)
    (hnodup : chain.Nodup) (hchain : ∀ entry ∈ chain, entry ∈ a.file ino ∨ ¬ a.Owned entry)
    (hlt : ∀ entry ∈ chain, entry.word.toNat < entries) :
    (a.setFile ino chain rest).Apart entries := by
  -- The new entries were the file's own or nobody's, so no other file has one of them.
  have hout : ∀ other, other ≠ ino → ∀ entry ∈ a.file other, entry ∉ chain := by
    intro other hother entry hmem hin
    rcases hchain entry hin with hown | hnone
    · exact h.file_file other ino hother entry hmem hown
    · exact hnone (.inr ⟨other, hmem⟩)
  constructor
  case free_nodup => exact h.free_nodup
  case free_lt => exact h.free_lt
  case file_nodup =>
    intro other
    by_cases hother : other = ino
    · rw [hother, file_setFile_self]
      exact hnodup
    · rw [file_setFile_of_ne _ _ hother]
      exact h.file_nodup other
  case free_file =>
    intro other entry hfree
    by_cases hother : other = ino
    · rw [hother, file_setFile_self]
      intro hfile
      rcases hchain entry hfile with hown | hnone
      · exact h.free_file ino entry hfree hown
      · exact hnone (.inl hfree)
    · rw [file_setFile_of_ne _ _ hother]
      exact h.free_file other entry hfree
  case file_file =>
    intro first second hne entry
    -- Two files: either one may be the file that was set, but not both.
    by_cases hfirst : first = ino
    · subst hfirst
      rw [file_setFile_self, file_setFile_of_ne _ _ hne.symm]
      exact fun hin hmem => hout second hne.symm entry hmem hin
    · rw [file_setFile_of_ne _ _ hfirst]
      by_cases hsecond : second = ino
      · rw [hsecond, file_setFile_self]
        exact hout first hfirst entry
      · rw [file_setFile_of_ne _ _ hsecond]
        exact h.file_file first second hne entry
  case file_lt =>
    intro other entry
    by_cases hother : other = ino
    · rw [hother, file_setFile_self]
      exact hlt entry
    · rw [file_setFile_of_ne _ _ hother]
      exact h.file_lt other entry

end Chains

/-- The tables have the given chains. The free chain is whole; of a
file's chain it is known that it begins with the entries of the file. -/
structure Sound (p : Plan) (m : Catalog) (a : Chains) : Prop where
  recordBlocks_eq : m.superblock.recordBlocks = p.recordBlocks
  tableBlocks_eq : m.superblock.tableBlocks = p.tableBlocks
  apart : a.Apart p.entries.toNat
  free_path : Path m.link m.superblock.freeHead a.free Link.endMark
  file_path : ∀ ino, Path m.link (m.record ino).head (a.file ino) (a.rest ino)
  length_eq : ∀ ino, (a.file ino).length = (m.record ino).blocks.toNat
  head_eq : ∀ ino, (m.record ino).head = Link.endMark ↔ (m.record ino).blocks = 0

namespace Sound

variable {p : Plan} {m : Catalog} {a : Chains} {size : Nat}

/-- An entry of a file has a place in the table. -/
theorem hasEntry_file (h : Sound p m a) (fits : p.Usable size) {ino : UInt32} {entry : Link}
    (hentry : entry ∈ a.file ino) : p.HasEntry entry :=
  Nat.lt_of_lt_of_le (h.apart.file_lt ino entry hentry) fits.entries_le

/-- An entry of the free chain has a place in the table. -/
theorem hasEntry_free (h : Sound p m a) (fits : p.Usable size) {entry : Link}
    (hentry : entry ∈ a.free) : p.HasEntry entry :=
  Nat.lt_of_lt_of_le (h.apart.free_lt entry hentry) fits.entries_le

/-- The data blocks do not matter. -/
theorem withData (h : Sound p m a) (data : Link → Block) : Sound p { m with data := data } a :=
  ⟨h.recordBlocks_eq, h.tableBlocks_eq, h.apart, h.free_path, h.file_path, h.length_eq, h.head_eq⟩

/-- The superblock takes a run off the free chain; the run is then on no
chain. -/
theorem takeOff (h : Sound p m a) (count : Nat) :
    Sound p { m with superblock :=
                { m.superblock with freeHead := (a.free.drop count).headD Link.endMark } }
      { a with free := a.free.drop count } where
  recordBlocks_eq := h.recordBlocks_eq
  tableBlocks_eq := h.tableBlocks_eq
  apart := h.apart.dropFree count
  free_path := by
    -- The free chain is cut in two, and its second part is a chain of its own.
    have hfree := h.free_path
    rw [← List.take_append_drop count a.free, path_append] at hfree
    obtain ⟨mid, -, hdrop⟩ := hfree
    rw [hdrop.head_eq] at hdrop
    exact hdrop
  file_path := h.file_path
  length_eq := h.length_eq
  head_eq := h.head_eq

/-- The links of entries that are on no chain do not matter. -/
theorem relink (h : Sound p m a) {link : Link → Link}
    (hlink : ∀ entry, a.Owned entry → m.link entry = link entry) :
    Sound p { m with link := link } a where
  recordBlocks_eq := h.recordBlocks_eq
  tableBlocks_eq := h.tableBlocks_eq
  apart := h.apart
  free_path := h.free_path.congr fun entry hentry => hlink entry (.inl hentry)
  file_path ino := (h.file_path ino).congr fun entry hentry => hlink entry (.inr ⟨ino, hentry⟩)
  length_eq := h.length_eq
  head_eq := h.head_eq

/-- The link of the last entry of a file only matters for where the
chain goes on. -/
theorem join (h : Sound p m a) {ino : UInt32} {front : List Link} {tail : Link} (first : Link)
    (hfile : a.file ino = front ++ [tail]) :
    Sound p { m with link := Function.update m.link tail first }
      (a.setFile ino (a.file ino) first) where
  recordBlocks_eq := h.recordBlocks_eq
  tableBlocks_eq := h.tableBlocks_eq
  apart := h.apart.setFile first (h.apart.file_nodup ino) (fun _ hentry => .inl hentry)
    (h.apart.file_lt ino)
  free_path := h.free_path.update fun hfree =>
    h.apart.free_file ino tail hfree (by simp [hfile])
  file_path other := by
    by_cases hother : other = ino
    · -- The last entry stands only at the end of its file, so the path to it is kept.
      subst hother
      have hpath := h.file_path other
      have hnodup := h.apart.file_nodup other
      rw [hfile, path_concat] at hpath
      rw [hfile, List.nodup_append] at hnodup
      rw [Chains.file_setFile_self, Chains.rest_setFile_self, hfile, path_concat]
      exact ⟨hpath.1.update fun hmem => hnodup.2.2 tail hmem tail (by simp) rfl,
        Function.update_self _ _ _⟩
    · rw [Chains.file_setFile_of_ne _ _ hother, Chains.rest_setFile_of_ne _ _ hother]
      exact (h.file_path other).update fun hmem =>
        h.apart.file_file ino other (Ne.symm hother) tail (by simp [hfile]) hmem
  length_eq other := by
    by_cases hother : other = ino
    · rw [hother, Chains.file_setFile_self]
      exact h.length_eq ino
    · rw [Chains.file_setFile_of_ne _ _ hother]
      exact h.length_eq other
  head_eq := h.head_eq

/-- A record that is right for other entries of its file. -/
theorem setRecord (h : Sound p m a) {ino : UInt32} {chain : List Link} {record : Record}
    {stop : Link} (hpath : Path m.link record.head chain stop)
    (hlength : chain.length = record.blocks.toNat)
    (hhead : record.head = Link.endMark ↔ record.blocks = 0)
    (hapart : (a.setFile ino chain stop).Apart p.entries.toNat) :
    Sound p { m with record := Function.update m.record ino record }
      (a.setFile ino chain stop) where
  recordBlocks_eq := h.recordBlocks_eq
  tableBlocks_eq := h.tableBlocks_eq
  apart := hapart
  free_path := h.free_path
  file_path other := by
    -- The record of the file is the new one, and no other record has changed.
    by_cases hother : other = ino
    · rw [hother, Chains.file_setFile_self, Chains.rest_setFile_self]
      simpa using hpath
    · rw [Chains.file_setFile_of_ne _ _ hother, Chains.rest_setFile_of_ne _ _ hother]
      simpa [hother] using h.file_path other
  length_eq other := by
    by_cases hother : other = ino
    · rw [hother, Chains.file_setFile_self]
      simpa using hlength
    · rw [Chains.file_setFile_of_ne _ _ hother]
      simpa [hother] using h.length_eq other
  head_eq other := by
    by_cases hother : other = ino
    · simpa [hother] using hhead
    · simpa [hother] using h.head_eq other

/-- The record of a file takes a run of entries into the file that are
on no chain and that its chain leads to. -/
theorem extend (h : Sound p m a) {ino : UInt32} {run : List Link} {record : Record} {stop : Link}
    (hpath : Path m.link record.head (a.file ino ++ run) stop)
    (hlength : (a.file ino ++ run).length = record.blocks.toNat) (hne : run ≠ [])
    (hhead : record.head ≠ Link.endMark) (hnodup : run.Nodup)
    (hrun : ∀ entry ∈ run, ¬ a.Owned entry)
    (hlt : ∀ entry ∈ run, entry.word.toNat < p.entries.toNat) :
    Sound p { m with record := Function.update m.record ino record }
      (a.setFile ino (a.file ino ++ run) stop) := by
  -- The chain is longer, its head is no end mark, and its new entries were nobody's.
  refine h.setRecord hpath hlength ⟨fun heq => (hhead heq).elim, fun hzero => ?_⟩
    (h.apart.setFile stop (List.nodup_append.mpr ⟨h.apart.file_nodup ino, hnodup, ?_⟩) ?_ ?_)
  · -- A file that takes entries in has blocks.
    have hrunPos := List.length_pos_iff.mpr hne
    rw [hzero, List.length_append, UInt32.toNat_zero] at hlength
    omega
  · rintro entry hentry _ hother rfl
    exact hrun entry hother (.inr ⟨ino, hentry⟩)
  · intro entry hentry
    exact (List.mem_append.mp hentry).imp_right (hrun entry)
  · intro entry hentry
    exact (List.mem_append.mp hentry).elim (h.apart.file_lt ino entry) (hlt entry)

/-- The empty record takes all entries out of a file; they are then on
no chain. -/
theorem clear (h : Sound p m a) (ino : UInt32) :
    Sound p { m with record := Function.update m.record ino Record.empty }
      (a.setFile ino [] Link.endMark) :=
  h.setRecord rfl rfl ⟨fun _ => rfl, fun _ => rfl⟩
    (h.apart.setFile Link.endMark List.nodup_nil (by simp) (by simp))

/-- The superblock puts a run that is on no chain, and that leads to the
free chain, in front of it. -/
theorem giveBack (h : Sound p m a) {run : List Link} {head : Link}
    (hpath : Path m.link head (run ++ a.free) Link.endMark) (hnodup : run.Nodup)
    (hrun : ∀ entry ∈ run, ¬ a.Owned entry)
    (hlt : ∀ entry ∈ run, entry.word.toNat < p.entries.toNat) :
    Sound p { m with superblock := { m.superblock with freeHead := head } }
      { a with free := run ++ a.free } where
  recordBlocks_eq := h.recordBlocks_eq
  tableBlocks_eq := h.tableBlocks_eq
  apart := h.apart.addFree hnodup hrun hlt
  free_path := hpath
  file_path := h.file_path
  length_eq := h.length_eq
  head_eq := h.head_eq

end Sound

end BlockLayers.Fat
