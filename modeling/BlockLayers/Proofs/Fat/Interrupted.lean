import BlockLayers.Proofs.Fat.Matches

/-!
# `BlockLayers.Proofs.Fat.Interrupted`: what an interrupted call leaves

A call that the store below interrupts leaves the tables between two
states. `Left` says for every request what can have become of the files
and of the free chain by then. A request that is no change leaves
everything; a write leaves the other files and the blocks that its file
had (`WriteLeft`), and a resize leaves the other files and the free
chain (`ResizeLeft`).

The chain of a file is as it was, or ends with the file
(`Chains.Settles`). The one exception is the file of a write that was to
grow it and did not.

Main statements: `WriteLeft.of_growing` and `WriteLeft.of_grown`, for a
growth that was interrupted before the record of the file was written
and for one that was not.
-/

set_option autoImplicit false

namespace BlockLayers.Fat

/-- The chain of a file is as it was, or ends with the file. -/
def Chains.Settles (a a' : Chains) (ino : UInt32) : Prop :=
  a'.file ino = a.file ino ∧ a'.rest ino = a.rest ino ∨ a'.rest ino = Link.endMark

/-- What an interrupted write leaves: the other files and the blocks that
its file had. The file has its old size or the one that the write was to
give it, and the free chain has lost what the file was to gain, or
nothing. -/
structure WriteLeft (p : Plan) (addr : Address) (m : Catalog) (a : Chains) (m' : Catalog)
    (a' : Chains) : Prop where
  others : ∀ ino, ino ≠ addr.ino → a'.blocks m' ino = a.blocks m ino
  begins : a.blocks m addr.ino <+: a'.blocks m' addr.ino
  length : (a'.blocks m' addr.ino).length = (a.blocks m addr.ino).length ∨
    (a'.blocks m' addr.ino).length =
      max (a.blocks m addr.ino).length (addr.offset.toNat + 1)
  free : a'.free = a.free ∨ p.HasFile addr.ino ∧
    addr.offset.toNat + 1 - (a.blocks m addr.ino).length ≤ a.free.length ∧
      a'.free = a.free.drop (addr.offset.toNat + 1 - (a.blocks m addr.ino).length)
  rest : ∀ ino, a.Settles a' ino ∨ ino = addr.ino ∧
    (a.blocks m ino).length ≤ addr.offset.toNat ∧
      (a'.blocks m' ino).length = (a.blocks m ino).length

/-- What an interrupted resize leaves: the other files and the free
chain. The file is as it was, or empty. -/
structure ResizeLeft (ino : UInt32) (m : Catalog) (a : Chains) (m' : Catalog) (a' : Chains) :
    Prop where
  others : ∀ other, other ≠ ino → a'.blocks m' other = a.blocks m other
  file : a'.blocks m' ino = a.blocks m ino ∨ a'.blocks m' ino = []
  free : a'.free = a.free
  rest : ∀ other, a.Settles a' other

/-- What an interrupted request leaves. -/
def Left (p : Plan) : Request → Catalog → Chains → Catalog → Chains → Prop
  | .write addr _ => WriteLeft p addr
  | .resize ino _ => ResizeLeft ino
  | _ => fun m a m' a' => m' = m ∧ a' = a

variable {p : Plan} {m m' : Catalog} {a a' : Chains}

/-- A chain that is as it was. -/
theorem Chains.settles_refl (a : Chains) (ino : UInt32) : a.Settles a ino := .inl ⟨rfl, rfl⟩

/-- The chain of one file ends, and the others are as they were. -/
theorem Chains.settles_setFile (a : Chains) (ino : UInt32) (chain : List Link) (other : UInt32) :
    a.Settles (a.setFile ino chain Link.endMark) other := by
  by_cases hother : other = ino
  · rw [hother]
    exact .inr (rest_setFile_self _ _ _)
  · exact .inl ⟨file_setFile_of_ne _ _ hother, rest_setFile_of_ne _ _ hother⟩

/-- Files and chains as they were are left by every request. -/
theorem Left.refl (p : Plan) (q : Request) (m : Catalog) (a : Chains) : Left p q m a m a := by
  -- What may be left differs by request, but each allows for no change at all.
  cases q with
  | write addr data =>
    exact ⟨fun _ _ => rfl, List.prefix_rfl, .inl rfl, .inl rfl,
      fun ino => .inl (a.settles_refl ino)⟩
  | resize ino blocks => exact ⟨fun _ _ => rfl, .inl rfl, rfl, a.settles_refl⟩
  | _ => exact ⟨rfl, rfl⟩

/-- A file that an interrupted request leaves: as it was, or empty, or
one that a write was to change. -/
theorem Left.blocks {q : Request} (h : Left p q m a m' a') (ino : UInt32) :
    a'.blocks m' ino = a.blocks m ino ∨ a'.blocks m' ino = [] ∨
      ∃ offset data, q = .write ⟨ino, offset⟩ data ∧ a.blocks m ino <+: a'.blocks m' ino := by
  cases q with
  | write addr data =>
    have hleft : WriteLeft p addr m a m' a' := h
    by_cases hino : ino = addr.ino
    · rw [hino]
      exact .inr (.inr ⟨addr.offset, data, rfl, hleft.begins⟩)
    · exact .inl (hleft.others ino hino)
  | resize other count =>
    have hleft : ResizeLeft other m a m' a' := h
    by_cases hino : ino = other
    · rw [hino]
      exact hleft.file.imp_right .inl
    · exact .inl (hleft.others ino hino)
  | _ =>
    obtain ⟨rfl, rfl⟩ := h
    exact .inl rfl

namespace WriteLeft

variable {addr : Address} {gap : Nat}

/-- The chains are those that were there before. -/
theorem of_chains (hdata : m'.data = m.data) : WriteLeft p addr m a m' a := by
  have hblocks : a.blocks m' = a.blocks m := by
    unfold Chains.blocks
    rw [hdata]
  exact ⟨fun ino _ => congrFun hblocks ino, hblocks ▸ List.prefix_rfl, .inl (by rw [hblocks]),
    .inl rfl, fun ino => .inl (a.settles_refl ino)⟩

/-- What is lost when the free chain has lost a run is what the file was
to gain. -/
theorem free_eq (hgap : addr.offset.toNat = (a.file addr.ino).length + gap)
    (hroom : gap < a.free.length) (hfree : a'.free = (a.shortened (gap + 1)).free) :
    addr.offset.toNat + 1 - (a.blocks m addr.ino).length ≤ a.free.length ∧
      a'.free = a.free.drop (addr.offset.toNat + 1 - (a.blocks m addr.ino).length) := by
  have hlength : (a.blocks m addr.ino).length = (a.file addr.ino).length := List.length_map _
  -- The file is to gain the blocks from its end to the one that is written.
  have hgained : addr.offset.toNat + 1 - (a.blocks m addr.ino).length = gap + 1 := by omega
  rw [hgained]
  exact ⟨hroom, hfree⟩

/-- The free chain has lost a run, and the chain of the file may go on
anywhere. -/
theorem of_growing (hdata : m'.data = m.data) (hino : p.HasFile addr.ino)
    (hgap : addr.offset.toNat = (a.file addr.ino).length + gap) (hroom : gap < a.free.length)
    (rest : Link) : WriteLeft p addr m a m' (a.growing addr.ino (gap + 1) rest) := by
  have hlength : (a.blocks m addr.ino).length = (a.file addr.ino).length := List.length_map _
  have hblocks : (a.growing addr.ino (gap + 1) rest).blocks m' = a.blocks m := by
    unfold Chains.blocks
    rw [hdata, Chains.file_growing]
  refine ⟨fun ino _ => congrFun hblocks ino, hblocks ▸ List.prefix_rfl, .inl (by rw [hblocks]),
    .inr ⟨hino, free_eq hgap hroom rfl⟩, fun ino => ?_⟩
  -- Only the chain of this file may go on, and the file is as long as it was.
  by_cases hother : ino = addr.ino
  · subst hother
    exact .inr ⟨rfl, by omega, by rw [hblocks]⟩
  · exact .inl (.inl ⟨Chains.file_setFile_of_ne _ _ hother, Chains.rest_setFile_of_ne _ _ hother⟩)

/-- The file has taken in a run from the free chain, and other data
blocks than those of the run are as they were. -/
theorem of_grown {entries : Nat} (hapart : a.Apart entries) (hino : p.HasFile addr.ino)
    (hgap : addr.offset.toNat = (a.file addr.ino).length + gap) (hroom : gap < a.free.length)
    (hsame : ∀ entry, entry ∉ a.free.take (gap + 1) → m'.data entry = m.data entry) :
    WriteLeft p addr m a m' (a.grown addr.ino (gap + 1)) := by
  have hlength : (a.blocks m addr.ino).length = (a.file addr.ino).length := List.length_map _
  have hblocks : ∀ ino, a.blocks m' ino = a.blocks m ino :=
    hapart.blocks_congr fun entry hentry =>
      hsame entry fun hmem => hentry (List.mem_of_mem_take hmem)
  -- The file has its old blocks first, as its entries did not change.
  have hgrown : (a.grown addr.ino (gap + 1)).blocks m' addr.ino =
      a.blocks m addr.ino ++ (a.free.take (gap + 1)).map m'.data := by
    rw [Chains.blocks, Chains.grown, Chains.file_setFile_self, List.map_append, ← hblocks]
    rfl
  refine ⟨fun other hother => ?_, ?_, .inr ?_, .inr ⟨hino, free_eq hgap hroom rfl⟩,
    fun ino => .inl ((a.shortened (gap + 1)).settles_setFile addr.ino _ ino)⟩
  · rw [Chains.blocks, Chains.grown, Chains.file_setFile_of_ne _ _ hother]
    exact hblocks other
  · rw [hgrown]
    exact List.prefix_append _ _
  · rw [hgrown, List.length_append, List.length_map, List.length_take]
    omega

end WriteLeft

namespace ResizeLeft

variable {ino : UInt32}

/-- The chains are those that were there before. -/
theorem of_chains (hdata : m'.data = m.data) : ResizeLeft ino m a m' a := by
  have hblocks : a.blocks m' = a.blocks m := by
    unfold Chains.blocks
    rw [hdata]
  exact ⟨fun other _ => congrFun hblocks other, .inl (congrFun hblocks ino), rfl, a.settles_refl⟩

/-- The file has no entries, and nothing else has changed. -/
theorem of_emptied (hdata : m'.data = m.data) :
    ResizeLeft ino m a m' (a.setFile ino [] Link.endMark) := by
  refine ⟨fun other hother => ?_, .inr ?_, rfl, a.settles_setFile ino []⟩
  · rw [Chains.blocks, Chains.file_setFile_of_ne _ _ hother, hdata]
    rfl
  · rw [Chains.blocks, Chains.file_setFile_self]
    rfl

end ResizeLeft

end BlockLayers.Fat
