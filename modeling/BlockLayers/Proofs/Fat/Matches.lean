import BlockLayers.Proofs.Fat.FileMap
import BlockLayers.Proofs.Fat.Partition
import BlockLayers.Proofs.Fat.Release
import Mathlib.Data.List.Nodup

/-!
# `BlockLayers.Proofs.Fat.Matches`: chains and the files they hold

`Chains.files` is the map of the files that the chains hold. Each change
to the chains that a call makes is one that the map makes too:
`Chains.write_over` and `Chains.write_grown` for a write,
`Chains.files_released` for a release. Where the map has no room, the
free chain has none (`Chains.write_full`, `Chains.write_last`).

`Matches` says that the chains hold the files of a map and nothing else:
they end with their files, and every entry is on one of them. What the
requests do keeps that as long as the chains end (`Matches.store`).
-/

set_option autoImplicit false

namespace BlockLayers.Fat

namespace Chains

variable {p : Plan} {m m' : Catalog} {a a' : Chains} {size : Nat}

/-- The map of the files that the chains hold. -/
def files (a : Chains) (p : Plan) (m : Catalog) : FileMap where
  count := p.recordBlocks * 64
  total := p.entries
  file := a.blocks m
  free := a.free.length

/-- The files that there are records for. -/
theorem lt_files_count (fits : p.Usable size) {ino : UInt32} :
    ino < (a.files p m).count ↔ p.HasFile ino := by
  rw [UInt32.lt_iff_toNat_lt, files, Plan.files_toNat fits.files_lt]
  rfl

/-- A file is as long as its record says. -/
theorem length_files (a : Chains) (hsound : Sound p m a) (ino : UInt32) :
    ((a.files p m).file ino).length = (m.record ino).blocks.toNat :=
  (List.length_map _).trans (hsound.length_eq ino)

/-- The length of a file as a word is what its record says. -/
theorem ofNat_length_files (a : Chains) (hsound : Sound p m a) (ino : UInt32) :
    UInt32.ofNat ((a.files p m).file ino).length = (m.record ino).blocks := by
  rw [a.length_files hsound, UInt32.ofNat_toNat]

/-- The files after a change to the chain and the blocks of one file. -/
theorem files_eq_setFile {ino : UInt32} {blocks : List Block} {free : Nat}
    (hsame : ∀ other, other ≠ ino → a'.blocks m' other = a.blocks m other)
    (hfile : a'.blocks m' ino = blocks) (hfree : a'.free.length = free) :
    a'.files p m' = (a.files p m).setFile ino blocks free := by
  have hblocks : a'.blocks m' = Function.update (a.blocks m) ino blocks := by
    funext other
    -- Only the file that was changed has other blocks.
    by_cases hother : other = ino
    · rw [hother, Function.update_self, hfile]
    · rw [Function.update_of_ne hother, hsame other hother]
  rw [files, hblocks, hfree]
  rfl

/-- A block that a file has is written over. -/
theorem write_over (fits : p.Usable size) (hsound : Sound p m a) {addr : Address}
    (hino : p.HasFile addr.ino) {entry : Link}
    (hentry : (a.file addr.ino)[addr.offset.toNat]? = some entry) (data : Block) :
    FileMap.write addr data (a.files p m) =
      .ok () (a.files p { m with data := Function.update m.data entry data }) := by
  obtain ⟨hlt, hget⟩ := List.getElem?_eq_some_iff.mp hentry
  have hmem : entry ∈ a.file addr.ino := List.mem_of_getElem? hentry
  have hlength : (a.blocks m addr.ino).length = (a.file addr.ino).length := List.length_map _
  have hgained : addr.offset.toNat + 1 - ((a.files p m).file addr.ino).length = 0 := by
    show addr.offset.toNat + 1 - (a.blocks m addr.ino).length = 0
    omega
  rw [FileMap.write_apply ((lt_files_count fits).mpr hino) data (by omega), hgained]
  refine congrArg _ (files_eq_setFile (fun other hother => ?_) ?_ rfl).symm
  · refine List.map_congr_left fun e he => Function.update_of_ne ?_ _ _
    intro heq
    exact hsound.apart.file_file other addr.ino hother e he (heq ▸ hmem)
  · show _ = FileMap.written (a.blocks m addr.ino) addr.offset.toNat data
    rw [FileMap.written, if_pos (by omega)]
    -- The entries of a file are distinct, so only one of its blocks changes.
    refine List.ext_getElem (by simp [blocks]) fun i hi hi' => ?_
    simp only [blocks, List.getElem_map, List.getElem_set]
    by_cases hindex : addr.offset.toNat = i
    · subst hindex
      rw [if_pos rfl, hget]
      exact Function.update_self _ _ _
    · rw [if_neg hindex]
      refine Function.update_of_ne (fun heq => ?_) _ _
      exact hindex ((hsound.apart.file_nodup _).getElem_inj_iff.mp (heq.trans hget.symm)).symm

/-- A block behind the end of a file is written to the last entry of a
run that the file took in, and the other entries of the run were
cleared. -/
theorem write_grown (fits : p.Usable size) (hsound : Sound p m a) {addr : Address}
    (hino : p.HasFile addr.ino) {gap : Nat}
    (hgap : addr.offset.toNat = (m.record addr.ino).blocks.toNat + gap)
    (hroom : gap < a.free.length) {front : List Link} {entry : Link}
    (hrun : front ++ [entry] = a.free.take (gap + 1))
    (hzero : ∀ e ∈ front, m'.data e = Block.zero) (hsame : ∀ e, e ∉ front → m'.data e = m.data e)
    (data : Block) :
    FileMap.write addr data (a.files p m) =
      .ok () ((a.grown addr.ino (gap + 1)).files p
        { m' with data := Function.update m'.data entry data }) := by
  -- The block is not written to one of the entries that were cleared.
  have hlast : ∀ e ∈ front, e ≠ entry := by
    have hnodup := hsound.apart.free_nodup.sublist (List.take_sublist (gap + 1) a.free)
    rw [← hrun, List.nodup_append] at hnodup
    exact fun e he => hnodup.2.2 e he entry (List.mem_singleton_self entry)
  -- The entries that are taken in belong to no file yet.
  have hfile : ∀ other, a.blocks { m' with data := Function.update m'.data entry data } other =
      a.blocks m other := by
    refine hsound.apart.blocks_congr fun e he => ?_
    have hout : e ∉ front ++ [entry] := fun hmem => he (List.mem_of_mem_take (hrun ▸ hmem))
    rw [List.mem_append, List.mem_singleton, not_or] at hout
    exact (Function.update_of_ne hout.2 _ _).trans (hsame e hout.1)
  have hcount : front.length = gap := by
    have hlength := congrArg List.length hrun
    rw [List.length_append, List.length_take, List.length_singleton] at hlength
    omega
  have hlength := a.length_files hsound addr.ino
  have hgained : addr.offset.toNat + 1 - ((a.files p m).file addr.ino).length = gap + 1 := by omega
  rw [FileMap.write_apply ((lt_files_count fits).mpr hino) data (by rw [hgained]; exact hroom),
    hgained]
  refine congrArg _ (files_eq_setFile (fun other hother => ?_) ?_ List.length_drop).symm
  · rw [blocks, grown, file_setFile_of_ne _ _ hother]
    exact hfile other
  · have hcleared : front.map (Function.update m'.data entry data) =
        List.replicate gap Block.zero := by
      rw [← hcount, ← List.map_const']
      refine List.map_congr_left fun e he => ?_
      exact (Function.update_of_ne (hlast e he) _ _).trans (hzero e he)
    rw [blocks, grown, file_setFile_self, List.map_append, ← hrun, List.map_append,
      List.map_singleton, FileMap.written, if_neg (by omega), hlength, hgap,
      Nat.add_sub_cancel_left, List.append_assoc]
    show a.blocks _ addr.ino ++ (List.map (Function.update m'.data entry data) front ++
      [Function.update m'.data entry data entry]) = _
    rw [hfile, hcleared, Function.update_self]
    rfl

/-- A block for which there are too few free entries is refused. -/
theorem write_full (fits : p.Usable size) (hsound : Sound p m a) {addr : Address}
    (hino : p.HasFile addr.ino) {gap : Nat}
    (hgap : addr.offset.toNat = (m.record addr.ino).blocks.toNat + gap)
    (hfull : a.free.length ≤ gap) (data : Block) :
    FileMap.write addr data (a.files p m) = .error (.fault .noSpace) (a.files p m) := by
  have hlength := a.length_files hsound addr.ino
  refine FileMap.write_noSpace ((lt_files_count fits).mpr hino) data ?_
  show a.free.length < _
  omega

/-- A file with a block at the last offset of all would have more blocks
than there are entries. -/
theorem write_last (fits : p.Usable size) (hsound : Sound p m a) {addr : Address}
    (hino : p.HasFile addr.ino) (hmax : addr.offset = 0xffffffff) (data : Block) :
    FileMap.write addr data (a.files p m) = .error (.fault .noSpace) (a.files p m) := by
  have hapart := hsound.apart
  have hnodup : (a.free ++ a.file addr.ino).Nodup :=
    List.nodup_append.mpr ⟨hapart.free_nodup, hapart.file_nodup addr.ino,
      fun e hfree e' hfile heq => hapart.free_file addr.ino e hfree (heq ▸ hfile)⟩
  -- The free entries and those of the file are distinct, so there are no more than entries.
  have hcount := Plan.length_le hnodup fun e he =>
    (List.mem_append.mp he).elim (hapart.free_lt e) (hapart.file_lt addr.ino e)
  rw [List.length_append] at hcount
  have hlength : ((a.files p m).file addr.ino).length = (a.file addr.ino).length :=
    List.length_map _
  have hlt := p.entries.toNat_lt
  refine FileMap.write_noSpace ((lt_files_count fits).mpr hino) data ?_
  show a.free.length < _
  rw [hlength, hmax, show (0xffffffff : UInt32).toNat = 4294967295 from rfl]
  omega

/-- A file gives all its blocks back. -/
theorem files_released (a : Chains) (ino : UInt32) (hdata : m'.data = m.data) :
    (a.released ino).files p m' =
      (a.files p m).setFile ino [] (a.free.length + (a.blocks m ino).length) := by
  refine files_eq_setFile (fun other hother => ?_) ?_ ?_
  · rw [blocks, hdata, released, file_setFile_of_ne _ _ hother]
    rfl
  · rw [blocks, released, file_setFile_self]
    rfl
  · rw [released, List.length_append, List.length_reverse, blocks, List.length_map, Nat.add_comm]

end Chains

/-- The chains hold the files of a map, they end with their files, and
no entry is missing. -/
structure Matches (p : Plan) (m : Catalog) (a : Chains) (f : FileMap) : Prop where
  count_eq : f.count = p.recordBlocks * 64
  total_eq : f.total = p.entries
  file_eq : ∀ ino, f.file ino = (a.file ino).map m.data
  free_eq : f.free = a.free.length
  ended : ∀ ino, a.rest ino = Link.endMark
  whole : f.free + f.used = p.entries.toNat

namespace Matches

variable {p : Plan} {m : Catalog} {a : Chains} {f : FileMap}

/-- A map that the chains match is the one of their files. -/
theorem eq_files (h : Matches p m a f) : f = a.files p m := by
  obtain ⟨count, total, file, free⟩ := f
  obtain ⟨rfl, rfl, hfile, rfl, -, -⟩ := h
  rw [show file = a.blocks m from funext hfile]
  rfl

/-- What a request does to the files keeps the match, as long as the
chains end. -/
theorem store (h : Matches p m a f) {q : Request} {value : q.Answer} {m' : Catalog} {a' : Chains}
    (hrun : FileMap.store q (a.files p m) = .ok value (a'.files p m'))
    (hended : ∀ ino, a'.rest ino = Link.endMark) : Matches p m' a' (a'.files p m') where
  count_eq := rfl
  total_eq := rfl
  file_eq _ := rfl
  free_eq := rfl
  ended := hended
  whole := by
    rw [FileMap.free_add_used hrun, ← h.eq_files]
    exact h.whole

end Matches

end BlockLayers.Fat
