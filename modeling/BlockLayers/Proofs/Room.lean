import BlockLayers.Proofs.Cache.Serves
import BlockLayers.Proofs.Durable
import BlockLayers.Proofs.Verify

/-!
# `BlockLayers.Proofs.Room`: a copy succeeds where there is room for it

A byte string is copied into a mirror of towers none of whose calls fail.
A member has room for it if its blocks fit in what is free on the volume
and what the file had (`Tower.HasRoom`). That alone decides, whatever the
sizes and the policies of the caches are: members with room are in use
afterwards and the others are not, and the copy is acknowledged where one
has room.

The number of free blocks and of those of the file together never
changes, however many blocks have reached the file by then and in
whatever order. So no request of a copy that fits is refused
(`FileMap.copying_serves`), and an acknowledged copy is in the file and
so did fit. What the cache asks of the volume is what it was asked for
(`Cache.store_serves`).

After a copy the cache of a member that is left has no changed block, and
the file has the blocks of the string. That stays so while it is read
(`FileMap.Copied.read`), so the mirror reads back the string.

Main statement: `Mirror.copyIn_room`.
-/

set_option autoImplicit false

namespace BlockLayers

/-- The requests by which the first `count` blocks of an inode are read. -/
def Request.Reading (ino : UInt32) (count : Nat) : Request → Prop
  | .read a => a.ino = ino ∧ a.offset.toNat < count
  | _ => False

namespace Fat

/-! ### A map of files -/

namespace FileMap

variable {f : FileMap} {ino : UInt32} {n : Nat}

/-- The requests of a copy are refused only if it does not fit in the
free blocks and those of the file. -/
theorem copying_serves (ino : UInt32) (count room : Nat) :
    Serves store (Request.Copying ino count) (room < count)
      (fun f => ino < f.count ∧ f.free + (f.file ino).length = room) where
  call := by
    rintro q f hq ⟨hino, hroom⟩
    cases q with
    | resize other blocks =>
      obtain ⟨rfl, rfl⟩ := hq
      have hrun : resize other 0 f = _ := resize_apply hino rfl
      split_ifs at hrun with hsame hmore hsome
      · exact .of_ok hrun ⟨hino, hroom⟩
      · exact .of_fault hrun ⟨⟨hino, hroom⟩, (UInt32.not_lt_zero hmore).elim⟩
      · exact .of_fault hrun ⟨⟨hino, hroom⟩, (UInt32.not_lt_zero hsome).elim⟩
      · -- The blocks that the file had are free now.
        refine .of_ok hrun ⟨hino, ?_⟩
        rw [file_setFile_self, List.length_nil, ← hroom]
        rfl
    | write a data =>
      obtain ⟨ino', offset⟩ := a
      obtain ⟨rfl, hoffset⟩ := hq
      dsimp only at hino hroom hoffset
      -- The blocks that the file gains are no longer free, so the sum stays, and a write that is
      -- refused would have needed more than the sum.
      by_cases hfits : offset.toNat + 1 - (f.file ino').length ≤ f.free
      · have hrun : write ⟨ino', offset⟩ data f = _ := write_apply hino data hfits
        refine .of_ok hrun ⟨hino, ?_⟩
        rw [file_setFile_self, length_written]
        show f.free - (offset.toNat + 1 - (f.file ino').length) +
          ((f.file ino').length + (offset.toNat + 1 - (f.file ino').length)) = room
        omega
      · have hrun : write ⟨ino', offset⟩ data f = _ := write_noSpace hino data (Nat.not_le.mp hfits)
        exact .of_fault hrun ⟨⟨hino, hroom⟩, by omega⟩
    | sync other => exact .of_ok rfl ⟨hino, hroom⟩
    | _ => exact hq.elim
  note := fun _ h => h

/-- Blocks that a file has are read. -/
theorem reading_serves (ino : UInt32) (blocks : List Block) :
    Serves store (Request.Reading ino blocks.length) False
      (fun f => ino < f.count ∧ f.file ino = blocks) where
  call := by
    rintro q f hq ⟨hino, hfile⟩
    cases q with
    | read a =>
      obtain ⟨ino', offset⟩ := a
      obtain ⟨rfl, hoffset⟩ := hq
      have hblock : (f.file ino')[offset.toNat]? = some blocks[offset.toNat] := by
        rw [hfile, List.getElem?_eq_getElem hoffset]
      exact .of_ok (read_apply hino hblock) ⟨hino, hfile⟩
    | _ => exact hq.elim
  note := fun _ h => h

/-- A byte string was copied through a cache into a file of a map. -/
structure Copied (ino : UInt32) (bytes : List UInt8) (s : Cache n × FileMap) : Prop
    extends Flushed s where
  lt : ino < s.2.count
  file : s.2.file ino = Block.blocksOf bytes

/-- The blocks of the string are read back. -/
theorem Copied.read {bytes : List UInt8} {s : Cache n × FileMap} (h : Copied ino bytes s) {k : Nat}
    (hk : k < (bytes.length + 511) / 512) (hword : (bytes.length + 511) / 512 < 4294967296) :
    ∃ after, Cache.store store (.read ⟨ino, UInt32.ofNat k⟩) s = .ok (Block.padded bytes k) after ∧
      Copied ino bytes after := by
  obtain ⟨c, f⟩ := s
  have hnumber : (UInt32.ofNat k).toNat = k :=
    UInt32.toNat_ofNat_of_lt' (show k < 4294967296 by omega)
  have hasked : Request.Reading ino (Block.blocksOf bytes).length
      (.read ⟨ino, UInt32.ofNat k⟩) := by
    refine ⟨rfl, ?_⟩
    rw [Block.length_blocksOf, hnumber]
    exact hk
  -- The contract of a store tells the block, and the other one that nothing is refused.
  have hB := Cache.backing (n := n) (backing fun ino => ino.toNat < f.plain.size)
  have hS := Cache.store_serves (n := n) (reading_serves ino (Block.blocksOf bytes))
  obtain ⟨block, ⟨c', f'⟩, hrun, ⟨⟨q, hcovered, hwhole, hq⟩, hblock⟩, hasked', hlt, hfile⟩ :=
    ((hB.read ⟨ino, UInt32.ofNat k⟩ ⟨f.plain, h.covered, h.whole, rfl⟩).and
      (hS.call hasked ⟨.of_clean h.clean, h.lt, h.file⟩)).ok fun _ _ hno => hno.2.2
  have hclean : c'.ring.shelf.Clean := hasked'.clean fun _ _ hno => hno
  obtain rfl : f'.plain = q := hq
  have hsame : f'.plain = f.plain := hcovered.eq hclean
  refine ⟨(c', f'), ?_, ⟨hwhole, hclean, ?_⟩, hlt, hfile⟩
  · rw [hrun]
    have hpadded : (Block.blocksOf bytes)[k]? = some (Block.padded bytes k) := by
      rw [Block.blocksOf, List.getElem?_map, List.getElem?_range hk]
      rfl
    rw [Plain.block?, at_plain_of_lt h.lt, h.file, hnumber, hpadded] at hblock
    rw [Option.some.inj hblock]
  · rw [hsame] at hcovered ⊢
    exact hcovered

end FileMap

end Fat

open Fat

/-! ### A tower -/

namespace Tower

variable {t : Tower} {ino k : UInt32} {bytes : List UInt8} {after : t.State}

/-- No call of the store at the bottom of a tower fails, the entries of
its volume were counted, and it has the file. -/
structure Usable (t : Tower) (ino : UInt32) : Prop where
  steady : t.schedule = fun _ => none
  counted : ∃ counted, Op.outcome (t.volume.occupancy Memory.store) t.memory = .ok counted
  hasFile : ∃ files, Op.outcome (t.volume.store Memory.store .capacity) t.memory = .ok files ∧
    ino < files

/-- The blocks of a byte string fit in the free entries of a volume and
those of the file together. -/
def HasRoom (t : Tower) (ino : UInt32) (bytes : List UInt8) : Prop :=
  ∃ counted blocks, Op.outcome (t.volume.occupancy Memory.store) t.memory = .ok counted ∧
    Op.outcome (t.volume.store Memory.store (.size ino)) t.memory = .ok blocks ∧
    (bytes.length + 511) / 512 ≤ counted.free.toNat + blocks.toNat

/-- What is known of a tower to which a byte string was copied. -/
def Copied (t : Tower) (ino : UInt32) (bytes : List UInt8) (s : t.State) : Prop :=
  ∃ plan size f, Plan.Usable plan size ∧ t.volume.Refines plan size s.2.2 f ∧
    FileMap.Copied ino bytes (s.1, f)

section Refines

variable {plan : Plan} {size : Nat} {f : FileMap} (fits : plan.Usable size)
  (hf : t.volume.Refines plan size t.memory f)
include fits hf

/-- The room on a volume is that in the map of its files. -/
theorem hasRoom_iff (hino : ino < f.count) :
    t.HasRoom ino bytes ↔ (bytes.length + 511) / 512 ≤ f.free + (f.file ino).length := by
  have hcount := (Volume.serve_agree fits .occupancy _ _ hf).1
  have hsize := hf.outcome fits (.size ino)
  rw [FileMap.outcome_size, if_neg (UInt32.not_le.mpr hino)] at hsize
  have hfree : (UInt32.ofNat f.free).toNat = f.free := by
    have hwhole := hf.whole
    have htotal := f.total.toNat_lt
    unfold FileMap.Whole at hwhole
    exact UInt32.toNat_ofNat_of_lt' (show _ < 4294967296 by omega)
  have hlength := hf.whole.toNat_length hino
  constructor
  · rintro ⟨counted, blocks, hcounted, hblocks, hroom⟩
    cases hcount.symm.trans hcounted
    cases hsize.symm.trans hblocks
    rwa [hfree, hlength] at hroom
  · intro hroom
    refine ⟨_, _, hcount, hsize, ?_⟩
    rwa [hfree, hlength]

/-- A copy that fits can be numbered. -/
theorem lt_of_hasRoom (hino : ino < f.count) (hroom : t.HasRoom ino bytes) :
    (bytes.length + 511) / 512 < 4294967296 := by
  have hle := (hasRoom_iff fits hf hino).mp hroom
  have hwhole := hf.whole
  have hlength := FileMap.length_le_used hino
  have htotal := f.total.toNat_lt
  unfold FileMap.Whole at hwhole
  omega

/-- A copy to a new tower over a map of files with some room. -/
theorem copyIn_ends (hsteady : t.schedule = fun _ => none) (hino : ino < f.count)
    (hword : (bytes.length + 511) / 512 < 4294967296) :
    Op.Ends (copyIn t.store ino bytes) t.start (fun _ _ => True)
      fun _ _ => f.free + (f.file ino).length < (bytes.length + 511) / 512 := by
  -- From the map of the files up: the volume agrees with it, and the cache asks for no more.
  have hS := Cache.store_serves (n := t.capacity) (Serves.along
    (Volume.steady_agrees (v := t.volume) fits) (fun _ _ _ h => h)
    (FileMap.copying_serves ino ((bytes.length + 511) / 512) (f.free + (f.file ino).length)))
  rw [store, hsteady]
  exact (copyIn_serves hS hword ⟨.of_clean (Cache.Ring.clean_empty _ _), f, hf, hino, rfl⟩).mono
    (fun _ _ _ => trivial) fun _ _ hbad => hbad.2

/-- A copy that a new tower acknowledged fits, and is there to be read. -/
theorem of_copyIn_ok (hino : ino < f.count)
    (hrun : copyIn t.store ino bytes t.start = .ok k after) :
    t.HasRoom ino bytes ∧ t.Copied ino bytes after := by
  have hword : (bytes.length + 511) / 512 < 4294967296 := copyIn_toNat hrun ▸ k.toNat_lt
  -- The map of the files has done the same, and it tells how many blocks there are.
  obtain ⟨⟨c, f'⟩, hrun', hc, hf'⟩ := copyIn_mimics
    (Cache.store_mimics (Volume.follower fits t.schedule)) ino bytes t.start
    (Cache.empty t.policy t.capacity t.capacity_pos, f) k after ⟨rfl, hf⟩ hrun
  have hS := Cache.store_serves (n := t.capacity)
    (FileMap.copying_serves ino ((bytes.length + 511) / 512) (f.free + (f.file ino).length))
  obtain ⟨-, hlt, hroom⟩ := (copyIn_serves hS hword
    ⟨.of_clean (Cache.Ring.clean_empty _ _), hino, rfl⟩).good_of hrun'
  obtain ⟨-, hflushed, -⟩ := FileMap.copyIn_flushed hf.whole hrun'
  obtain ⟨-, hfile, -⟩ := FileMap.copyIn_cached hf.whole hrun'
  refine ⟨(hasRoom_iff fits hf hino).mpr ?_, _, _, f', fits, hf', ?_⟩
  · rw [hfile, Block.length_blocksOf] at hroom
    omega
  · obtain rfl : after.1 = c := hc
    exact ⟨hflushed, hlt, hfile⟩

end Refines

/-- The volume of a tower that can be used holds the files of a map. -/
theorem Usable.refines (h : t.Usable ino) :
    ∃ plan size f, Plan.Usable plan size ∧ t.volume.Refines plan size t.memory f ∧
      ino < f.count := by
  obtain ⟨counted, hcounted⟩ := h.counted
  obtain ⟨files, hfiles, hino⟩ := h.hasFile
  obtain ⟨plan, f, fits, hf⟩ := Volume.refines_of_told (Op.apply_of_outcome_ok hcounted)
    (.inl rfl) (Op.apply_of_outcome_ok hfiles)
  cases (hf.outcome fits .capacity).symm.trans hfiles
  exact ⟨plan, _, f, fits, hf, hino⟩

/-- A tower can be used if its volume holds the files of a map. -/
theorem usable_of_refines {plan : Plan} {size : Nat} {f : FileMap}
    (hsteady : t.schedule = fun _ => none) (fits : plan.Usable size)
    (hf : t.volume.Refines plan size t.memory f) (hino : ino < f.count) : t.Usable ino where
  steady := hsteady
  counted := ⟨_, (Volume.serve_agree fits .occupancy _ _ hf).1⟩
  hasFile := ⟨f.count, hf.outcome fits .capacity, hino⟩

/-- A copy for which there is room can be numbered. -/
theorem Usable.lt_of_hasRoom (h : t.Usable ino) (hroom : t.HasRoom ino bytes) :
    (bytes.length + 511) / 512 < 4294967296 := by
  obtain ⟨plan, size, f, fits, hf, hino⟩ := h.refines
  exact Tower.lt_of_hasRoom fits hf hino hroom

/-- A copy that was acknowledged has room, and is there to be read. -/
theorem Usable.of_copyIn_ok (h : t.Usable ino)
    (hrun : copyIn t.store ino bytes t.start = .ok k after) :
    t.HasRoom ino bytes ∧ t.Copied ino bytes after := by
  obtain ⟨plan, size, f, fits, hf, hino⟩ := h.refines
  exact Tower.of_copyIn_ok fits hf hino hrun

/-- A copy that fails has no room. -/
theorem Usable.of_copyIn_fault (h : t.Usable ino) {fault : Fault}
    (hrun : copyIn t.store ino bytes t.start = .error (.fault fault) after) :
    ¬ t.HasRoom ino bytes := by
  obtain ⟨plan, size, f, fits, hf, hino⟩ := h.refines
  intro hroom
  have hends := copyIn_ends fits hf h.steady hino (Tower.lt_of_hasRoom fits hf hino hroom)
  exact Nat.not_lt.mpr ((hasRoom_iff fits hf hino).mp hroom) (hends.bad_of hrun)

/-- A copy that is aborted has more blocks than there are numbers. -/
theorem Usable.of_copyIn_abort (h : t.Usable ino) {abort : Abort}
    (hrun : copyIn t.store ino bytes t.start = .error (.abort abort) after) :
    4294967296 ≤ (bytes.length + 511) / 512 := by
  obtain ⟨plan, size, f, fits, hf, hino⟩ := h.refines
  refine Nat.le_of_not_lt fun hword => ?_
  exact (copyIn_ends fits hf h.steady hino hword).not_abort hrun

/-- The blocks of a string that was copied are read back. -/
theorem Copied.read {s : t.State} (h : t.Copied ino bytes s) (hsteady : t.schedule = fun _ => none)
    (hword : (bytes.length + 511) / 512 < 4294967296) {n : Nat}
    (hn : n < (bytes.length + 511) / 512) :
    ∃ after, t.store (.read ⟨ino, UInt32.ofNat n⟩) s = .ok (Block.padded bytes n) after ∧
      t.Copied ino bytes after := by
  obtain ⟨plan, size, f, fits, hf, hcopied⟩ := h
  obtain ⟨⟨c, f'⟩, hrun, hcopied'⟩ := hcopied.read hn hword
  obtain ⟨after, hrun', hc, hf'⟩ := Cache.store_mimics (Volume.leader fits)
    (.read ⟨ino, UInt32.ofNat n⟩) (s.1, f) s _ _ ⟨rfl, hf⟩ hrun
  obtain rfl : c = after.1 := hc
  exact ⟨after, by rwa [store, hsteady], plan, size, f', fits, hf', hcopied'⟩

end Tower

/-! ### A mirror of towers -/

namespace Mirror

variable {n : Nat} {towers : Fin n → Tower} {ino : UInt32} {bytes : List UInt8}

/-- A mirror whose members in use have a copy of a byte string. -/
def Copied (towers : Fin n → Tower) (ino : UInt32) (bytes : List UInt8)
    (s : Mirror n × Members fun i => (towers i).State) : Prop :=
  s.1.inUse ≠ [] ∧ ∀ i ∈ s.1.inUse, (towers i).Copied ino bytes (s.2 i)

/-- The blocks of the string are read back. -/
theorem Copied.read {s : Mirror n × Members fun i => (towers i).State}
    (h : Copied towers ino bytes s) (hsteady : ∀ i, (towers i).schedule = fun _ => none)
    (hword : (bytes.length + 511) / 512 < 4294967296) {k : Nat}
    (hk : k < (bytes.length + 511) / 512) :
    ∃ after, store (Members.stores fun i => (towers i).store) (.read ⟨ino, UInt32.ofNat k⟩) s =
      .ok (Block.padded bytes k) after ∧ Copied towers ino bytes after := by
  have hread : ∀ i ∈ s.1.inUse, ∃ after,
      (towers i).store (.read ⟨ino, UInt32.ofNat k⟩) (s.2 i) = .ok (Block.padded bytes k) after ∧
        (towers i).Copied ino bytes after :=
    fun i hi => (h.2 i hi).read (hsteady i) hword hk
  obtain ⟨after, hrun, hflags, hmembers⟩ := store_unanimous h.1
    fun i hi => (hread i hi).imp fun _ hanswer => hanswer.1
  have hsame : after.1.inUse = s.1.inUse := by simp only [inUse, hflags]
  refine ⟨after, hrun, hsame ▸ h.1, fun i hi => ?_⟩
  rw [hsame] at hi
  rcases hmembers i hi with hanswer | ⟨-, hkept⟩
  · obtain ⟨_, hanswer', hcopied⟩ := hread i hi
    cases hanswer'.symm.trans hanswer
    exact hcopied
  · exact hkept ▸ h.2 i hi

section Copy

variable {after : Mirror n × Members fun i => (towers i).State}
  (husable : ∀ i, (towers i).Usable ino)
include husable

/-- The members that acknowledge a copy are those with room for it. -/
theorem copied_of_copyIn_ok {k : UInt32} (hlive : (fresh n).inUse ≠ [])
    (hrun : copyIn (store (Members.stores fun i => (towers i).store)) ino bytes
      (fresh n, fun i => (towers i).start) = .ok k after) :
    Copied towers ino bytes after ∧
      ∀ i, Row.at_ after.1.broken i = true ↔ ¬ (towers i).HasRoom ino bytes := by
  have hdone := (copyIn_spread bytes).done hrun
  have hleft : ∀ i ∈ after.1.inUse, (towers i).HasRoom ino bytes ∧
      (towers i).Copied ino bytes (after.2 i) :=
    fun i hi => (husable i).of_copyIn_ok (hdone.did i hi).2
  refine ⟨⟨hdone.left hlive, fun i hi => (hleft i hi).2⟩, fun i => ?_⟩
  by_cases hi : i ∈ after.1.inUse
  · rw [mem_inUse.mp hi]
    exact iff_of_false Bool.false_ne_true fun hno => hno (hleft i hi).1
  · obtain ⟨fault, t, hfault⟩ := hdone.lost i (mem_inUse_fresh i) hi
    exact iff_of_true (broken_of_not_mem_inUse hi) ((husable i).of_copyIn_fault hfault)

/-- A copy that the mirror fails has room in no member. -/
theorem full_of_copyIn_fault {fault : Fault}
    (hrun : copyIn (store (Members.stores fun i => (towers i).store)) ino bytes
      (fresh n, fun i => (towers i).start) = .error (.fault fault) after) (i : Fin n) :
    Row.at_ after.1.broken i = true ∧ ¬ (towers i).HasRoom ino bytes := by
  obtain ⟨hnone, hfail⟩ := (copyIn_spread bytes).exhausted hrun
  obtain ⟨fault, t, hfault⟩ := hfail i (mem_inUse_fresh i)
  exact ⟨broken_of_not_mem_inUse (hnone ▸ List.not_mem_nil),
    (husable i).of_copyIn_fault hfault⟩

/-- Only a copy with more blocks than numbers is aborted, and it has room
in no member. -/
theorem large_of_copyIn_abort {abort : Abort} (hlive : (fresh n).inUse ≠ [])
    (hrun : copyIn (store (Members.stores fun i => (towers i).store)) ino bytes
      (fresh n, fun i => (towers i).start) = .error (.abort abort) after) :
    4294967296 ≤ (bytes.length + 511) / 512 ∧ ∀ i, ¬ (towers i).HasRoom ino bytes := by
  obtain ⟨i, -, abort', t, habort⟩ := (copyIn_spread bytes).aborted hrun hlive
  have hlarge := (husable i).of_copyIn_abort habort
  exact ⟨hlarge, fun j hroom => Nat.not_le.mpr ((husable j).lt_of_hasRoom hroom) hlarge⟩

end Copy

/-- A byte string is copied into a mirror of one or more new towers that
can be used. The copy is acknowledged exactly if some member has room for
it, and then the string is read back and no other of its length is. The
members that were given up are exactly those that have no room, unless
the string has more blocks than there are numbers, on which the copy
may be aborted. -/
theorem copyIn_room (hn : 0 < n) (towers : Fin n → Tower) {ino : UInt32}
    (husable : ∀ i, (towers i).Usable ino) (bytes : List UInt8) :
    let mirror := store (Members.stores fun i => (towers i).store)
    let start : Mirror n × Members fun i => (towers i).State := (fresh n, fun i => (towers i).start)
    let result := Op.outcome (copyIn mirror ino bytes) start
    let after := Op.next (copyIn mirror ino bytes) start
    ((∃ k, result = .ok k) ↔ ∃ i, (towers i).HasRoom ino bytes) ∧
    ((∀ i, Row.at_ after.1.broken i = true ↔ ¬ (towers i).HasRoom ino bytes) ∨
      4294967296 ≤ (bytes.length + 511) / 512 ∧ ∃ abort, result = .error (.abort abort)) ∧
    ∀ k, result = .ok k → ∀ bytes', bytes'.length = bytes.length →
      Op.outcome (verify mirror ino bytes') after =
        if bytes' = bytes then .ok () else .error (.fault (.corrupted .contentDiffers)) := by
  intro mirror start result after
  have hlive : (fresh n).inUse ≠ [] := List.ne_nil_of_mem (mem_inUse_fresh ⟨0, hn⟩)
  cases hrun : copyIn mirror ino bytes start with
  | ok k s =>
    have hresult : result = .ok k := by simp only [result, Op.outcome, hrun]
    have hafter : after = s := by simp only [after, Op.next, hrun]
    obtain ⟨hcopied, hbroken⟩ := copied_of_copyIn_ok husable hlive hrun
    obtain ⟨i, hi⟩ := List.exists_mem_of_ne_nil _ hcopied.1
    have hroom : (towers i).HasRoom ino bytes := by
      by_contra hno
      cases (mem_inUse.mp hi).symm.trans ((hbroken i).mpr hno)
    rw [hresult, hafter]
    refine ⟨iff_of_true ⟨k, rfl⟩ ⟨i, hroom⟩, .inl hbroken, ?_⟩
    intro k' _ bytes' hlength
    refine verify_outcome hlength (fun m hm s hs => ?_) hcopied
    exact hs.read (fun i => (husable i).steady) ((husable i).lt_of_hasRoom hroom) hm
  | error stop s =>
    have hresult : result = .error stop := by simp only [result, Op.outcome, hrun]
    have hafter : after = s := by simp only [after, Op.next, hrun]
    have hnone : ¬ ∃ k, (.error stop : Except Stop UInt32) = .ok k := by
      rintro ⟨k, ⟨⟩⟩
    rw [hresult, hafter]
    cases stop with
    | fault fault =>
      have hfull := full_of_copyIn_fault husable hrun
      have hno : ¬ ∃ i, (towers i).HasRoom ino bytes := not_exists.mpr fun i => (hfull i).2
      refine ⟨iff_of_false hnone hno, .inl fun i => ?_, fun k hk => (hnone ⟨k, hk⟩).elim⟩
      exact iff_of_true (hfull i).1 (hfull i).2
    | abort abort =>
      obtain ⟨hlarge, hfull⟩ := large_of_copyIn_abort husable hlive hrun
      exact ⟨iff_of_false hnone (not_exists.mpr hfull), .inr ⟨hlarge, abort, rfl⟩,
        fun k hk => (hnone ⟨k, hk⟩).elim⟩

/-- A byte is copied into a mirror of two members, of which one has a
free block and the other none. The first is left, and tells the byte from
another one. -/
theorem copyIn_room_one_byte :
    ∃ towers : Fin 2 → Tower, 0 < 2 ∧ (∀ i, (towers i).Usable 1) ∧
      let mirror := store (Members.stores fun i => (towers i).store)
      let start : Mirror 2 × Members fun i => (towers i).State :=
        (fresh 2, fun i => (towers i).start)
      let after := Op.next (copyIn mirror 1 [7]) start
      (∃ k, Op.outcome (copyIn mirror 1 [7]) start = .ok k) ∧
      Row.at_ after.1.broken 0 = false ∧ Row.at_ after.1.broken 1 = true ∧
      Op.outcome (verify mirror 1 [7]) after = .ok () ∧
      Op.outcome (verify mirror 1 [8]) after = .error (.fault (.corrupted .contentDiffers)) := by
  obtain ⟨fits, m, hf⟩ := Volume.refines_zeros_four
  obtain ⟨fits', m', hf'⟩ := Volume.refines_zeros_seven
  let towers : Fin 2 → Tower := fun i =>
    ⟨.writeBack, 1, Nat.one_pos, ⟨0⟩, if i = 0 then m else m', fun _ => none⟩
  have husable : ∀ i, (towers i).Usable 1 := by
    rw [Fin.forall_fin_two]
    exact ⟨Tower.usable_of_refines rfl fits hf (by decide),
      Tower.usable_of_refines rfl fits' hf' (by decide)⟩
  have hroom : (towers 0).HasRoom 1 [7] :=
    (Tower.hasRoom_iff (t := towers 0) fits hf (by decide)).mpr (by decide)
  have hfull : ¬ (towers 1).HasRoom 1 [7] := fun hroom => by
    have hle := (Tower.hasRoom_iff (t := towers 1) fits' hf' (by decide)).mp hroom
    exact absurd hle (by decide)
  obtain ⟨hok, hbroken, hverify⟩ := copyIn_room (by decide) towers husable [7]
  have hbroken := hbroken.resolve_right fun hlarge => absurd hlarge.1 (by decide)
  obtain ⟨k, hk⟩ := hok.mpr ⟨0, hroom⟩
  refine ⟨towers, by decide, husable, ⟨k, hk⟩, ?_, (hbroken 1).mpr hfull, ?_, ?_⟩
  · exact Bool.eq_false_iff.mpr fun hflag => (hbroken 0).mp hflag hroom
  · exact (hverify k hk [7] rfl).trans (if_pos rfl)
  · exact (hverify k hk [8] rfl).trans (if_neg (by decide))

end Mirror

end BlockLayers
