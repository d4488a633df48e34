import BlockLayers.Proofs.Cache.Covered
import BlockLayers.Proofs.Cache.Faults
import BlockLayers.Proofs.Cache.Mimics
import BlockLayers.Proofs.Fat.Contained
import BlockLayers.Proofs.Fat.Intact
import BlockLayers.Proofs.Mirror.Spread

/-!
# `BlockLayers.Proofs.Durable`: an acknowledged copy is on the media

A byte string is copied into a mirror. Each member is a cache over a
volume over a store in memory any of whose calls may fail (`Tower`), and
the copy is acknowledged.

The proof goes down the layers. A member that is still in use has
acknowledged the copy itself (`Mirror.copyIn_member`). No layer turns a
failure below it into a success, so the member did what it would do over
a map of files (`Volume.follower`), which never fails half way. There
the cache keeps the contract, the sync settles the inode, and no other
inode was ever unsettled, so in the end the cache hides nothing
(`FileMap.copyIn_cached`).

Main statement: `copyIn_durable`, about what a look at the medium of a
member tells, past the cache and through a store that does not fail.
-/

set_option autoImplicit false

namespace BlockLayers

/-! ### From the mirror to its members -/

namespace Mirror

variable {n : Nat} {τ : Fin n → Type} {member : (i : Fin n) → Store (τ i)} {ino k : UInt32}
  {s after : Mirror n × Members τ} {i : Fin n}

/-- A copy that a mirror made was made by each member that is still in
use. -/
theorem copyIn_member {bytes : List UInt8}
    (hrun : copyIn (store (Members.stores member)) ino bytes s = .ok k after)
    (hlive : Row.at_ after.1.broken i = false) :
    copyIn (member i) ino bytes (s.2 i) = .ok k (after.2 i) :=
  (((copyIn_spread bytes).done hrun).did i (mem_inUse.mpr hlive)).2

end Mirror

/-! ### A cache over a map of files -/

namespace Fat

namespace FileMap

variable {f f' : FileMap} {n : Nat} {c : Cache n} {ino k : UInt32} {bytes : List UInt8}

/-- A resize through a cache reaches a file that is there. -/
theorem lt_count_of_cached {blocks before : UInt32} {s after : Cache n × FileMap}
    (hrun : Cache.store store (.resize ino blocks) s = .ok before after) : ino < s.2.count := by
  obtain ⟨_, s₁, hlower, -⟩ := Op.exists_of_bind_ok hrun
  obtain ⟨hresize, -⟩ := Op.of_lower_ok hlower
  refine UInt32.not_le.mp fun hle => ?_
  have hrefused : resize ino blocks s.2 = _ := within_refused hle
  cases hresize.symm.trans hrefused

/-- A cache over a map of files has no changed block, and shows what the
map has. -/
structure Flushed (s : Cache n × FileMap) : Prop where
  whole : s.2.Whole
  clean : s.1.ring.shelf.Clean
  covered : Cache.Covered s.2.plain.size (fun _ => False) s.1 s.2.plain s.2.plain

/-- A copy through a new cache over a map of files is in the map in the
end, and the cache hides nothing. -/
theorem copyIn_flushed (hf : f.Whole) {policy : Cache.Policy} {hn : 0 < n}
    (hrun : copyIn (Cache.store store) ino bytes (Cache.empty policy n hn, f) = .ok k (c, f')) :
    ino < f.count ∧ Flushed (c, f') ∧ f.plain.Replaced ino (Block.blocksOf bytes) f'.plain := by
  obtain ⟨_, s₁, hresize, -⟩ := Op.exists_of_bind_ok hrun
  have hino : ino < f.count := lt_count_of_cached hresize
  have hB := Cache.backing (n := n) (backing fun ino => ino.toNat < f.plain.size)
  have hallowed : ino.toNat < f.plain.size := by
    rw [size_plain]
    exact UInt32.lt_iff_toNat_lt.mp hino
  -- At the start every inode is settled, and all but one stay so throughout.
  have hstart : Cache.Covered f.plain.size (fun other => other ≠ ino) (Cache.empty policy n hn)
      f.plain f.plain := .empty policy hn _ f.plain
  obtain ⟨p, ⟨q, hcovered, hwhole, hq⟩, hp⟩ :=
    copyIn_holds hB hallowed (fun h => h rfl) ⟨f.plain, hstart, hf, rfl⟩ hrun
  -- In the end all are settled, no block of the cache is changed, and it shows what is below.
  have hclean := hcovered.clean_of_settled fun other _ => Decidable.em (other = ino)
  obtain rfl := hcovered.eq hclean
  obtain rfl : f'.plain = q := hq
  refine ⟨hino, ⟨hwhole, hclean, ?_⟩, hp⟩
  rw [show f'.plain.size = f.plain.size from hp.size_eq]
  exact hcovered.unsettle fun _ hno => hno.elim

/-- A copy through a new cache over a map of files leaves the blocks of
the byte string in its file, and every other file as it was. -/
theorem copyIn_cached (hf : f.Whole) {policy : Cache.Policy} {hn : 0 < n}
    (hrun : copyIn (Cache.store store) ino bytes (Cache.empty policy n hn, f) = .ok k (c, f')) :
    ino < f.count ∧ f'.file ino = Block.blocksOf bytes ∧
      ∀ other, other < f.count → other ≠ ino → f'.file other = f.file other := by
  obtain ⟨hino, -, hp⟩ := copyIn_flushed hf hrun
  have hcount : f'.count.toNat = f.count.toNat := by
    rw [← size_plain, hp.size_eq, size_plain]
  have hfile : ∀ other, other < f.count → ∀ j,
      (f'.file other)[j]? = f'.plain.at_ other.toNat j := by
    intro other hother j
    rw [at_plain_of_lt (UInt32.lt_iff_toNat_lt.mpr (hcount ▸ UInt32.lt_iff_toNat_lt.mp hother))]
  refine ⟨hino, List.ext_getElem? fun j => ?_,
    fun other hother hne => List.ext_getElem? fun j => ?_⟩
  · rw [hfile ino hino, hp.self]
  · rw [hfile other hother, hp.other _ _ fun heq => hne (UInt32.toNat_inj.mp heq),
      at_plain_of_lt hother]

end FileMap

/-! ### A volume over a store that fails -/

namespace Volume

variable {v : Volume} {plan : Plan} {size : Nat} {m m' : Memory} {f f' : FileMap}

/-- A volume over a store that fails does what a map of files does, as
long as it answers. -/
theorem follower (fits : plan.Usable size) (schedule : Nat → Option Fault) :
    Cache.Follower (fun (s : Nat × Memory) f => v.Refines plan size s.2 f)
      (v.store (Unsteady.store schedule Memory.store)) FileMap.store where
  store q := by
    rintro s f value after ⟨catalog, a, hs, hsound, hf⟩ hrun
    have hfollows :=
      (store_ends (Unsteady.memory_medium schedule v.medium size) fits hsound hs q).good_of hrun
    obtain ⟨catalog', a', f', hs', hsound', hrun', hf'⟩ := hfollows.matches hf
    exact ⟨f', hrun', catalog', a', hs', hsound', hf'⟩
  note _ _ _ h := h

/-- Where no call of the store below fails, a volume answers as the map
of its files does. -/
theorem steady_agrees (fits : plan.Usable size) (q : Request) :
    Op.Agrees (fun (s : Nat × Memory) f => v.Refines plan size s.2 f)
      (v.store (Unsteady.store (fun _ => none) Memory.store) q) (FileMap.store q) := by
  refine serve_agrees (Unsteady.memory_medium (fun _ => none) v.medium size) ?_ fits (.request q)
  rintro fault s ⟨-, hno | hno⟩
  · cases hno
  · exact hno

/-- So it answers as long as the map does. -/
theorem leader (fits : plan.Usable size) :
    Cache.Follower (fun f (s : Nat × Memory) => v.Refines plan size s.2 f) FileMap.store
      (v.store (Unsteady.store (fun _ => none) Memory.store)) where
  store q _ _ _ _ hf hrun := (steady_agrees fits q).of_ok hf hrun
  note _ _ _ h := h

/-- A file on a medium has the bytes of a string in `count` blocks, with
zeros behind their end. -/
structure HasBytes (v : Volume) (m : Memory) (ino count : UInt32) (bytes : List UInt8) : Prop where
  size : Op.outcome (v.store Memory.store (.size ino)) m = .ok count
  read : ∀ offset < count, Op.outcome (v.store Memory.store (.read ⟨ino, offset⟩)) m =
    .ok (Block.padded bytes offset.toNat)

/-- A file with the blocks of a byte string has its bytes. -/
theorem Refines.hasBytes (h : v.Refines plan size m f) (fits : plan.Usable size) {ino k : UInt32}
    {bytes : List UInt8} (hino : ino < f.count) (hfile : f.file ino = Block.blocksOf bytes)
    (hk : k.toNat = (bytes.length + 511) / 512) : v.HasBytes m ino k bytes where
  size := by
    rw [h.outcome fits, FileMap.outcome_size, if_neg (UInt32.not_le.mpr hino), hfile,
      Block.length_blocksOf, ← hk, UInt32.ofNat_toNat]
  read offset hoffset := by
    have hlt := UInt32.lt_iff_toNat_lt.mp hoffset
    rw [h.outcome fits, FileMap.outcome_read, if_neg (UInt32.not_le.mpr hino), hfile,
      Block.blocksOf, ← hk, List.getElem?_map, List.getElem?_range hlt]
    rfl

end Volume

end Fat

/-! ### All layers together -/

open Fat

/-- What a tower of layers is made of: a cache, a volume, and a store in
memory whose calls may fail. -/
structure Tower where
  /-- When the cache writes a changed block. -/
  policy : Cache.Policy
  /-- The number of slots of the cache. -/
  capacity : Nat
  capacity_pos : 0 < capacity
  /-- The volume below the cache. -/
  volume : Volume
  /-- The store at the bottom, as it is at the start. -/
  memory : Memory
  /-- The calls of that store that fail. -/
  schedule : Nat → Option Fault

namespace Tower

/-- The state of a tower. -/
abbrev State (t : Tower) : Type := Cache t.capacity × (Nat × Memory)

/-- A tower as a store. -/
def store (t : Tower) : Store t.State :=
  Cache.store (t.volume.store (Unsteady.store t.schedule Memory.store))

/-- A tower with a new cache. -/
def start (t : Tower) : t.State := Cache.fresh t.policy t.capacity_pos t.memory

/-- A copy that a tower acknowledged is on its medium, and nothing else
has changed there. -/
theorem hasBytes_of_copyIn (t : Tower) {counted : Occupancy} {m : Memory}
    (hcount : t.volume.occupancy Memory.store t.memory = .ok counted m) {ino k : UInt32}
    {bytes : List UInt8} {after : t.State} (hrun : copyIn t.store ino bytes t.start = .ok k after) :
    t.volume.HasBytes after.2.2 ino k bytes ∧
      ∀ other, other ≠ ino → t.volume.SameFile t.memory after.2.2 other := by
  -- The first call of a copy is a resize, and the cache passes it on.
  obtain ⟨_, s₁, hresize, -⟩ := Op.exists_of_bind_ok hrun
  obtain ⟨_, s₂, hlower, -⟩ := Op.exists_of_bind_ok hresize
  obtain ⟨plan, f, fits, hf⟩ := Volume.refines_of_resized hcount (Op.of_lower_ok hlower).1
  -- What was acknowledged over the volume is acknowledged over the map of its files.
  obtain ⟨⟨c, f'⟩, hrun', -, hf'⟩ := copyIn_mimics
    (Cache.store_mimics (Volume.follower fits t.schedule)) ino bytes t.start
    (Cache.empty t.policy t.capacity t.capacity_pos, f) k after ⟨rfl, hf⟩ hrun
  obtain ⟨hino, hfile, hothers⟩ := FileMap.copyIn_cached hf.whole hrun'
  have hino' : ino < f'.count := by rwa [hf'.count_eq, ← hf.count_eq]
  exact ⟨hf'.hasBytes fits hino' hfile (copyIn_toNat hrun), fun other hne =>
    hf.sameFile hf' fits fun hother => hothers other hother hne⟩

/-- Where no call fails, a tower acknowledges the copies that a new cache
over the map of its files acknowledges. -/
theorem exists_copyIn (t : Tower) (hschedule : t.schedule = fun _ => none) {plan : Plan}
    {size : Nat} (fits : plan.Usable size) {f : FileMap}
    (hf : t.volume.Refines plan size t.memory f) {ino k : UInt32} {bytes : List UInt8}
    {after : Cache t.capacity × FileMap}
    (hrun : copyIn (Cache.store FileMap.store) ino bytes
      (Cache.empty t.policy t.capacity t.capacity_pos, f) = .ok k after) :
    ∃ after', copyIn t.store ino bytes t.start = .ok k after' := by
  obtain ⟨after', hrun', -⟩ := copyIn_mimics (Cache.store_mimics (Volume.leader fits)) ino bytes _
    t.start k after ⟨rfl, hf⟩ hrun
  exact ⟨after', by rwa [store, hschedule]⟩

end Tower

namespace Mirror

/-- A byte string is copied into a mirror of new towers whose entries
were counted, whichever calls of the stores at the bottom fail, and the
copy is acknowledged. Then it tells how many blocks the string fills,
and on the medium of every member that was not given up the inode has
the bytes of the string and every other inode is as it was. -/
theorem copyIn_durable {n : Nat} (towers : Fin n → Tower)
    (hcount : ∀ i, ∃ counted, Op.outcome ((towers i).volume.occupancy Memory.store)
      (towers i).memory = .ok counted)
    {ino k : UInt32} {bytes : List UInt8} {after : Mirror n × Members fun i => (towers i).State}
    (hrun : copyIn (store (Members.stores fun i => (towers i).store)) ino bytes
      (fresh n, fun i => (towers i).start) = .ok k after) :
    k.toNat = (bytes.length + 511) / 512 ∧
      ∀ i, Row.at_ after.1.broken i = false →
        (towers i).volume.HasBytes (after.2 i).2.2 ino k bytes ∧
          ∀ other, other ≠ ino →
            (towers i).volume.SameFile (towers i).memory (after.2 i).2.2 other := by
  refine ⟨copyIn_toNat hrun, fun i hlive => ?_⟩
  obtain ⟨counted, houtcome⟩ := hcount i
  obtain ⟨m, hcounted⟩ := Op.exists_of_outcome_ok houtcome
  exact (towers i).hasBytes_of_copyIn hcounted (copyIn_member hrun hlive)

/-- A mirror with one member does what the member does, as long as it
answers. -/
theorem sole_mimics {τ : Fin 1 → Type} (member : (i : Fin 1) → Store (τ i)) (q : Request) :
    Op.Mimics (fun t (s : Mirror 1 × Members τ) => s.1 = fresh 1 ∧ s.2 0 = t) (member 0 q)
      (store (Members.stores member) q) := by
  rintro _ ⟨_, s⟩ value after ⟨rfl, rfl⟩ hx
  refine ⟨(fresh 1, Function.update s 0 after), ?_, rfl, Function.update_self (0 : Fin 1) after s⟩
  have hsole : (fresh 1).inUse = [0] := rfl
  have hask := ask_apply (fun i => member i q) (fresh 1) s 0
  rw [hx] at hask
  cases q <;>
    simp only [store, Op.bind_apply, Op.own, hsole, askAll, askFirst, readFirst, Members.stores] <;>
    rw [hask] <;> rfl

/-- A byte is copied into a mirror of one member, with a cache of one
slot over a new volume of four blocks. -/
theorem copyIn_durable_one_byte :
    ∃ (t : Tower) (after : Mirror 1 × Members fun _ => t.State),
      (∃ counted, Op.outcome (t.volume.occupancy Memory.store) t.memory = .ok counted) ∧
      copyIn (store (Members.stores fun _ => t.store)) 0 [7] (fresh 1, fun _ => t.start) =
        .ok 1 after ∧
      t.volume.HasBytes (after.2 0).2.2 0 1 [7] ∧
      ∀ other, other ≠ 0 → t.volume.SameFile t.memory (after.2 0).2.2 other := by
  obtain ⟨m, data, -, hkeeps⟩ := Volume.format_zeros_keeps
  have fits : (⟨1, 1, 1⟩ : Plan).Fits 4 :=
    ⟨⟨⟨by decide, by decide, by decide, by decide⟩, by decide, by decide⟩, by decide⟩
  have hsound := Volume.fresh_sound fits.toDivides data
  have hmatches := Volume.fresh_matches ⟨1, 1, 1⟩ data
  let t : Tower := ⟨.writeBack, 1, Nat.one_pos, ⟨0⟩, m, fun _ => none⟩
  obtain ⟨counted, m', hcounted, -⟩ := (Volume.occupancy_ends (v := ⟨0⟩) (Memory.medium 0 4)
    fits.toUsable hsound hmatches hkeeps).ok fun _ _ hno => hno.2
  have hmap : Op.outcome (copyIn (Cache.store FileMap.store) 0 [7])
      (Cache.empty .writeBack 1 Nat.one_pos, FileMap.empty (1 * 64) 1) = .ok 1 := by
    decide +kernel
  obtain ⟨_, hmap⟩ := Op.exists_of_outcome_ok hmap
  obtain ⟨after', htower⟩ := t.exists_copyIn rfl fits.toUsable ⟨_, _, hkeeps, hsound, hmatches⟩ hmap
  obtain ⟨after, hrun, hfresh, -⟩ := copyIn_mimics (sole_mimics fun _ => t.store) 0 [7] t.start
    (fresh 1, fun _ => t.start) 1 after' ⟨rfl, rfl⟩ htower
  have hcount : ∃ counted, Op.outcome (t.volume.occupancy Memory.store) t.memory = .ok counted :=
    ⟨counted, by rw [Op.outcome, hcounted]⟩
  obtain ⟨-, hmembers⟩ := copyIn_durable (fun _ => t) (fun _ => hcount) hrun
  exact ⟨t, after, hcount, hrun, hmembers 0 (by rw [hfresh]; rfl)⟩

end Mirror

end BlockLayers
