import BlockLayers.Proofs.Cache.Acked
import BlockLayers.Proofs.Cache.Calls
import BlockLayers.Proofs.Run
import BlockLayers.Proofs.Unsteady

/-!
# `BlockLayers.Proofs.Cache.Faults`: a cache over a store that fails

A cache stands over a store in memory, any of whose calls may fail.
After any requests it agrees with the account of what succeeded
(`Follows`): it shows what the account says, and every place that was
written last has a block, on the shelf or below.

Main statement: `read_acked`. A read answers what the account says, and
a read of a block that was written fails only with a call of the store
below.
-/

set_option autoImplicit false

namespace BlockLayers.Cache

open BlockLayers.Cache.Shelf

/-! ### Places that can be read -/

namespace Shelf

variable {n : Nat} {K : Shelf n} {p : Plain} {s : Fin n} {a : Address} {i k : Nat}

/-- A place has a block: a changed one, or one below. -/
def Has (K : Shelf n) (p : Plain) (i k : Nat) : Prop := ¬ K.Unchanged i k ∨ p.at_ i k ≠ none

/-- A block that can be read can be read after a write below. -/
theorem Has.write (h : K.Has p i k) (block : Block) (hino : a.ino.toNat < p.size) :
    K.Has (p.write a block) i k := by
  refine h.imp_right fun hp => ?_
  obtain ⟨kept, hkept⟩ := Option.ne_none_iff_exists'.mp hp
  by_cases hat : i = a.ino.toNat ∧ k = a.offset.toNat
  · rw [Plain.at_write block hino, if_pos hat]
    exact Option.some_ne_none _
  · rw [Plain.at_write_of_some block hino hkept hat]
    exact Option.some_ne_none _

/-- A block that can be read can be read after another was put in its
place. -/
theorem Has.set (h : K.Has p i k) (hplace : K.Place s a) (block : Block) :
    Has (Function.update K s (some ⟨a, block, true⟩)) p i k :=
  h.imp_left fun hchanged => hplace.changed_set hchanged

/-- A block that can be read can be read after a resize that does not cut
it off. -/
theorem Has.resize (h : K.Has p i k) {ino : UInt32} (blocks : UInt32) (hino : ino.toNat < p.size)
    (hin : ¬ (i = ino.toNat ∧ blocks.toNat ≤ k)) :
    (K.dropFrom ino blocks).Has (p.resize ino blocks) i k := by
  rcases h with hchanged | hp
  · exact .inl fun hu => hchanged fun block hd => hu block (dirty_dropFrom.mpr ⟨hin, hd⟩)
  · obtain ⟨kept, hkept⟩ := Option.ne_none_iff_exists'.mp hp
    refine .inr ?_
    rw [Plain.at_resize_of_some blocks hino hkept hin]
    exact Option.some_ne_none _

/-- Moves take no block away. -/
theorem Has.moves {q q' : Shelf n × Plain} (h : Has q.1 q.2 i k) (hover : Over q.1 q.2)
    (hmoves : Moves q q') : Has q'.1 q'.2 i k := by
  induction hmoves with
  | refl => exact h
  | tail hmoves hmove ih =>
    have hover := hover.moves hmoves
    cases hmove with
    | @flush K p s x hs hdirty hino =>
      -- The block that was written below is there now; all others are where they were.
      by_cases hat : i = x.key.ino.toNat ∧ k = x.key.offset.toNat
      · refine .inr ?_
        rw [Plain.at_write x.data hino, if_pos hat]
        exact Option.some_ne_none _
      · exact (ih.write x.data hino).imp_left fun hchanged hu =>
          hchanged fun block hd => hu block ((hover.dirty_flush hs).mpr ⟨hat, hd⟩)
    | evict hs hclean =>
      exact ih.imp_left fun hchanged hu =>
        hchanged fun block hd => hu block ((dirty_evict hs hclean).mpr hd)
    | load hs =>
      exact ih.imp_left fun hchanged hu =>
        hchanged fun block hd => hu block ((dirty_load hs).mpr hd)

end Shelf

/-! ### The calls -/

variable {n : Nat} {schedule : Nat → Option Fault}

/-- A cache over a store in memory agrees with the account. -/
structure Follows (size : Nat) (s : Cache n × (Nat × Memory)) (v : Acked) : Prop where
  /-- The store below is not dead. -/
  alive : s.2.2.dead = false
  /-- The cache shows what the account says. -/
  shows : s.1.ring.shelf.Shows s.2.2.inodes v.view
  /-- Nothing is changed in a cache that writes at once. -/
  clean : s.1.policy = .writeThrough → s.1.ring.shelf.Clean
  /-- What was written last can be read. -/
  has : ∀ i k, v.last i k ≠ none → s.1.ring.shelf.Has s.2.2.inodes i k
  /-- The account agrees with itself. -/
  agrees : v.Agrees
  size_below : s.2.2.inodes.size = size
  size_plain : v.plain.size = size

/-- The contract of the store below, from the state `s` on. -/
theorem faulty_backing (schedule : Nat → Option Fault) (s : Nat × Memory) :
    Backing (Unsteady.store schedule Memory.store) (fun _ => True)
      (fun p a => Unsteady.Failed schedule s.1 (Memory.Missing p a))
      (fun p ino => Unsteady.Failed schedule s.1 (Memory.NoInode p ino))
      (fun settled s' p => s.1 ≤ s'.1 ∧ Memory.Healthy settled s'.2 p) :=
  Unsteady.backing Memory.backing s.1

variable {size : Nat} {s after : Cache n × (Nat × Memory)} {v : Acked}

/-- No changed block is settled. -/
theorem free_unsettled {K : Shelf n} : K.Free (fun _ => True) fun _ => False :=
  fun _ _ _ _ => ⟨trivial, fun hno => hno⟩

/-- Moves leave everything as it is said. -/
theorem Follows.reached (h : Follows size s v) {p : Plain} {start : Nat}
    (hreached : Reached (fun settled s' p => start ≤ s'.1 ∧ Memory.Healthy settled s'.2 p)
      (fun _ => False) s.1 s.2.2.inodes after p) : Follows size after v := by
  obtain ⟨hpolicy, hmoves, -, halive, rfl⟩ := hreached
  exact {
    alive := halive
    shows := h.shows.moves hmoves
    clean := fun hthrough => (h.clean (hpolicy ▸ hthrough)).moves hmoves
    has := fun i k hlast => (h.has i k hlast).moves h.shows.toOver hmoves
    agrees := h.agrees
    size_below := (moves_size hmoves).trans h.size_below
    size_plain := h.size_plain }

/-- A call that fails and moves nothing. -/
theorem Follows.failed (h : Follows size s v) (hpolicy : after.1.policy = s.1.policy)
    (hshelf : after.1.ring.shelf = s.1.ring.shelf) {settled : UInt32 → Prop}
    (hhealthy : Memory.Healthy settled after.2.2 s.2.2.inodes) : Follows size after v :=
  h.reached ⟨hpolicy, hshelf ▸ .refl, (Nat.zero_le _ : 0 ≤ after.2.1), hhealthy⟩

/-- A write that stays in the cache. -/
theorem Follows.write_back (h : Follows size s v) {K : Shelf n} {p : Plain} {i : Fin n}
    {a : Address} {block : Block} (hpolicy : after.1.policy = .writeBack)
    (hmoves : Moves (s.1.ring.shelf, s.2.2.inodes) (K, p)) (hplace : K.Place i a)
    (hshelf : after.1.ring.shelf = Function.update K i (some ⟨a, block, true⟩))
    {settled : UInt32 → Prop} (hhealthy : Memory.Healthy settled after.2.2 p) :
    Follows size after (v.step ⟨.write a block, .ok ()⟩) := by
  obtain ⟨halive, rfl⟩ := hhealthy
  have hsize := (moves_size hmoves).trans h.size_below
  have hview := h.shows.moves hmoves
  refine ⟨halive, ?_, fun hthrough => ?_, fun j k hlast => ?_, h.agrees.write a block (), hsize,
    (Plain.size_write ..).trans h.size_plain⟩
  · rw [hshelf]
    refine hview.set hplace (v.view_write_self a block ())
      (fun _ _ hat => Acked.view_write_of_ne h.agrees a block () hat) fun j k k' hj => ?_
    refine (h.agrees.write a block ()).whole ?_
    exact Nat.lt_of_lt_of_eq hj (hsize.trans ((Plain.size_write ..).trans h.size_plain).symm)
  · rw [hpolicy] at hthrough
    cases hthrough
  · rw [hshelf]
    dsimp only [Acked.step] at hlast
    split at hlast
    · rename_i hat
      exact .inl (hat.1 ▸ hat.2 ▸ hplace.changed_set_self block)
    · exact ((h.has j k hlast).moves h.shows.toOver hmoves).set hplace block

/-- A write that goes below at once. -/
theorem Follows.write_through (h : Follows size s v) {K : Shelf n} {p : Plain}
    {a : Address} {block : Block} (hthrough : s.1.policy = .writeThrough)
    (hino : a.ino.toNat < s.2.2.inodes.size)
    (hmoves : Moves (s.1.ring.shelf, s.2.2.inodes) (K, s.2.2.inodes)) (hlacks : K.Lacks a)
    (hmoves' : Moves (K, Plain.write a block s.2.2.inodes) (after.1.ring.shelf, p))
    {settled : UInt32 → Prop} (hhealthy : Memory.Healthy settled after.2.2 p) :
    Follows size after (v.step ⟨.write a block, .ok ()⟩) := by
  obtain ⟨halive, rfl⟩ := hhealthy
  have hclean := (h.clean hthrough).moves hmoves
  have hplain : a.ino.toNat < v.plain.size :=
    Nat.lt_of_lt_of_eq hino (h.size_below.trans h.size_plain.symm)
  -- The write lands on a shelf without changed blocks, and the block comes in after it.
  have hview := (h.shows.moves hmoves).write hclean hlacks hino
    (Acked.view_write h.agrees hplain block ())
  have hclean' := Clean.moves (q := (K, Plain.write a block s.2.2.inodes)) hclean hmoves'
  refine ⟨halive, hview.moves hmoves', fun _ => hclean', fun j k hlast => ?_,
    h.agrees.write a block (), ?_, (Plain.size_write ..).trans h.size_plain⟩
  · refine Has.moves ?_ hview.toOver hmoves'
    dsimp only [Acked.step] at hlast
    split at hlast
    · rename_i hat
      refine .inr ?_
      rw [Plain.at_write block hino, if_pos hat]
      exact Option.some_ne_none _
    · exact ((h.has j k hlast).moves h.shows.toOver hmoves).write block hino
  · exact (moves_size hmoves').trans ((Plain.size_write ..).trans h.size_below)

/-- An inode is resized. -/
theorem Follows.resize (h : Follows size s v) {ino blocks : UInt32}
    (hpolicy : after.1.policy = s.1.policy) (hino : ino.toNat < s.2.2.inodes.size)
    (hshelf : after.1.ring.shelf = s.1.ring.shelf.dropFrom ino blocks) {settled : UInt32 → Prop}
    (hhealthy : Memory.Healthy settled after.2.2 (Plain.resize ino blocks s.2.2.inodes))
    (answer : UInt32) : Follows size after (v.step ⟨.resize ino blocks, .ok answer⟩) := by
  obtain ⟨halive, hinodes⟩ := hhealthy
  have hplain : ino.toNat < v.plain.size :=
    Nat.lt_of_lt_of_eq hino (h.size_below.trans h.size_plain.symm)
  refine ⟨halive, ?_, fun hthrough i x hi => ?_, fun j k hlast => ?_,
    h.agrees.resize hplain blocks answer, ?_, (Plain.size_resize ..).trans h.size_plain⟩
  · rw [hshelf, hinodes]
    exact h.shows.resize hino (Acked.view_resize h.agrees hplain blocks answer)
  · rw [hshelf] at hi
    exact h.clean (hpolicy ▸ hthrough) i x (dropFrom_eq_some.mp hi).1
  · rw [hshelf, hinodes]
    dsimp only [Acked.step] at hlast
    split at hlast
    · exact (hlast rfl).elim
    · exact (h.has j k hlast).resize blocks hino ‹_›
  · rw [hinodes]
    exact (Plain.size_resize ..).trans h.size_below

/-- Every call keeps the account, whether or not calls of the store below
fail. -/
theorem Follows.next (h : Follows size s v) (q : Request) :
    Follows size (Op.next (store (Unsteady.store schedule Memory.store) q) s)
      (v.step ⟨q, Op.outcome (store (Unsteady.store schedule Memory.store) q) s⟩) := by
  obtain ⟨c, s⟩ := s
  -- The contract of the store is taken from this state on: later calls have higher numbers.
  have hB := faulty_backing schedule s
  have hs : s.1 ≤ s.1 ∧ Memory.Healthy (fun _ => False) s.2 s.2.inodes :=
    ⟨Nat.le_refl _, h.alive, rfl⟩
  have hkept : ∀ {settled : UInt32 → Prop} {s' : Nat × Memory},
      Memory.Healthy settled s'.2 s.2.inodes → Follows size (c, s') v :=
    fun hhealthy => h.failed rfl rfl hhealthy
  cases q with
  | capacity =>
    exact Op.Ends.next (fun after => Follows size after v) (Op.Ends.lower
      ((hB.capacity hs).mono (fun _ _ hafter => hkept hafter.2) fun _ _ hafter => hkept hafter.2))
  | size ino =>
    exact Op.Ends.next (fun after => Follows size after v) (Op.Ends.lower
      ((hB.size ino hs).mono (fun _ _ hafter => hkept hafter.2) fun _ _ hafter => hkept hafter.2))
  | read a =>
    refine Op.Ends.next (fun after => Follows size after v)
      ((read_ends hB free_unsettled hs a).mono ?_ ?_)
    · intro _ after hafter
      obtain ⟨⟨p, hreached⟩, -⟩ := hafter
      exact h.reached hreached
    · intro _ after hafter
      obtain ⟨⟨p, hreached⟩, -⟩ := hafter
      exact h.reached hreached
  | sync ino =>
    refine Op.Ends.next (fun after => Follows size after v)
      ((sync_ends hB h.clean free_unsettled hs ino trivial).mono ?_ ?_)
    · intro _ after hafter
      obtain ⟨⟨p, hpolicy, hmoves, hstart, hhealthy⟩, -⟩ := hafter
      exact h.reached ⟨hpolicy, hmoves, hstart, hhealthy⟩
    · intro _ after hafter
      obtain ⟨⟨p, hreached⟩, -⟩ := hafter
      exact h.reached hreached
  | resize ino blocks =>
    obtain ⟨answer, hanswer, hafter⟩ | ⟨fault, hfault, hafter⟩ :=
      (resize_ends (c := c) hB hs ino blocks trivial fun hno => hno).outcome_next
    · obtain ⟨hpolicy, hino, hshelf, -, hhealthy⟩ := hafter
      rw [show Op.outcome (store _ (.resize ino blocks)) (c, s) = .ok answer from hanswer]
      exact h.resize hpolicy hino hshelf hhealthy answer
    · obtain ⟨hc, ⟨-, hhealthy⟩, -⟩ := hafter
      rw [show Op.outcome (store _ (.resize ino blocks)) (c, s) = _ from hfault]
      exact h.failed (congrArg _ hc) (congrArg (fun c : Cache n => c.ring.shelf) hc) hhealthy
  | write a block =>
    cases hpolicy : c.policy with
    | writeBack =>
      obtain ⟨answer, hanswer, hafter⟩ | ⟨fault, hfault, hafter⟩ :=
        (write_back_ends hB hpolicy h.shows.toOver free_unsettled hs a block).outcome_next
      · obtain ⟨hpolicy', K, p, i, hmoves, hplace, hshelf, -, hhealthy⟩ := hafter
        rw [show Op.outcome (store _ (.write a block)) (c, s) = .ok answer from hanswer]
        exact h.write_back (hpolicy'.trans hpolicy) hmoves hplace hshelf hhealthy
      · obtain ⟨hpolicy', hshelf, ⟨-, hhealthy⟩, -⟩ := hafter
        rw [show Op.outcome (store _ (.write a block)) (c, s) = _ from hfault]
        exact h.failed hpolicy' hshelf hhealthy
    | writeThrough =>
      obtain ⟨answer, hanswer, hafter⟩ | ⟨fault, hfault, hafter⟩ :=
        (write_through_ends hB hpolicy h.shows.toOver (h.clean hpolicy) hs a block trivial
          fun hno => hno).outcome_next
      · obtain ⟨-, hino, K, p, hmoves, hlacks, hmoves', -, hhealthy⟩ := hafter
        rw [show Op.outcome (store _ (.write a block)) (c, s) = .ok answer from hanswer]
        exact h.write_through hpolicy hino hmoves hlacks hmoves' hhealthy
      · obtain ⟨hpolicy', hshelf, ⟨-, hhealthy⟩, -⟩ := hafter
        rw [show Op.outcome (store _ (.write a block)) (c, s) = _ from hfault]
        exact h.failed hpolicy' hshelf hhealthy

/-! ### Reads -/

/-- A new cache over a store in memory that has answered no call. -/
def fresh (policy : Policy) (hn : 0 < n) (m : Memory) : Cache n × (Nat × Memory) :=
  (empty policy n hn, (0, m))

/-- The account of some requests to a new cache. -/
def account (schedule : Nat → Option Fault) (policy : Policy) (hn : 0 < n) (m : Memory)
    (requests : List Request) : Acked :=
  (Op.outcomes (store (Unsteady.store schedule Memory.store)) requests
    (fresh policy hn m)).foldl Acked.step (Acked.start m.inodes)

/-- A new cache shows what is below. -/
theorem fresh_follows (policy : Policy) (hn : 0 < n) {m : Memory} (hm : m.dead = false) :
    Follows m.inodes.size (fresh policy hn m) (Acked.start m.inodes) := by
  have hempty := Ring.shelf_empty n hn
  refine ⟨hm, Shows.empty hempty m.inodes, fun _ s x hs => ?_, fun i k hlast => (hlast rfl).elim,
    fun i k block _ hlast => ?_, rfl, rfl⟩
  · cases (hempty s).symm.trans hs
  · cases hlast

/-- After any requests to a new cache, whichever calls of the store below
fail, a read that succeeds answers the latest write that did, or the
block that the store would have without a cache. A read of a block that
was written fails only with the last call that it made below: one that
had to fail, or the write of a block to an inode that is not there. -/
theorem read_acked (policy : Policy) (hn : 0 < n) (schedule : Nat → Option Fault) {m : Memory}
    (hm : m.dead = false) (requests : List Request) (a : Address) :
    let serve := store (n := n) (Unsteady.store schedule Memory.store)
    let s := Op.after serve requests (fresh policy hn m)
    let v := account schedule policy hn m requests
    (∀ block, Op.outcome (serve (.read a)) s = .ok block →
      (v.latest a).or (v.plain.block? a) = some block) ∧
    ∀ stop, Op.outcome (serve (.read a)) s = .error stop → v.latest a ≠ none →
      ∃ fault, stop = .fault fault ∧ Unsteady.Failed schedule s.2.1
        (fun fault _ => ∃ ino : UInt32, m.inodes.size ≤ ino.toNat ∧
          fault = .noInode ino (UInt32.ofNat m.inodes.size))
        fault (Op.next (serve (.read a)) s).2 := by
  intro serve s v
  -- The account holds after the requests, by induction over them.
  have h : Follows m.inodes.size s v :=
    Op.outcomes_invariant (Follows m.inodes.size) Acked.step (fun q s v h => h.next q) requests
      (fresh_follows policy hn hm)
  have hs : s.2.1 ≤ s.2.1 ∧ Memory.Healthy (fun _ => False) s.2.2 s.2.2.inodes :=
    ⟨Nat.le_refl _, h.alive, rfl⟩
  obtain ⟨block, hblock, -, hseen⟩ | ⟨fault, hfault, -, hlacks, hfailed⟩ :=
    (read_ends (faulty_backing schedule s.2) free_unsettled hs a).outcome_next
  · refine ⟨fun block' hblock' => ?_, fun stop hstop => ?_⟩
    · cases hblock.symm.trans hblock'
      -- The block was in a slot, or none kept it and it is the one below.
      rcases hseen with ⟨i, x, hi, rfl, rfl⟩ | ⟨hlacks, hbelow⟩
      · exact h.shows.held hi
      · exact h.shows.lacked hlacks hbelow
    · cases hblock.symm.trans hstop
  · refine ⟨fun block' hblock' => ?_, fun stop hstop hlast => ⟨fault, ?_, ?_⟩⟩
    · cases hfault.symm.trans hblock'
    · cases hfault.symm.trans hstop
      rfl
    · -- The read below failed, or the write of the block that was to make room.
      obtain ⟨hcalls, hscheduled | hmissing⟩ | ⟨i, x, -, -, hcalls, hscheduled | hrefused⟩ :=
        hfailed
      · exact ⟨hcalls, .inl hscheduled⟩
      · -- What was written is not missing below when no slot keeps it.
        rcases h.has _ _ hlast with hchanged | hhas
        · exact (hchanged hlacks.unchanged).elim
        · exact (hhas hmissing).elim
      · exact ⟨hcalls, .inl hscheduled⟩
      · obtain ⟨hino, hfault⟩ := hrefused
        rw [h.size_below] at hino hfault
        exact ⟨hcalls, .inr ⟨x.key.ino, hino, hfault⟩⟩

/-- A cache of one slot over a store that fails its first call. The
second write needs the slot and fails, and a read answers the first. -/
theorem read_acked_one_slot :
    let schedule := fun call => if call = 0 then some Fault.io else none
    let requests := [.write ⟨0, 0⟩ (Block.fill 1), .write ⟨0, 1⟩ (Block.fill 2)]
    let serve := store (n := 1) (Unsteady.store schedule Memory.store)
    let s := Op.after serve requests (fresh .writeBack Nat.one_pos (Memory.empty 1))
    let v := account schedule .writeBack Nat.one_pos (Memory.empty 1) requests
    Op.outcome (serve (.read ⟨0, 0⟩)) s = .ok (Block.fill 1) ∧
    (∀ block, Op.outcome (serve (.read ⟨0, 0⟩)) s = .ok block →
      (v.latest ⟨0, 0⟩).or (v.plain.block? ⟨0, 0⟩) = some block) ∧
    ∀ stop, Op.outcome (serve (.read ⟨0, 0⟩)) s = .error stop → v.latest ⟨0, 0⟩ ≠ none →
      ∃ fault, stop = .fault fault ∧ Unsteady.Failed schedule s.2.1
        (fun fault _ => ∃ ino : UInt32, (Memory.empty 1).inodes.size ≤ ino.toNat ∧
          fault = .noInode ino (UInt32.ofNat (Memory.empty 1).inodes.size))
        fault (Op.next (serve (.read ⟨0, 0⟩)) s).2 :=
  ⟨rfl, read_acked .writeBack Nat.one_pos (fun call => if call = 0 then some .io else none) rfl
    [.write ⟨0, 0⟩ (Block.fill 1), .write ⟨0, 1⟩ (Block.fill 2)] ⟨0, 0⟩⟩

end BlockLayers.Cache
