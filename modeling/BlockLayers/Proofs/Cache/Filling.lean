import BlockLayers.Proofs.Cache.Sweep
import BlockLayers.Proofs.Cache.Ways
import BlockLayers.Proofs.Unsteady
import Mathlib.Data.Fintype.Fin

/-!
# `BlockLayers.Proofs.Cache.Filling`: nothing is given up before the cache is full

A cache does not look for an empty slot when it takes a block in. That it
finds one as long as there is one follows from what holds while no inode
is resized (`Filling`): the slots are filled from the first on, one for
each address that was used, and the hand is at the last of them, whose
mark is set. So the next sweep passes that slot and stops at the first
empty one. Hits set marks, and syncs and failed calls leave them alone.

The store below may fail or abort any call.

Main statement: `resident_after`, the number of blocks in a cache after
any list of requests, and that up to the size of the cache every address
that was used is a hit.
-/

set_option autoImplicit false

namespace BlockLayers.Cache

variable {σ : Type} {n : Nat} {keys : Finset Address} {r : Ring n} {a : Address}

/-! ### Counting slots -/

/-- The places of a row, from the first to the last. -/
theorem toList_eq_map {α : Type} (row : Row α n) :
    row.toList = (List.finRange n).map (Row.at_ row) := by
  apply List.ext_getElem
  · simp
  · intro i hi hi'
    simp [Row.at_, Vector.get]

/-- The number of places of a row at which something holds. -/
theorem countP_toList {α : Type} (row : Row α n) (p : α → Bool) :
    row.toList.countP p = (Finset.univ.filter fun i => p (Row.at_ row i) = true).card := by
  have hcard : (Finset.univ.filter fun i => p (Row.at_ row i) = true).card =
      ((List.finRange n).filter fun i => decide (p (Row.at_ row i) = true)).length := rfl
  rw [hcard, toList_eq_map, List.countP_map, List.countP_eq_length_filter]
  simp [Function.comp_def]

/-! ### The state of the slots -/

/-- The slots of a cache that has answered requests to some addresses. -/
structure Filling (keys : Finset Address) (r : Ring n) : Prop where
  /-- The slots are filled from the first on, and as far as there are addresses. -/
  filled : ∀ i, (r.shelf i).isSome = true ↔ i.val < keys.card
  /-- What is in the slots are blocks of these addresses. -/
  known : ∀ i x, r.shelf i = some x → x.key ∈ keys
  /-- Unless there are more addresses than slots, none of them is given up. -/
  held : keys.card ≤ n → ∀ a ∈ keys, ¬ r.shelf.Lacks a
  /-- The hand is at the last filled slot as long as there are empty ones. -/
  hand : keys.card < n → r.hand.val = keys.card - 1
  /-- The slot at the hand is marked, if it is filled. -/
  marked : keys.card < n → 0 < keys.card → r.marked r.hand = true

/-- A new cache has answered nothing, and its slots are empty. -/
theorem filling_empty (h : 0 < n) : Filling ∅ (Ring.empty n h) where
  filled i := by simp [Ring.shelf_empty]
  known i x hi := by simp [Ring.shelf_empty] at hi
  held _ a ha := by simp at ha
  hand _ := rfl
  marked _ hpos := by simp at hpos

/-- An empty slot has no mark. -/
theorem marked_of_shelf_none {i : Fin n} (h : r.shelf i = none) : r.marked i = false := by
  rw [Ring.marked, Option.map_eq_none_iff.mp h]

namespace Filling

/-- The slot behind the filled ones is empty. -/
theorem shelf_none (h : Filling keys r) {i : Fin n} (hi : i.val = keys.card) :
    r.shelf i = none := by
  have hfree : ¬ (r.shelf i).isSome = true := by
    rw [h.filled i]
    omega
  simpa using hfree

/-- As many slots are filled as there are addresses, or all of them. -/
theorem resident (h : Filling keys r) : r.resident = min n keys.card := by
  have hslots : (Finset.univ.filter fun i => (Row.at_ r.slots i).isSome = true) =
      Finset.univ.filter fun i : Fin n => i.val < keys.card := by
    ext i
    simpa [Ring.shelf] using h.filled i
  rw [Ring.resident, countP_toList, hslots, Fin.card_filter_val_lt]

/-- An address without a slot is a new one, unless there are more
addresses than slots. -/
theorem not_mem_of_lacks (h : Filling keys r) (hle : keys.card ≤ n) (ha : r.shelf.Lacks a) :
    a ∉ keys := fun hmem => h.held hle a hmem ha

/-- As long as there is an empty slot, the hand stops at the first. -/
theorem victim_hand (h : Filling keys r) (hroom : keys.card < n) :
    r.victim.hand.val = keys.card := by
  have hstop : ∀ {i : Fin n}, i.val = keys.card → r.dial.marks i = false :=
    fun hi => marked_of_shelf_none (h.shelf_none hi)
  have hhand := h.hand hroom
  by_cases hzero : keys.card = 0
  · -- No slot is filled, and the hand is at the first.
    have hat : (Dial.ahead r.hand 0).val = keys.card := by
      rw [Dial.ahead_zero]
      omega
    have hpasses : r.dial.Passes 0 := ⟨Nat.zero_le n, fun k hk => by omega, fun _ => hstop hat⟩
    show r.victim.dial.hand.val = _
    rw [Ring.dial_victim hpasses, Dial.hand_iterate]
    exact hat
  · -- The hand passes the last filled slot.
    have hat : (Dial.ahead r.hand 1).val = keys.card := by
      show (r.hand.val + 1) % n = _
      rw [Nat.mod_eq_of_lt (by omega)]
      omega
    have hpasses : r.dial.Passes 1 := by
      refine ⟨by omega, fun k hk => ?_, fun _ => hstop hat⟩
      have hk : k = 0 := by omega
      subst hk
      rw [Dial.ahead_zero]
      exact h.marked hroom (Nat.pos_of_ne_zero hzero)
    show r.victim.dial.hand.val = _
    rw [Ring.dial_victim hpasses, Dial.hand_iterate]
    exact hat

/-- In a full cache it does not matter where the hand is. -/
theorem victim (h : Filling keys r) (hfull : n ≤ keys.card) : Filling keys r.victim where
  filled := by
    rw [Ring.shelf_victim]
    exact h.filled
  known := by
    rw [Ring.shelf_victim]
    exact h.known
  held := by
    rw [Ring.shelf_victim]
    exact h.held
  hand hroom := by omega
  marked hroom := by omega

/-- A slot gets another line for the same address, and keeps its mark. -/
theorem put (h : Filling keys r) {i : Fin n} {old line : Line}
    (hslot : Row.at_ r.slots i = some old) (hkey : line.key = old.key)
    (hmark : old.referenced = true → line.referenced = true) :
    Filling keys (r.put i (some line)) := by
  have hold : r.shelf i = some old.kept := Ring.shelf_eq hslot
  have hnew : (r.put i (some line)).shelf = Function.update r.shelf i (some line.kept) :=
    r.shelf_put i _
  -- The slots are filled as before and with blocks of the same addresses. What is looked at one by
  -- one is the slot that has changed.
  refine ⟨fun j => ?_, fun j x hj => ?_, fun hle a ha hlacks => h.held hle a ha ?_, h.hand, ?_⟩
  · rw [← h.filled j, hnew]
    by_cases hj : j = i
    · subst hj
      simp [hold]
    · simp [Function.update_of_ne hj]
  · rw [hnew] at hj
    rcases Shelf.update_eq_some hj with ⟨-, hx⟩ | ⟨-, hj⟩
    · cases hx
      show line.key ∈ keys
      rw [hkey]
      exact h.known i _ hold
    · exact h.known j x hj
  · -- What the slot lacks now it lacked before.
    intro j x hj
    rw [hnew] at hlacks
    by_cases hji : j = i
    · subst hji
      cases hold.symm.trans hj
      rw [show old.kept.key = line.key from hkey.symm]
      exact hlacks j line.kept (Function.update_self ..)
    · exact hlacks j x (by rw [Function.update_of_ne hji, hj])
  · -- The slot at the hand may be the one that has changed, and then the new line is marked too.
    intro hroom hpos
    have hbefore := h.marked hroom hpos
    by_cases hhand : r.hand = i
    · subst hhand
      simp only [Ring.marked, hslot] at hbefore
      simpa [Ring.marked, Ring.put, Row.at_put_self] using hmark hbefore
    · simpa [Ring.marked, Ring.put, Row.at_put_of_ne _ _ hhand] using hbefore

/-- A marked line for an address without a slot is taken in. -/
theorem takeIn (h : Filling keys r) {line : Line} (hlacks : r.shelf.Lacks line.key)
    (hmark : line.referenced = true) :
    Filling (insert line.key keys) (r.victim.put r.victim.hand (some line)) := by
  have hnew : (r.victim.put r.victim.hand (some line)).shelf =
      Function.update r.shelf r.victim.hand (some line.kept) := by
    rw [Ring.shelf_put, Ring.shelf_victim]
    rfl
  -- Where the line goes is not asked here: it is a block of its own address, and the other blocks
  -- stay.
  have hknown : ∀ j x, Function.update r.shelf r.victim.hand (some line.kept) j = some x →
      x.key ∈ insert line.key keys := by
    intro j x hj
    rcases Shelf.update_eq_some hj with ⟨-, hx⟩ | ⟨-, hj⟩
    · cases hx
      exact Finset.mem_insert_self ..
    · exact Finset.mem_insert_of_mem (h.known j x hj)
  by_cases hroom : keys.card < n
  · -- The line goes to the first empty slot, which then is the last filled one.
    have hhand := h.victim_hand hroom
    have hcard : (insert line.key keys).card = keys.card + 1 :=
      Finset.card_insert_of_notMem (h.not_mem_of_lacks (Nat.le_of_lt hroom) hlacks)
    refine ⟨fun j => ?_, hnew ▸ hknown, fun _ b hb hno => ?_, fun _ => ?_, fun _ _ => ?_⟩
    · -- One more slot is filled, and it is the next one.
      rw [hnew, hcard]
      by_cases hj : j = r.victim.hand
      · subst hj
        simp [hhand]
      · have hne : j.val ≠ keys.card := fun heq => hj (Fin.ext (heq.trans hhand.symm))
        rw [Function.update_of_ne hj, h.filled j]
        omega
    · rw [hnew] at hno
      rcases Finset.mem_insert.mp hb with rfl | hb
      · exact hno r.victim.hand line.kept (Function.update_self ..) rfl
      · refine h.held (Nat.le_of_lt hroom) b hb fun j x hj => hno j x ?_
        -- The slot that is filled now was empty, so no block has lost its place.
        rw [Function.update_of_ne, hj]
        intro heq
        subst heq
        cases hj.symm.trans (h.shelf_none hhand)
    · rw [hcard]
      exact hhand
    · show Ring.marked (r.victim.put r.victim.hand (some line)) r.victim.hand = true
      rw [Ring.marked, Ring.put, Row.at_put_self]
      exact hmark
  · -- The cache stays full, and the address is one more than it has slots.
    have hle : keys.card ≤ (insert line.key keys).card :=
      Finset.card_le_card (Finset.subset_insert ..)
    refine ⟨fun j => ?_, hnew ▸ hknown, fun hfits b hb => ?_, fun hlt => ?_, fun hlt => ?_⟩
    · have hj := j.isLt
      rw [hnew]
      by_cases hj : j = r.victim.hand
      · subst hj
        simp only [Function.update_self, Option.isSome_some, true_iff]
        omega
      · rw [Function.update_of_ne hj, h.filled j]
        omega
    · have hcard : (insert line.key keys).card = keys.card + 1 :=
        Finset.card_insert_of_notMem (h.not_mem_of_lacks (by omega) hlacks)
      omega
    · omega
    · omega

end Filling

/-! ### Requests -/

/-- The addresses for which a read or a write has succeeded, after one
more call. -/
def touched (keys : Finset Address) : ((q : Request) × Except Stop q.Answer) → Finset Address
  | ⟨.read a, .ok _⟩ => insert a keys
  | ⟨.write a _, .ok _⟩ => insert a keys
  | _ => keys

variable {below : Store σ} {c : Cache n} {s : σ}

/-- A flush takes marks of change away, and no block leaves its slot. -/
theorem Flushes.filling {ino : UInt32} {slots : List (Fin n)} {result : Except Stop Unit}
    {t t' : Cache n × σ} (hflush : Flushes below ino slots t result t')
    (h : Filling keys t.1.ring) : Filling keys t'.1.ring := by
  induction hflush with
  | done => exact h
  | skipped _ _ ih => exact ih h
  | written hline _ _ ih => exact ih (h.put hline.1 rfl fun hmark => hmark)
  | stuck => exact h

/-- A sync changes no more of the slots than its flush does. -/
theorem Syncs.filling {ino : UInt32} {result : Except Stop Unit} {t : Cache n × σ}
    (hsyncs : Syncs below ino c s result t) (h : Filling keys c.ring) : Filling keys t.1.ring := by
  cases hsyncs with
  | stuck _ hflush => exact hflush.filling h
  | flushed _ hflush =>
    have hring := hflush.filling h
    exact hring
  | passed => exact h

variable [Journal σ]

/-- A victim that cannot be written below was in a full cache. -/
theorem Vacates.full {stop : Stop} {t : Cache n × σ}
    (hvacates : Vacates below (onRing Ring.victim c) c.ring.victim.hand s (.error stop) t)
    (h : Filling keys c.ring) : n ≤ keys.card := by
  cases hvacates with
  | stuck hslot =>
    -- While there is room the hand stops at an empty slot, which has nothing to write.
    by_contra hroom
    have hnone := h.shelf_none (h.victim_hand (Nat.lt_of_not_le hroom))
    rw [← Ring.shelf_victim] at hnone
    cases (Ring.shelf_eq hslot).symm.trans hnone

/-- A line for an address without a slot is taken in, or its victim
cannot be written below. -/
theorem TakesIn.filling {line : Line} {result : Except Stop Unit} {t : Cache n × σ}
    (htake : TakesIn below line c s result t) (h : Filling keys c.ring)
    (hfind : c.ring.find? line.key = none) (hmark : line.referenced = true) :
    Filling (touched keys ⟨.write line.key line.data, result⟩) t.1.ring := by
  -- Where the victim is stuck the address is not counted, and only the hand has moved.
  cases htake with
  | placed => exact h.takeIn (Ring.lacks_of_find? hfind) hmark
  | stuck hvacates => exact h.victim (hvacates.full h)

/-- A read adds its address if it succeeds. -/
theorem Reads.filling {result : Except Stop Block} {t : Cache n × σ}
    (hreads : Reads below a c s result t) (h : Filling keys c.ring) :
    Filling (touched keys ⟨.read a, result⟩) t.1.ring := by
  cases hreads with
  | hit hfind =>
    -- The address is not a new one, and its line gets a mark.
    obtain ⟨hslot, hkey⟩ := Ring.at_of_find? hfind
    have hmem : a ∈ keys := hkey ▸ h.known _ _ (Ring.shelf_eq hslot)
    rw [touched, Finset.insert_eq_of_mem hmem]
    exact h.put hslot rfl fun _ => rfl
  | unread => exact h
  | taken hfind _ htake => exact htake.filling h hfind rfl
  | stuck hfind _ htake => exact htake.filling h hfind rfl

/-- A write adds its address if it succeeds. -/
theorem Writes.filling {data : Block} {result : Except Stop Unit} {t : Cache n × σ}
    (hwrites : Writes below a data c s result t) (h : Filling keys c.ring) :
    Filling (touched keys ⟨.write a data, result⟩) t.1.ring := by
  cases hwrites with
  | refused => exact h
  | hit _ hfind =>
    -- A block of the address takes the place of another.
    obtain ⟨hslot, hkey⟩ := Ring.at_of_find? hfind
    have hmem : a ∈ keys := hkey ▸ h.known _ _ (Ring.shelf_eq hslot)
    rw [touched, Finset.insert_eq_of_mem hmem]
    exact h.put hslot hkey.symm fun _ => rfl
  | miss _ hfind htake => exact htake.filling h hfind rfl

/-- One request that resizes nothing. -/
theorem store_filling {q : Request} (hq : ∀ ino blocks, q ≠ .resize ino blocks)
    {t : Cache n × σ} (h : Filling keys t.1.ring) :
    Filling (touched keys ⟨q, Op.outcome (store below q) t⟩) (Op.next (store below q) t).1.ring := by
  obtain ⟨c, s⟩ := t
  cases q with
  | capacity =>
    show Filling keys (Op.next (Op.lower (below .capacity)) (c, s)).1.ring
    rw [Op.next_lower]
    exact h
  | size ino =>
    show Filling keys (Op.next (Op.lower (below (.size ino))) (c, s)).1.ring
    rw [Op.next_lower]
    exact h
  | resize ino blocks => exact (hq ino blocks rfl).elim
  | read a => exact (read_lands a : Reads below a c s _ _).filling h
  | write a data => exact (write_lands a data : Writes below a data c s _ _).filling h
  | sync ino => exact (sync_lands ino : Syncs below ino c s _ _).filling h

/-- The block of an address is in a slot, where the next read or write
finds it. -/
structure Hit (below : Store σ) (a : Address) (t : Cache n × σ) : Prop where
  resident : ¬ t.1.ring.shelf.Lacks a
  read : (Op.next (store below (.read a)) t).1.tally = t.1.tally.countRead true
  write : ∀ data, (Op.next (store below (.write a data)) t).1.tally = t.1.tally.countWrite true

/-- A read that finds its address in a slot is a hit. -/
theorem Reads.tally_of_found {result : Except Stop Block} {t : Cache n × σ}
    (hreads : Reads below a c s result t) {found : Fin n × Line}
    (hfind : c.ring.find? a = some found) : t.1.tally = c.tally.countRead true := by
  cases hreads with
  | hit => rfl
  | unread hno => cases hfind.symm.trans hno
  | taken hno => cases hfind.symm.trans hno
  | stuck hno => cases hfind.symm.trans hno

/-- A write that finds its address in a slot is a hit, also if it is
refused below. -/
theorem Writes.tally_of_found {data : Block} {result : Except Stop Unit} {t : Cache n × σ}
    (hwrites : Writes below a data c s result t) {found : Fin n × Line}
    (hfind : c.ring.find? a = some found) : t.1.tally = c.tally.countWrite true := by
  cases hwrites with
  | refused =>
    rw [hfind]
    rfl
  | hit => rfl
  | miss _ hno => cases hfind.symm.trans hno

/-- An address whose block is in a slot is a hit. -/
theorem hit_of_not_lacks {t : Cache n × σ} (h : ¬ t.1.ring.shelf.Lacks a) : Hit below a t := by
  obtain ⟨c, s⟩ := t
  cases hfind : c.ring.find? a with
  | none => exact (h (Ring.lacks_of_find? hfind)).elim
  | some found =>
    exact ⟨h, (read_lands a : Reads below a c s _ _).tally_of_found hfind,
      fun data => (write_lands a data : Writes below a data c s _ _).tally_of_found hfind⟩

/-- A cache after any requests that resize nothing, whatever fails below.
It holds as many blocks as there are addresses for which a read or a write
has succeeded, until it is full. Up to then each of them is a hit. -/
theorem resident_after (policy : Policy) (hn : 0 < n) (below : Store σ) (s : σ)
    (requests : List Request)
    (hresize : ∀ ino blocks, Request.resize ino blocks ∉ requests) :
    let start := (empty policy n hn, s)
    let keys := (Op.outcomes (store below) requests start).foldl touched ∅
    let t := Op.after (store below) requests start
    t.1.ring.resident = min n keys.card ∧ (keys.card ≤ n → ∀ a ∈ keys, Hit below a t) := by
  intro start keys t
  have hstep : ∀ q ∈ requests, ∀ (t : Cache n × σ) (keys : Finset Address),
      Filling keys t.1.ring → Filling (touched keys ⟨q, Op.outcome (store below q) t⟩)
        (Op.next (store below q) t).1.ring := by
    intro q hq t keys h
    apply store_filling _ h
    rintro ino blocks rfl
    exact hresize ino blocks hq
  -- The account of the addresses is carried along with the state, call by call.
  have h : Filling keys t.1.ring :=
    Op.outcomes_invariant_of_mem (fun (t : Cache n × σ) keys => Filling keys t.1.ring) touched
      hstep (filling_empty hn)
  exact ⟨h.resident, fun hle a ha => hit_of_not_lacks (h.held hle a ha)⟩

/-- Two slots over a store that fails its first call: the read of a block
that is then written. The two writes fill the cache. -/
theorem resident_after_two_slots :
    let below := Unsteady.store (fun call => if call = 0 then some Fault.io else none) Memory.store
    let requests := [.write ⟨0, 0⟩ (Block.fill 1), .read ⟨0, 1⟩, .write ⟨0, 1⟩ (Block.fill 2)]
    let start := (empty .writeBack 2 Nat.two_pos, (0, Memory.empty 1))
    let keys := (Op.outcomes (store below) requests start).foldl touched ∅
    let t := Op.after (store below) requests start
    (∀ ino blocks, Request.resize ino blocks ∉ requests) ∧ keys.card = 2 ∧
      t.1.ring.resident = min 2 keys.card ∧ (keys.card ≤ 2 → ∀ a ∈ keys, Hit below a t) := by
  intro below requests start keys t
  have hresize : ∀ ino blocks, Request.resize ino blocks ∉ requests := by simp [requests]
  exact ⟨hresize, rfl,
    resident_after .writeBack Nat.two_pos below (0, Memory.empty 1) requests hresize⟩

end BlockLayers.Cache
