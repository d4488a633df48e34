import BlockLayers.Proofs.Cache.Calls
import BlockLayers.Proofs.Serves

/-!
# `BlockLayers.Proofs.Cache.Serves`: a cache asks for what it was asked

A cache makes requests of its own: it writes changed blocks below when it
needs their slots, and on a sync. Each is a write that it was asked for
before, so over a store that serves some requests a cache serves the same
ones, whatever its size and its policy, and in whatever order the blocks
go below (`Serves`).

The condition on the slots is that every changed block is one that may be
written (`Shelf.Asked`).

Main statement: `store_serves`.
-/

set_option autoImplicit false

namespace BlockLayers.Cache

open BlockLayers.Cache.Shelf

variable {σ : Type} {n : Nat} {below : Store σ} {asked : Request → Prop} {blame : Prop}
  {kept : σ → Prop} {c : Cache n} {s : σ}

/-! ### The changed blocks -/

/-- The changed blocks of a shelf are blocks that may be written. -/
def Shelf.Asked (asked : Request → Prop) (K : Shelf n) : Prop :=
  ∀ i x, K i = some x → x.dirty = true → asked (.write x.key x.data)

namespace Shelf.Asked

/-- Nothing has to be written where no block is changed. -/
theorem of_clean {K : Shelf n} (h : K.Clean) : K.Asked asked := by
  intro i x hi hdirty
  rw [h i x hi] at hdirty
  cases hdirty

/-- No block is changed where nothing may be written. -/
theorem clean {K : Shelf n} (h : K.Asked asked) (hno : ∀ a block, ¬ asked (.write a block)) :
    K.Clean :=
  fun i x hi => Bool.eq_false_iff.mpr fun hdirty => hno _ _ (h i x hi hdirty)

/-- A line comes into a slot. -/
theorem put {r : Ring n} {i : Fin n} {line : Line} (h : r.shelf.Asked asked)
    (hline : line.dirty = true → asked (.write line.key line.data)) :
    (r.put i (some line)).shelf.Asked asked := by
  intro j x hj hdirty
  rw [Ring.shelf_put] at hj
  rcases update_eq_some hj with ⟨-, hx⟩ | ⟨-, hj⟩
  · cases hx
    exact hline hdirty
  · exact h j x hj hdirty

/-- Blocks are dropped. -/
theorem dropFrom {r : Ring n} (h : r.shelf.Asked asked) (ino start : UInt32) :
    (r.dropFrom ino start).shelf.Asked asked := by
  intro i x hi
  rw [Ring.shelf_dropFrom] at hi
  exact h i x (dropFrom_eq_some.mp hi).1

/-- The line of a slot, if it is changed, may be written. -/
theorem line {r : Ring n} {i : Fin n} {line : Line} (h : r.shelf.Asked asked)
    (hi : Row.at_ r.slots i = some line) :
    line.dirty = true → asked (.write line.key line.data) :=
  h i line.kept (Ring.shelf_eq hi)

end Shelf.Asked

/-! ### The calls -/

/-- The changed blocks of a cache may be written, and the store below
keeps to the condition. -/
def Serving (asked : Request → Prop) (kept : σ → Prop) (s : Cache n × σ) : Prop :=
  s.1.ring.shelf.Asked asked ∧ kept s.2

section Calls

variable [Journal σ] (hS : Serves below asked blame kept)
include hS

/-- A request that is passed on. -/
theorem lower_serves (hc : c.ring.shelf.Asked asked) (hs : kept s) {q : Request} (hq : asked q) :
    Op.Served blame (Serving asked kept) (Op.lower (below q)) (c, s) :=
  Op.Ends.lower ((hS.call hq hs).mono (fun _ _ hafter => ⟨hc, hafter⟩)
    fun _ _ hafter => ⟨⟨hc, hafter.1⟩, hafter.2⟩)

/-- A slot is made ready. -/
theorem vacate_serves (hc : c.ring.shelf.Asked asked) (hs : kept s) (i : Fin n) :
    Op.Ends (vacate below i) (c, s) (fun _ after => after.1 = c ∧ kept after.2)
      fun _ after => after.1 = c ∧ kept after.2 ∧ blame := by
  refine slotAt_seq ?_
  cases hi : Row.at_ c.ring.slots i with
  | none => exact Op.Ends.pure ⟨rfl, hs⟩
  | some old =>
    dsimp only [writeVictim]
    split
    -- A changed victim goes below first, as one of the blocks that may be written.
    · rename_i hdirty
      simp only [bind_assoc]
      exact Op.Ends.note_seq (Op.Ends.lower_seq (hS.call (hc.line hi hdirty) (hS.note _ hs))
        (fun _ _ hafter => ⟨rfl, hafter⟩) fun _ _ hafter => Op.Ends.note ⟨rfl, hS.note _ hafter⟩)
    · rw [pure_bind]
      exact Op.Ends.note ⟨rfl, hS.note _ hs⟩

/-- A line is taken in. -/
theorem takeIn_serves (hc : c.ring.shelf.Asked asked) (hs : kept s) {line : Line}
    (hline : line.dirty = true → asked (.write line.key line.data)) :
    Op.Served blame (Serving asked kept) (takeIn below line) (c, s) := by
  -- The hand changes no block, so the victim may be written as it was before.
  have hvictim : (onRing Ring.victim c).ring.shelf.Asked asked := by
    rw [show (onRing Ring.victim c).ring.shelf = c.ring.shelf from c.ring.shelf_victim]
    exact hc
  refine Op.Ends.modifyOwn_seq (Op.Ends.own_seq ((vacate_serves hS hvictim hs _).bind ?_ ?_))
  · rintro fault ⟨_, after⟩ ⟨rfl, hafter, hblame⟩
    exact ⟨⟨hvictim, hafter⟩, hblame⟩
  · rintro _ ⟨_, after⟩ ⟨rfl, hafter⟩
    exact Op.Ends.modifyOwn ⟨hvictim.put hline, hafter⟩

/-- A read, from a slot or from below. -/
theorem read_serves (hc : c.ring.shelf.Asked asked) (hs : kept s) {a : Address}
    (ha : asked (.read a)) :
    Op.Served blame (Serving asked kept) (read below a) (c, s) := by
  refine lookup_seq ?_
  cases hfind : c.ring.find? a with
  | some found =>
    obtain ⟨i, line⟩ := found
    have hline := hc.line (Ring.at_of_find? hfind).1
    exact Op.Ends.modifyOwn_seq (Op.Ends.modifyOwn_seq (Op.Ends.note_seq (Op.Ends.pure
      ⟨hc.put hline, hS.note _ hs⟩)))
  | none =>
    refine Op.Ends.modifyOwn_seq (Op.Ends.note_seq (Op.Ends.lower_seq (hS.call ha (hS.note _ hs))
      (fun _ _ hafter => ⟨⟨hc, hafter.1⟩, hafter.2⟩) fun block after hafter => ?_))
    -- The block that was read comes in unchanged.
    have hmiss : (onTally (Tally.countRead false) c).ring.shelf.Asked asked := hc
    exact (takeIn_serves hS hmiss hafter fun hdirty => Bool.noConfusion hdirty).seq
      fun _ _ hafter => Op.Ends.pure hafter

/-- A write that goes below at once, or not yet. -/
theorem writeBelow_serves (hs : kept s) {a : Address} {data : Block} (ha : asked (.write a data))
    (policy : Policy) :
    Op.Ends (writeBelow below policy a data) (c, s) (fun _ after => after.1 = c ∧ kept after.2)
      fun _ after => after.1 = c ∧ kept after.2 ∧ blame := by
  cases policy with
  | writeBack => exact Op.Ends.pure ⟨rfl, hs⟩
  | writeThrough =>
    exact Op.Ends.lower ((hS.call ha hs).mono (fun _ _ hafter => ⟨rfl, hafter⟩)
      fun _ _ hafter => ⟨rfl, hafter⟩)

/-- A write, which stays in the cache or goes below at once. -/
theorem write_serves (hc : c.ring.shelf.Asked asked) (hs : kept s) {a : Address} {data : Block}
    (ha : asked (.write a data)) :
    Op.Served blame (Serving asked kept) (write below a data) (c, s) := by
  refine lookup_seq (Op.Ends.modifyOwn_seq (Op.Ends.own_seq
    ((writeBelow_serves hS hs ha _).bind ?_ ?_)))
  · rintro fault ⟨_, after⟩ ⟨rfl, hafter, hblame⟩
    exact ⟨⟨hc, hafter⟩, hblame⟩
  · rintro _ ⟨_, after⟩ ⟨rfl, hafter⟩
    -- The count of the write is all that has changed in the cache so far.
    generalize hc' : onTally (Tally.countWrite (c.ring.find? a).isSome) c = c'
    have hcounted : c'.ring.shelf.Asked asked := hc' ▸ hc
    cases c.ring.find? a with
    | some found => exact Op.Ends.modifyOwn ⟨hcounted.put fun _ => ha, hafter⟩
    | none => exact takeIn_serves hS hcounted hafter fun _ => ha

/-- A resize goes below, and its blocks are dropped. -/
theorem resize_serves (hc : c.ring.shelf.Asked asked) (hs : kept s) {ino blocks : UInt32}
    (hq : asked (.resize ino blocks)) :
    Op.Served blame (Serving asked kept) (resize below ino blocks) (c, s) := by
  refine Op.Ends.lower_seq (hS.call hq hs) (fun _ _ hafter => ⟨⟨hc, hafter.1⟩, hafter.2⟩)
    fun before after hafter => ?_
  exact Op.Ends.own_seq (Op.Ends.modifyOwn_seq (Op.Ends.note_seq (Op.Ends.pure
    ⟨hc.dropFrom ino blocks, hS.note _ hafter⟩)))

/-- The write of one slot, if it is changed. -/
theorem flushSlot_serves (hc : c.ring.shelf.Asked asked) (hs : kept s) (ino : UInt32)
    (i : Fin n) :
    Op.Served blame (Serving asked kept) (flushSlot below ino i) (c, s) := by
  refine slotAt_seq ?_
  cases hi : Row.at_ c.ring.slots i with
  | none => exact Op.Ends.pure ⟨hc, hs⟩
  | some line =>
    dsimp only
    split
    · rename_i hflush
      exact Op.Ends.lower_seq (hS.call (hc.line hi hflush.1) hs)
        (fun _ _ hafter => ⟨⟨hc, hafter.1⟩, hafter.2⟩)
        fun _ _ hafter => Op.Ends.modifyOwn
          ⟨hc.put fun hdirty => Bool.noConfusion hdirty, hafter⟩
    · exact Op.Ends.pure ⟨hc, hs⟩

/-- The writes of some slots. -/
theorem flush_serves (ino : UInt32) (slots : List (Fin n)) {c : Cache n} {s : σ}
    (hc : c.ring.shelf.Asked asked) (hs : kept s) :
    Op.Served blame (Serving asked kept) (flush below ino slots) (c, s) := by
  -- One slot after the other; each leaves a cache that serves and a store that is kept.
  induction slots generalizing c s with
  | nil => exact Op.Ends.pure ⟨hc, hs⟩
  | cons i rest ih =>
    exact (flushSlot_serves hS hc hs ino i).seq fun _ _ hafter => ih hafter.1 hafter.2

/-- A sync writes the changed blocks, and is then passed on. -/
theorem sync_serves (hc : c.ring.shelf.Asked asked) (hs : kept s) {ino : UInt32}
    (hq : asked (.sync ino)) :
    Op.Served blame (Serving asked kept) (sync below ino) (c, s) := by
  refine Op.Ends.own_seq ?_
  cases c.policy with
  | writeBack =>
    exact (flush_serves hS ino _ hc hs).seq fun _ _ hafter =>
      lower_serves hS hafter.1 hafter.2 hq
  | writeThrough => exact lower_serves hS hc hs hq

/-- A cache over a store that serves some requests serves them too, and
refuses them only where the store below does. -/
theorem store_serves : Serves (store below) asked blame (Serving (n := n) asked kept) where
  call := by
    rintro q ⟨c, s⟩ hq ⟨hc, hs⟩
    cases q with
    | capacity => exact lower_serves hS hc hs hq
    | size ino => exact lower_serves hS hc hs hq
    | resize ino blocks => exact resize_serves hS hc hs hq
    | read a => exact read_serves hS hc hs hq
    | write a data => exact write_serves hS hc hs hq
    | sync ino => exact sync_serves hS hc hs hq
  note := fun event hs => ⟨hs.1, hS.note event hs.2⟩

end Calls

end BlockLayers.Cache
