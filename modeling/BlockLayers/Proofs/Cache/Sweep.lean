import BlockLayers.Proofs.Cache.Shelf
import Mathlib.Data.Finset.Card
import Mathlib.Data.Fintype.Basic
import Mathlib.Data.Nat.ModEq
import Mathlib.Logic.Function.Iterate

/-!
# `BlockLayers.Proofs.Cache.Sweep`: which slot the hand stops at

To find a victim the hand looks at nothing but the marks, and changes
nothing but the marks and its own place. A `Dial` is that much of a ring:
a mark for every slot, the empty ones too, and the hand.

`Dial.turn` is the loop itself. It goes on as long as the slot at the hand
is marked, counts its steps, and gives up when they are more than two
turns. It ends because every step takes a mark away, and no bound on the
steps is built in. `Ring.victim`, which makes `n` moves at most, does to a
ring what the loop does to its dial.

Main statement: `turn_passes`, the number of steps, the slot that is found
and the marks that are left, for all marks and every place of the hand.
-/

set_option autoImplicit false

namespace BlockLayers.Cache

variable {n : Nat}

/-! ### The loop -/

/-- The marks of the slots and the hand. -/
structure Dial (n : Nat) where
  /-- Which slots are marked. -/
  marks : Fin n → Bool
  /-- The slot that the hand points at. -/
  hand : Fin n

namespace Dial

/-! #### Places on the ring -/

/-- The slot that is `k` slots ahead of a slot, around the ring. -/
def ahead (i : Fin n) (k : Nat) : Fin n := ⟨(i.val + k) % n, Nat.mod_lt _ i.pos⟩

/-- No slot ahead is the slot itself. -/
theorem ahead_zero (i : Fin n) : ahead i 0 = i := Fin.ext (Nat.mod_eq_of_lt i.isLt)

/-- The next slot is one more slot ahead. -/
theorem nextSlot_ahead (i : Fin n) (k : Nat) : Ring.nextSlot (ahead i k) = ahead i (k + 1) := by
  apply Fin.ext
  show ((i.val + k) % n + 1) % n = (i.val + (k + 1)) % n
  rw [Nat.mod_add_mod, Nat.add_assoc]

/-- After a full turn one is back. -/
theorem ahead_self (i : Fin n) : ahead i n = i := by
  apply Fin.ext
  show (i.val + n) % n = i.val
  rw [Nat.add_mod_right, Nat.mod_eq_of_lt i.isLt]

/-- Within one turn no slot is met twice. -/
theorem ahead_inj (i : Fin n) {k l : Nat} (hk : k < n) (hl : l < n) (h : ahead i k = ahead i l) :
    k = l := by
  have hmod : i.val + k ≡ i.val + l [MOD n] := congrArg Fin.val h
  exact (Nat.ModEq.add_left_cancel' i.val hmod).eq_of_lt_of_lt hk hl

/-! #### Steps -/

/-- Take the mark at the hand away and move on. -/
def pass (d : Dial n) : Dial n where
  marks := Function.update d.marks d.hand false
  hand := Ring.nextSlot d.hand

/-- The number of marks. -/
def countMarks (d : Dial n) : Nat := (Finset.univ.filter fun i => d.marks i = true).card

/-- A step takes a mark away. -/
theorem countMarks_pass {d : Dial n} (h : d.marks d.hand = true) :
    d.pass.countMarks < d.countMarks := by
  -- The marked slots after the step are those before it without the one at the hand.
  have herase : (Finset.univ.filter fun i => d.pass.marks i = true) =
      (Finset.univ.filter fun i => d.marks i = true).erase d.hand := by
    ext i
    by_cases hi : i = d.hand <;> simp [pass, Function.update_apply, hi]
  rw [countMarks, herase]
  exact Finset.card_erase_lt_of_mem (Finset.mem_filter.mpr ⟨Finset.mem_univ d.hand, h⟩)

/-- Move the hand on while it points at a marked slot. The value is the
number of steps, `steps` of which were made before, and the dial that is
left; there is none when the steps are more than two turns. -/
def turn (steps : Nat) (d : Dial n) : Option (Nat × Dial n) :=
  if d.marks d.hand = true then
    if steps + 1 ≤ 2 * n then d.pass.turn (steps + 1) else none
  else some (steps, d)
termination_by d.countMarks
decreasing_by exact countMarks_pass ‹_›

/-- The hand has `j` slots to pass: these are marked, and the slot ahead
of them is not, unless they are all slots. -/
structure Passes (d : Dial n) (j : Nat) : Prop where
  le : j ≤ n
  marked : ∀ k < j, d.marks (ahead d.hand k) = true
  stops : j < n → d.marks (ahead d.hand j) = false

/-- There is a number of slots that the hand has to pass. -/
theorem exists_passes (d : Dial n) : ∃ j, d.Passes j := by
  -- The least number ahead at which the loop stops, if not before a full turn.
  have hstop : ∃ j, j = n ∨ d.marks (ahead d.hand j) = false := ⟨n, .inl rfl⟩
  refine ⟨Nat.find hstop, Nat.find_min' hstop (.inl rfl), fun k hk => ?_, fun hlt => ?_⟩
  · have hgoes := Nat.find_min hstop hk
    rw [not_or, Bool.not_eq_false] at hgoes
    exact hgoes.2
  · exact (Nat.find_spec hstop).resolve_left (Nat.ne_of_lt hlt)

/-! #### The dial after a number of steps -/

/-- After `k` steps the hand is `k` slots ahead. -/
theorem hand_iterate (d : Dial n) (k : Nat) : (pass^[k] d).hand = ahead d.hand k := by
  induction k with
  | zero => exact (ahead_zero d.hand).symm
  | succ k ih =>
    rw [Function.iterate_succ_apply']
    show Ring.nextSlot (pass^[k] d).hand = ahead d.hand (k + 1)
    rw [ih, nextSlot_ahead]

/-- One more step takes the mark at the hand away. -/
theorem marks_iterate_succ (d : Dial n) (k : Nat) :
    (pass^[k + 1] d).marks = Function.update (pass^[k] d).marks (ahead d.hand k) false := by
  rw [Function.iterate_succ_apply', ← hand_iterate]
  rfl

/-- The slots that were passed have lost their marks. -/
theorem marks_passed (d : Dial n) {k l : Nat} (hl : l < k) :
    (pass^[k] d).marks (ahead d.hand l) = false := by
  -- By induction on the steps: the last one clears its own slot and spares the others.
  induction k with
  | zero => cases hl
  | succ k ih =>
    rw [marks_iterate_succ, Function.update_apply]
    split
    · rfl
    · rename_i hne
      have hlk : l ≠ k := fun heq => hne (heq ▸ rfl)
      exact ih (by omega)

/-- The other slots have theirs. -/
theorem marks_spared (d : Dial n) {k : Nat} {i : Fin n} (hi : ∀ l < k, i ≠ ahead d.hand l) :
    (pass^[k] d).marks i = d.marks i := by
  induction k with
  | zero => rfl
  | succ k ih =>
    rw [marks_iterate_succ, Function.update_of_ne (hi k (Nat.lt_succ_self k))]
    exact ih fun l hl => hi l (Nat.lt_succ_of_lt hl)

/-- Within the first turn the hand comes to slots as they were. -/
theorem mark_reached (d : Dial n) {k : Nat} (hk : k < n) :
    (pass^[k] d).marks (pass^[k] d).hand = d.marks (ahead d.hand k) := by
  rw [hand_iterate]
  -- None of the steps before was at this slot, as they are all within one turn.
  apply marks_spared
  intro l hl heq
  have := ahead_inj d.hand hk (Nat.lt_trans hl hk) heq
  omega

/-- The hand stops behind the slots that it has to pass. After a full
turn it does because the slot where it started has lost its mark. -/
theorem Passes.reached {d : Dial n} {j : Nat} (h : d.Passes j) :
    (pass^[j] d).marks (pass^[j] d).hand = false := by
  by_cases hj : j < n
  · rw [mark_reached d hj]
    exact h.stops hj
  · have hfull : j = n := Nat.le_antisymm h.le (Nat.not_lt.mp hj)
    subst hfull
    rw [hand_iterate, ahead_self]
    have hstart := marks_passed d (k := j) (l := 0) d.hand.pos
    rwa [ahead_zero] at hstart

/-- One turn of the loop, at a marked slot. -/
theorem turn_of_marked {d : Dial n} {steps : Nat} (h : d.marks d.hand = true)
    (hsteps : steps + 1 ≤ 2 * n) : d.turn steps = d.pass.turn (steps + 1) := by
  rw [turn, if_pos h, if_pos hsteps]

/-- The loop ends at a slot without a mark. -/
theorem turn_of_unmarked {d : Dial n} {steps : Nat} (h : d.marks d.hand = false) :
    d.turn steps = some (steps, d) := by
  rw [turn, if_neg (by rw [h]; exact Bool.false_ne_true)]

/-- The loop makes as many steps as it finds marks on its way. -/
theorem turn_iterate {d : Dial n} {j steps : Nat}
    (hmarked : ∀ k < j, (pass^[k] d).marks (pass^[k] d).hand = true)
    (hstops : (pass^[j] d).marks (pass^[j] d).hand = false) (hsteps : steps + j ≤ 2 * n) :
    d.turn steps = some (steps + j, pass^[j] d) := by
  -- By induction on the slots to pass, with the dial after the first step in place of `d`.
  induction j generalizing d steps with
  | zero => exact turn_of_unmarked hstops
  | succ j ih =>
    have hhere : d.marks d.hand = true := hmarked 0 (Nat.succ_pos j)
    rw [turn_of_marked hhere (by omega)]
    rw [ih (fun k hk => hmarked (k + 1) (Nat.succ_lt_succ hk)) hstops (by omega)]
    rw [Nat.add_assoc, Nat.add_comm 1 j]
    rfl

end Dial

/-! ### The hand of a ring -/

namespace Ring

open Dial (pass mark_reached)

/-- The marks of a ring and its hand. -/
def dial (r : Ring n) : Dial n := ⟨r.marked, r.hand⟩

/-- A move of a ring is a step of its dial. -/
theorem dial_move (r : Ring n) :
    dial { r.unmark with hand := nextSlot r.hand } = r.dial.pass := by
  have hmarks : r.unmark.marked = Function.update r.marked r.hand false := by
    funext i
    rw [marked_unmark, Function.update_apply]
    by_cases hi : i = r.hand <;> simp [hi]
  show Dial.mk r.unmark.marked (nextSlot r.hand) = _
  rw [hmarks]
  rfl

/-- A sweep passes the marked slots at the hand, as far as its moves go. -/
theorem dial_sweep {r : Ring n} {j moves : Nat} (hj : j ≤ moves)
    (hmarked : ∀ k < j, (pass^[k] r.dial).marks (pass^[k] r.dial).hand = true)
    (hstops : j < moves → (pass^[j] r.dial).marks (pass^[j] r.dial).hand = false) :
    (r.sweep moves).dial = pass^[j] r.dial := by
  -- The same induction as for the loop, with the moves that are left as a bound.
  induction j generalizing r moves with
  | zero =>
    cases moves with
    | zero => rfl
    | succ moves =>
      have hhere : r.marked r.hand = false := hstops (Nat.succ_pos moves)
      rw [sweep, if_neg (by rw [hhere]; exact Bool.false_ne_true)]
      rfl
  | succ j ih =>
    cases moves with
    | zero => cases hj
    | succ moves =>
      have hhere : r.marked r.hand = true := hmarked 0 (Nat.succ_pos j)
      rw [sweep, if_pos hhere]
      have hrest := ih (r := { r.unmark with hand := nextSlot r.hand }) (Nat.le_of_succ_le_succ hj)
      rw [dial_move] at hrest
      exact hrest (fun k hk => hmarked (k + 1) (Nat.succ_lt_succ hk))
        fun hlt => hstops (Nat.succ_lt_succ hlt)

/-- The victim is found behind the slots that the hand has to pass. -/
theorem dial_victim {r : Ring n} {j : Nat} (h : r.dial.Passes j) :
    r.victim.dial = pass^[j] r.dial :=
  dial_sweep h.le
    (fun k hk => (mark_reached r.dial (Nat.lt_of_lt_of_le hk h.le)).trans (h.marked k hk))
    fun _ => h.reached

end Ring

namespace Dial

/-- The search for a victim, for all marks and every place of the hand.
There is a number `j` of marked slots that the hand has to pass, `n` if all
are marked. The loop ends after `j` steps without being more than two turns
long. It leaves the hand at the slot that is `j` ahead, it has taken away
the marks of the slots before that one and no others, and in a ring with
these marks it changes nothing else. -/
theorem turn_passes (d : Dial n) :
    ∃ j, d.Passes j ∧ ∃ d' : Dial n, d.turn 0 = some (j, d') ∧ d'.hand = ahead d.hand j ∧
      (∀ k < j, d'.marks (ahead d.hand k) = false) ∧
      (∀ i, (∀ k < j, i ≠ ahead d.hand k) → d'.marks i = d.marks i) ∧
      ∀ r : Ring n, r.dial = d → r.victim.dial = d' ∧ r.victim.shelf = r.shelf := by
  obtain ⟨j, hpasses⟩ := d.exists_passes
  -- The hand meets these slots within the first turn, so their marks are still there.
  have hmarked : ∀ k < j, (pass^[k] d).marks (pass^[k] d).hand = true := by
    intro k hk
    rw [mark_reached d (Nat.lt_of_lt_of_le hk hpasses.le)]
    exact hpasses.marked k hk
  -- At most `n` steps: the bound of two turns is never reached.
  have hle : 0 + j ≤ 2 * n := by
    have := hpasses.le
    omega
  have hturn : d.turn 0 = some (j, pass^[j] d) := by
    rw [turn_iterate hmarked hpasses.reached hle, Nat.zero_add]
  refine ⟨j, hpasses, _, hturn, d.hand_iterate j, fun k hk => d.marks_passed hk,
    fun i hi => d.marks_spared hi, ?_⟩
  intro r hr
  subst hr
  exact ⟨Ring.dial_victim hpasses, r.shelf_victim⟩

end Dial

end BlockLayers.Cache
