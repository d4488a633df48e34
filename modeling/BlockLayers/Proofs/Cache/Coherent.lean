import BlockLayers.Proofs.Cache.Built
import BlockLayers.Proofs.Cache.Faults

/-!
# `BlockLayers.Proofs.Cache.Coherent`: what the slots of a cache keep to

A cache stands over a store in memory, any of whose calls may fail. In
every state that it gets into, after calls that failed too, its slots
keep to some rules (`Coherent`): no address has two slots, an empty slot
has no marks, a slot is changed only in a cache that writes back, and a
slot that is not changed holds the block that is below.

The rules about blocks are part of what `Follows` says, and no call
changes the policy of a cache (`store_policy`).

Main statement: `coherent_after`, for every run of calls and every
pattern of failures below.
-/

set_option autoImplicit false

namespace BlockLayers.Cache

variable {n : Nat}

/-- Whether a slot holds a line that differs from the block below. -/
def Ring.changed (r : Ring n) (i : Fin n) : Bool :=
  match Row.at_ r.slots i with
  | some line => line.dirty
  | none => false

/-- What the slots of a cache keep to, over a store with the content
`p`. -/
structure Coherent (c : Cache n) (p : Plain) : Prop where
  /-- There are as many slots as there were at first. -/
  capacity : c.ring.slots.toList.length = n
  /-- The hand points at one of them. -/
  hand : c.ring.hand.val < c.ring.slots.toList.length
  /-- No address has two slots. -/
  distinct : ∀ i j x y, Row.at_ c.ring.slots i = some x → Row.at_ c.ring.slots j = some y →
    x.key = y.key → i = j
  /-- An empty slot is neither marked nor changed. -/
  idle : ∀ i, Row.at_ c.ring.slots i = none →
    c.ring.marked i = false ∧ c.ring.changed i = false
  /-- A slot is changed only in a cache that writes back. -/
  changed : ∀ i, c.ring.changed i = true → c.policy = .writeBack
  /-- A line that is not changed is that of a block below. -/
  within : ∀ i x, Row.at_ c.ring.slots i = some x → x.dirty = false →
    x.key.offset.toNat < (p.getD x.key.ino.toNat #[]).size
  /-- It holds that block. -/
  clean : ∀ i x, Row.at_ c.ring.slots i = some x → x.dirty = false →
    (p.getD x.key.ino.toNat #[])[x.key.offset.toNat]? = some x.data

/-- The rules follow from what a cache shows. -/
theorem coherent_of_over {c : Cache n} {p : Plain} (hover : c.ring.shelf.Over p)
    (hclean : c.policy = .writeThrough → c.ring.shelf.Clean) : Coherent c p := by
  -- The shelf keeps all of a line but its mark, so its rules are rules for lines.
  have hkept : ∀ {i x}, Row.at_ c.ring.slots i = some x → c.ring.shelf i = some x.kept :=
    fun hx => Ring.shelf_eq hx
  have hbelow : ∀ i x, Row.at_ c.ring.slots i = some x → x.dirty = false →
      (p.getD x.key.ino.toNat #[])[x.key.offset.toNat]? = some x.data :=
    fun i x hx hdirty => hover.clean i x.kept (hkept hx) hdirty
  refine ⟨Vector.length_toList, ?_, fun i j x y hx hy hkey => ?_, fun i hi => ?_, fun i hi => ?_,
    fun i x hx hdirty => ?_, hbelow⟩
  · rw [Vector.length_toList]
    exact c.ring.hand.isLt
  · exact hover.distinct i j x.kept y.kept (hkept hx) (hkept hy) hkey
  · simp only [Ring.marked, Ring.changed, hi, and_self]
  · cases hslot : Row.at_ c.ring.slots i with
    | none => simp [Ring.changed, hslot] at hi
    | some x =>
      have hdirty : x.dirty = true := by simpa [Ring.changed, hslot] using hi
      cases hthrough : c.policy with
      | writeBack => rfl
      | writeThrough =>
        cases hdirty.symm.trans (hclean hthrough i x.kept (hkept hslot))
  · obtain ⟨hlt, -⟩ := Array.getElem?_eq_some_iff.mp (hbelow i x hx hdirty)
    exact hlt

/-- A cache with one slot or more over a store in memory, after any run
of calls, whichever calls of the store below fail. It has the policy that
it was made with, and its slots keep to the rules. -/
theorem coherent_after (policy : Policy) (hn : 0 < n) (schedule : Nat → Option Fault) {m : Memory}
    (hm : m.dead = false) (requests : List Request) :
    let s := Op.after (store (Unsteady.store schedule Memory.store)) requests (fresh policy hn m)
    s.1.policy = policy ∧ Coherent s.1 s.2.2.inodes := by
  intro s
  -- One induction over the requests for the account, and one for the policy.
  have h : Follows m.inodes.size s (account schedule policy hn m requests) :=
    Op.outcomes_invariant (Follows m.inodes.size) Acked.step (fun q s v h => h.next q) requests
      (fresh_follows policy hn hm)
  have hpolicy : HasPolicy policy s :=
    Op.after_invariant (HasPolicy policy) (fun q => store_policy q) requests rfl
  exact ⟨hpolicy, coherent_of_over h.shows.toOver h.clean⟩

/-- A cache of two slots over a store that fails its first call. The first
sync fails and leaves its slot changed, the second does not, and then a
second slot is changed. -/
theorem coherent_after_two_slots :
    let schedule := fun call => if call = 0 then some Fault.io else none
    let requests := [.write ⟨0, 0⟩ (Block.fill 1), .sync 0, .sync 0, .write ⟨0, 1⟩ (Block.fill 2)]
    let s := Op.after (store (Unsteady.store schedule Memory.store)) requests
      (fresh .writeBack Nat.two_pos (Memory.empty 1))
    (Row.at_ s.1.ring.slots 0).isSome = true ∧ s.1.ring.changed 0 = false ∧
      s.1.ring.changed 1 = true ∧ s.1.policy = .writeBack ∧ Coherent s.1 s.2.2.inodes :=
  ⟨rfl, rfl, rfl, coherent_after .writeBack Nat.two_pos
    (fun call => if call = 0 then some .io else none) rfl
    [.write ⟨0, 0⟩ (Block.fill 1), .sync 0, .sync 0, .write ⟨0, 1⟩ (Block.fill 2)]⟩

end BlockLayers.Cache
