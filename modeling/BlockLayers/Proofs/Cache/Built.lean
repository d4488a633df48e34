import BlockLayers.Cache
import BlockLayers.Proofs.Run

/-!
# `BlockLayers.Proofs.Cache.Built`: what the calls of a cache are built from

A call to a cache looks at the slots, changes them or the account, asks
the store below, reports, and does some of this in turn. A relation
between what a cache does over one store and what it does over another
that holds of these steps, and of two steps in turn when it holds of both,
holds of every call (`Relates.store`). The algorithm of the cache is gone
through once, here, for every such relation.

The last flush of a cache is not among the calls. It deals with failures
of the store below, and no call does.

Main statements: `Relates.store`, and `store_policy` for the first of its
uses.
-/

set_option autoImplicit false

namespace BlockLayers.Cache

variable {σ τ : Type} [Journal σ] [Journal τ] {n : Nat}

/-- The relation `rel` holds of the steps of a cache over two stores, and
goes with doing one thing after another. -/
structure Relates (below : Store σ) (below' : Store τ)
    (rel : (α : Type) → Op (Cache n × σ) α → Op (Cache n × τ) α → Prop) : Prop where
  pure : ∀ {α : Type} (value : α), rel α (pure value) (pure value)
  bind : ∀ {α β : Type} {x : Op (Cache n × σ) α} {y : Op (Cache n × τ) α}
    {f : α → Op (Cache n × σ) β} {g : α → Op (Cache n × τ) β},
    rel α x y → (∀ value, rel β (f value) (g value)) → rel β (x >>= f) (y >>= g)
  own : rel (Cache n) Op.own Op.own
  onRing : ∀ f : Ring n → Ring n, rel Unit (Op.modifyOwn (onRing f)) (Op.modifyOwn (onRing f))
  onTally : ∀ f : Tally → Tally, rel Unit (Op.modifyOwn (onTally f)) (Op.modifyOwn (onTally f))
  lower : ∀ q, rel (Request.Answer q) (Op.lower (below q)) (Op.lower (below' q))
  note : ∀ event, rel Unit (Op.note event) (Op.note event)

namespace Relates

variable {below : Store σ} {below' : Store τ}
  {rel : (α : Type) → Op (Cache n × σ) α → Op (Cache n × τ) α → Prop}

/-- A look at a slot. -/
theorem slotAt (h : Relates below below' rel) (i : Fin n) :
    rel (Option Line) (Cache.slotAt i) (Cache.slotAt i) :=
  h.bind h.own fun _ => h.pure _

/-- A search of the slots for an address. -/
theorem lookup (h : Relates below below' rel) (a : Address) :
    rel (Option (Fin n × Line)) (Cache.lookup a) (Cache.lookup a) :=
  h.bind h.own fun _ => h.pure _

/-- Making a slot ready for another block. The block that was there is
written below only if it has changed. -/
theorem vacate (h : Relates below below' rel) (i : Fin n) :
    rel Unit (vacate below i) (vacate below' i) := by
  apply h.bind (h.slotAt i)
  intro found
  -- A slot that is free is left alone, and an old block is reported in any case.
  cases found with
  | none => exact h.pure ()
  | some old =>
    refine h.bind ?_ fun _ => h.note _
    unfold writeVictim
    split
    · exact h.bind (h.note _) fun _ => h.lower (.write old.key old.data)
    · exact h.pure ()

/-- Taking a line in: the hand finds a slot, which is made ready and
filled. -/
theorem takeIn (h : Relates below below' rel) (line : Line) :
    rel Unit (takeIn below line) (takeIn below' line) :=
  h.bind (h.onRing _) fun _ => h.bind h.own fun c =>
    h.bind (h.vacate c.ring.hand) fun _ => h.onRing _

/-- A read. The store below is asked only if no slot has the block. -/
theorem read (h : Relates below below' rel) (a : Address) :
    rel Block (read below a) (read below' a) := by
  apply h.bind (h.lookup a)
  intro found
  cases found with
  | some found =>
    exact h.bind (h.onTally _) fun _ => h.bind (h.onRing _) fun _ =>
      h.bind (h.note _) fun _ => h.pure _
  | none =>
    exact h.bind (h.onTally _) fun _ => h.bind (h.note _) fun _ =>
      h.bind (h.lower (.read a)) fun _ => h.bind (h.takeIn _) fun _ => h.pure _

/-- A write. What is done below hangs on the policy, and what is done to
the slots on whether one of them has the address. -/
theorem write (h : Relates below below' rel) (a : Address) (data : Block) :
    rel Unit (write below a data) (write below' a data) := by
  -- The policy and the slot are known once both are looked up, so the two cases split apart.
  refine h.bind (h.lookup a) fun found => h.bind (h.onTally _) fun _ =>
    h.bind h.own fun c => h.bind ?_ fun _ => ?_
  · cases c.policy with
    | writeBack => exact h.pure ()
    | writeThrough => exact h.lower (.write a data)
  · cases found with
    | some found => exact h.onRing _
    | none => exact h.takeIn _

/-- A resize. The slots are dropped after the store below has resized
the inode. -/
theorem resize (h : Relates below below' rel) (ino blocks : UInt32) :
    rel UInt32 (resize below ino blocks) (resize below' ino blocks) :=
  h.bind (h.lower (.resize ino blocks)) fun _ => h.bind h.own fun _ =>
    h.bind (h.onRing _) fun _ => h.bind (h.note _) fun _ => h.pure _

/-- A flush of some slots, one after the other. -/
theorem flush (h : Relates below below' rel) (ino : UInt32) (slots : List (Fin n)) :
    rel Unit (flush below ino slots) (flush below' ino slots) := by
  induction slots with
  | nil => exact h.pure ()
  | cons i rest ih =>
    refine h.bind (h.bind (h.slotAt i) fun found => ?_) fun _ => ih
    -- A slot is passed over if it is free, of another inode or not changed.
    cases found with
    | none => exact h.pure ()
    | some line =>
      dsimp only
      split
      · exact h.bind (h.lower (.write line.key line.data)) fun _ => h.onRing _
      · exact h.pure ()

/-- A sync. Only a cache that writes back has something to flush before
it is passed on. -/
theorem sync (h : Relates below below' rel) (ino : UInt32) :
    rel Unit (sync below ino) (sync below' ino) := by
  apply h.bind h.own
  intro c
  cases c.policy with
  | writeBack => exact h.bind (h.flush ino _) fun _ => h.lower (.sync ino)
  | writeThrough => exact h.lower (.sync ino)

/-- What holds of the steps of a cache holds of its calls. -/
theorem store (h : Relates below below' rel) (q : Request) :
    rel (Request.Answer q) (store below q) (store below' q) := by
  cases q with
  | capacity => exact h.lower _
  | size ino => exact h.lower _
  | resize ino blocks => exact h.resize ino blocks
  | read a => exact h.read a
  | write a data => exact h.write a data
  | sync ino => exact h.sync ino

end Relates

/-- The policy of a cache and the store below it. -/
abbrev HasPolicy (policy : Policy) (s : Cache n × σ) : Prop := s.1.policy = policy

/-- No call changes the policy of a cache. -/
theorem store_policy {below : Store σ} {policy : Policy} (q : Request) :
    Op.Preserves (store (n := n) below q) (HasPolicy policy) := by
  have hsteps : Relates (n := n) below below fun _ x _ => Op.Preserves x (HasPolicy policy) :=
    { pure := fun _ => .pure
      bind := .bind
      own := fun _ h => h
      onRing := fun _ _ h => h
      onTally := fun _ _ h => h
      lower := fun q => by
        intro s h
        rw [Op.next_lower]
        exact h
      note := fun _ _ h => h }
  exact hsteps.store q

end BlockLayers.Cache
