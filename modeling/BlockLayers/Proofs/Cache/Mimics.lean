import BlockLayers.Proofs.Cache.Built
import BlockLayers.Proofs.Mimics

/-!
# `BlockLayers.Proofs.Cache.Mimics`: a cache passes failures on

No call to a cache succeeds when a call of the store below fails that it
made. So a cache over a store does what a cache over another store does
that answers alike as long as the first one does not fail. Only the
closing of a cache goes on after a failure, and no such statement holds
of it.

Main statement: `store_mimics`.
-/

set_option autoImplicit false

namespace BlockLayers.Cache

variable {σ τ : Type} [Journal σ] [Journal τ] {below : Store σ} {below' : Store τ} {n : Nat}
  {R : σ → τ → Prop}

/-- A store answers as another one does, as long as it answers, and
reports keep the two related. -/
structure Follower (R : σ → τ → Prop) (below : Store σ) (below' : Store τ) : Prop where
  store : ∀ q, Op.Mimics R (below q) (below' q)
  note : ∀ event s t, R s t → R (Journal.enter event s) (Journal.enter event t)

/-- A cache does over a store what it does over one that answers alike
as long as the first one does not fail. -/
theorem store_mimics (h : Follower R below below') (q : Request) :
    Op.Mimics (Op.Beside R) (store (n := n) below q) (store below' q) := by
  -- It is enough to follow each step that the requests of a cache are put together of.
  have hsteps : Relates (n := n) below below' fun _ x y => Op.Mimics (Op.Beside R) x y :=
    { pure := fun _ => .pure
      bind := .bind
      own := .own
      onRing := fun _ => .modifyOwn
      onTally := fun _ => .modifyOwn
      lower := fun q => .lower (h.store q)
      note := fun event => .note fun s t hst => ⟨hst.1, h.note event s.2 t.2 hst.2⟩ }
  exact hsteps.store q

end BlockLayers.Cache
