import BlockLayers.Pool
import BlockLayers.Proofs.Cache.Covered
import BlockLayers.Proofs.Run

/-!
# `BlockLayers.Proofs.Pool.Stack`: caches on top of each other

In a pool caches stand on top of each other and at last on a store in
memory. `Stands` says what such a stack shows at its top: each cache
covers the content that the layer below it shows.

Main statement: `serve_backing`. The top of a stack keeps the contract of
a store that refuses nothing, and leaves the layers that are younger than
it alone. The proof is by induction on the number of the layer.
-/

set_option autoImplicit false

namespace BlockLayers

/-! ### The contract passed on -/

/-- A store answers as another one does. `back` takes the states of the
one to those of the other. -/
def Forwards {σ τ : Type} (upper : Store τ) (t : τ) (below : Store σ) (s : σ) (back : σ → τ) :
    Prop :=
  ∀ (q : Request) (good : q.Answer → τ → Prop) (bad : Fault → τ → Prop),
    Op.Ends (below q) s (fun answer after => good answer (back after))
      (fun fault after => bad fault (back after)) → Op.Ends (upper q) t good bad

/-- A store keeps a contract when in every state it answers as one that
keeps it. -/
theorem Backing.forward {τ : Type} [Journal τ] {upper : Store τ} {allowed : UInt32 → Prop}
    {lost : Plain → Address → Prop} {refused : Plain → UInt32 → Prop}
    {holds' : (UInt32 → Prop) → τ → Plain → Prop}
    (h : ∀ settled t p, holds' settled t p →
      ∃ (σ : Type) (_ : Journal σ) (below : Store σ)
        (holds : (UInt32 → Prop) → σ → Plain → Prop) (s : σ) (back : σ → τ),
        Backing below allowed (fun p a _ _ => lost p a) (fun p ino _ _ => refused p ino) holds ∧
        holds settled s p ∧
        (∀ settled' s' p', holds settled' s' p' → holds' settled' (back s') p') ∧
        Forwards upper t below s back)
    (hnote : ∀ settled t p event, holds' settled t p →
      holds' settled (Journal.enter event t) p) :
    Backing upper allowed (fun p a _ _ => lost p a) (fun p ino _ _ => refused p ino) holds' where
  read {settled t p} a ht := by
    obtain ⟨σ, _, below, holds, s, back, hB, hs, hback, hupper⟩ := h settled t p ht
    exact hupper _ _ _ ((hB.read a hs).mono (fun _ _ h => ⟨hback _ _ _ h.1, h.2⟩)
      fun _ _ h => ⟨hback _ _ _ h.1, h.2⟩)
  write {settled t p} a block ht hallowed hnot := by
    obtain ⟨σ, _, below, holds, s, back, hB, hs, hback, hupper⟩ := h settled t p ht
    exact hupper _ _ _ ((hB.write a block hs hallowed hnot).mono
      (fun _ _ h => ⟨hback _ _ _ h.1, h.2⟩) fun _ _ h => ⟨hback _ _ _ h.1, h.2⟩)
  resize {settled t p} ino blocks ht hallowed hnot := by
    obtain ⟨σ, _, below, holds, s, back, hB, hs, hback, hupper⟩ := h settled t p ht
    exact hupper _ _ _ ((hB.resize ino blocks hs hallowed hnot).mono
      (fun _ _ h => ⟨hback _ _ _ h.1, h.2⟩) fun _ _ h => ⟨hback _ _ _ h.1, h.2⟩)
  sync {settled t p} ino ht hallowed := by
    obtain ⟨σ, _, below, holds, s, back, hB, hs, hback, hupper⟩ := h settled t p ht
    exact hupper _ _ _ ((hB.sync ino hs hallowed).mono (fun _ _ h => hback _ _ _ h)
      fun _ _ h => ⟨hback _ _ _ h.1, h.2⟩)
  size {settled t p} ino ht := by
    obtain ⟨σ, _, below, holds, s, back, hB, hs, hback, hupper⟩ := h settled t p ht
    exact hupper _ _ _ ((hB.size ino hs).mono (fun _ _ h => hback _ _ _ h)
      fun _ _ h => hback _ _ _ h)
  capacity {settled t p} ht := by
    obtain ⟨σ, _, below, holds, s, back, hB, hs, hback, hupper⟩ := h settled t p ht
    exact hupper _ _ _ ((hB.capacity hs).mono (fun _ _ h => hback _ _ _ h)
      fun _ _ h => hback _ _ _ h)
  note {settled t p} event ht := hnote settled t p event ht

/-- A store in memory refuses nothing to the inodes that it has. -/
theorem Memory.backing_of_size (size : Nat) :
    Backing store (fun ino => ino.toNat < size) (fun _ _ _ _ => True) (fun _ _ _ _ => False)
      (fun settled m p => Healthy settled m p ∧ p.size = size) where
  read a hs := (backing.read a hs.1).mono (fun _ _ h => ⟨⟨h.1, hs.2⟩, h.2⟩)
    fun _ _ h => ⟨⟨h.1, hs.2⟩, trivial⟩
  write a block hs hino hnot := (backing.write a block hs.1 trivial hnot).mono
    (fun _ _ h => ⟨⟨h.1, (Plain.size_write ..).trans hs.2⟩, h.2⟩)
    fun _ _ h => ⟨⟨h.1, hs.2⟩, Nat.not_le_of_lt (hs.2 ▸ hino) h.2.1⟩
  resize ino blocks hs hino hnot := (backing.resize ino blocks hs.1 trivial hnot).mono
    (fun _ _ h => ⟨⟨h.1, (Plain.size_resize ..).trans hs.2⟩, h.2⟩)
    fun _ _ h => ⟨⟨h.1, hs.2⟩, Nat.not_le_of_lt (hs.2 ▸ hino) h.2.1⟩
  sync ino hs hino := (backing.sync ino hs.1 trivial).mono (fun _ _ h => ⟨h, hs.2⟩)
    fun _ _ h => ⟨⟨h.1, hs.2⟩, Nat.not_le_of_lt (hs.2 ▸ hino) h.2.1⟩
  size ino hs := (backing.size ino hs.1).mono (fun _ _ h => ⟨h, hs.2⟩) fun _ _ h => ⟨h, hs.2⟩
  capacity hs := (backing.capacity hs.1).mono (fun _ _ h => ⟨h, hs.2⟩) fun _ _ h => ⟨h, hs.2⟩
  note _ hs := hs

namespace Pool

/-! ### Cells -/

variable {base size id holders : Nat} {settled : UInt32 → Prop} {pool pool' : Pool} {p : Plain}

/-- A layer that is put back is found in its cell, with the same
holders. -/
theorem put_self {layer layer' : Layer}
    (h : pool.cells[id]? = some ⟨layer, holders⟩) :
    (pool.put id layer').cells[id]? = some ⟨layer', holders⟩ := by
  simp [put, Array.getElem?_modify, h]

/-- Every other cell is as before. -/
theorem put_of_ne {layer : Layer} {j : Nat} (h : j ≠ id) :
    (pool.put id layer).cells[j]? = pool.cells[j]? := by
  rw [put, Array.getElem?_modify, if_neg h.symm]

/-- An operation of a layer that was taken out of its place. -/
theorem running_ends {τ α : Type} {wrap : τ → Layer} {mine : τ} {x : Op (τ × Pool) α}
    {good : α → Pool → Prop} {bad : Fault → Pool → Prop}
    (h : Op.Ends x (mine, pool) (fun value after => good value (after.2.put id (wrap after.1)))
      (fun fault after => bad fault (after.2.put id (wrap after.1)))) :
    Op.Ends (running id wrap mine x) pool good bad := by
  rcases h.exists_run with ⟨value, after, hx, hgood⟩ | ⟨fault, after, hx, hbad⟩
  · exact .of_ok (by unfold running; rw [hx]) hgood
  · exact .of_fault (by unfold running; rw [hx]) hbad

/-- A store in memory answers in its place. -/
theorem serve_memory {m : Memory}
    (h : pool.cells[id]? = some ⟨.memory m, holders⟩) :
    Forwards (serve id) pool Memory.store m fun m' =>
      (pool.put id .gone).put id (.memory m') := by
  intro q good bad hends
  have hlayer : pool.layer id = .memory m := by rw [layer, h]
  unfold Op.Ends
  rw [serve, Op.bind_apply]
  dsimp only [take]
  rw [hlayer]
  exact running_ends (Op.Ends.upper hends)

/-- A cache answers in its place, over the layer below. -/
theorem serve_cache {n : Nat} {c : Cache n} {below : Nat}
    (h : pool.cells[id]? = some ⟨.cache n c below, holders⟩) (hbelow : below < id) :
    Forwards (serve id) pool (Cache.store (serve below)) (c, pool.put id .gone) fun after =>
      after.2.put id (.cache n after.1 below) := by
  intro q good bad hends
  have hlayer : pool.layer id = .cache n c below := by rw [layer, h]
  unfold Op.Ends
  rw [serve, Op.bind_apply]
  dsimp only [take]
  rw [hlayer]
  dsimp only
  rw [dif_pos hbelow]
  exact running_ends hends

/-! ### Stacks -/

/-- The layer with a number is the top of a stack of caches over the
store in memory `base`, and shows a content. Each cache has one holder,
and the store has `holders`. -/
inductive Stands (base size holders : Nat) (settled : UInt32 → Prop) (pool : Pool) :
    Nat → Plain → Prop where
  | memory {m : Memory} (hcell : pool.cells[base]? = some ⟨.memory m, holders⟩)
      (halive : m.dead = false) (hsize : m.inodes.size = size) :
      Stands base size holders settled pool base m.inodes
  | cache {id below n : Nat} {c : Cache n} {q p : Plain}
      (hcell : pool.cells[id]? = some ⟨.cache n c below, 1⟩) (hbelow : below < id)
      (hcovered : Cache.Covered size settled c q p)
      (hstands : Stands base size holders settled pool below q) :
      Stands base size holders settled pool id p

/-- Younger layers do not matter. -/
theorem Stands.congr (h : Stands base size holders settled pool id p)
    (hcells : ∀ j ≤ id, pool'.cells[j]? = pool.cells[j]?) :
    Stands base size holders settled pool' id p := by
  induction h with
  | memory hcell halive hsize =>
    exact .memory ((hcells base (Nat.le_refl _)).trans hcell) halive hsize
  | @cache id below n c q p hcell hbelow hcovered hstands ih =>
    refine .cache ((hcells id (Nat.le_refl _)).trans hcell) hbelow hcovered (ih fun j hj => ?_)
    exact hcells j (Nat.le_trans hj (Nat.le_of_lt hbelow))

/-- Inodes may count as not settled. -/
theorem Stands.unsettle {settled' : UInt32 → Prop} (h : Stands base size holders settled pool id p)
    (hless : ∀ ino, settled' ino → settled ino) : Stands base size holders settled' pool id p := by
  induction h with
  | memory hcell halive hsize => exact .memory hcell halive hsize
  | cache hcell hbelow hcovered hstands ih =>
    exact .cache hcell hbelow (hcovered.unsettle hless) ih

/-- The top of a stack refuses nothing. It leaves younger layers as they
are. -/
theorem serve_backing (base size holders id : Nat) (younger : Nat → Option Cell) :
    Backing (serve id) (fun ino => ino.toNat < size) (fun _ _ _ _ => True) (fun _ _ _ _ => False)
      (fun settled pool p => Stands base size holders settled pool id p ∧
        ∀ j, id < j → pool.cells[j]? = younger j) := by
  -- A cache stands on an older layer. That layer leaves the cache's own cell alone, which
  -- is younger, and so the cell is still free when the cache comes back to it.
  induction id using Nat.strongRecOn generalizing younger with
  | ind id ih =>
    refine Backing.forward (fun settled pool p hpool => ?_) ?_
    · obtain ⟨hstands, hyounger⟩ := hpool
      cases hstands with
      | @memory m hcell halive hsize =>
        refine ⟨Memory, inferInstance, Memory.store, _, m, _, Memory.backing_of_size size,
          ⟨⟨halive, rfl⟩, hsize⟩, ?_, serve_memory hcell⟩
        intro settled' m' p' hm'
        obtain ⟨⟨halive', rfl⟩, hsize'⟩ := hm'
        refine ⟨.memory (put_self (put_self hcell)) halive' hsize', fun j hj => ?_⟩
        rw [put_of_ne (Nat.ne_of_gt hj), put_of_ne (Nat.ne_of_gt hj), hyounger j hj]
      | @cache _ below n c q _ hcell hbelow hcovered hstands =>
        have hout : ∀ j ≤ below, (pool.put id .gone).cells[j]? = pool.cells[j]? :=
          fun j hj => put_of_ne (Nat.ne_of_lt (Nat.lt_of_le_of_lt hj hbelow))
        refine ⟨Cache n × Pool, inferInstance, Cache.store (serve below), _,
          (c, pool.put id .gone), _,
          (Cache.backing (ih below hbelow fun j => (pool.put id .gone).cells[j]?)).weaken
            (fun _ _ _ _ hno => hno.elim fun _ hno => hno.elim fun _ hno => hno),
          ⟨q, hcovered, hstands.congr hout, fun _ _ => rfl⟩, ?_, serve_cache hcell hbelow⟩
        intro settled' after p' hafter
        obtain ⟨c', pool'⟩ := after
        obtain ⟨q', hcovered', hstands', hframe⟩ := hafter
        have hgone := (hframe id hbelow).trans (put_self hcell)
        refine ⟨.cache (put_self hgone) hbelow hcovered' (hstands'.congr fun j hj => ?_),
          fun j hj => ?_⟩
        · exact put_of_ne (Nat.ne_of_lt (Nat.lt_of_le_of_lt hj hbelow))
        · rw [put_of_ne (Nat.ne_of_gt hj), hframe j (Nat.lt_trans hbelow hj),
            put_of_ne (Nat.ne_of_gt hj), hyounger j hj]
    · intro settled pool p event hpool
      exact ⟨hpool.1.congr fun _ _ => rfl, hpool.2⟩

end Pool

end BlockLayers
