import BlockLayers.Proofs.Pool.Stack

/-!
# `BlockLayers.Proofs.Pool.Rest`: a stack comes to rest

While a stack of caches is in use, the store in memory at its bottom may
lag behind what the top shows. When every inode has been synced, or when
the top has been let go and the caches have closed one after the other,
it has all of it (`Rests`).

Main statement: `rests_after`. Whatever was requested of the stack, the
store at its bottom comes to hold what it would hold if it had received
the writes and resizes directly.
-/

set_option autoImplicit false

namespace BlockLayers.Pool

variable {base size id holders : Nat} {settled : UInt32 → Prop} {pool : Pool} {p : Plain}

/-- The store in memory with the number `base` has a content. -/
def Rests (base : Nat) (pool : Pool) (p : Plain) : Prop :=
  ∃ m holders, pool.cells[base]? = some ⟨.memory m, holders⟩ ∧ m.inodes = p

/-! ### Syncs -/

/-- When all inodes are settled, what the top shows is at the bottom. -/
theorem Stands.rests (h : Stands base size holders settled pool id p)
    (hall : ∀ ino : UInt32, ino.toNat < size → settled ino) : Rests base pool p := by
  induction h with
  | memory hcell => exact ⟨_, _, hcell, rfl⟩
  | cache _ _ hcovered _ ih =>
    -- A cache without changed blocks shows what the layer below shows.
    exact hcovered.eq (hcovered.clean_of_settled hall) ▸ ih

/-- Syncs settle their inodes. -/
theorem Stands.syncs (inos : List UInt32) (hinos : ∀ ino ∈ inos, ino.toNat < size) {pool : Pool}
    {settled : UInt32 → Prop} (h : Stands base size holders settled pool id p) :
    Stands base size holders (fun ino => ino ∈ inos ∨ settled ino)
      (Op.after (serve id) (inos.map .sync) pool) id p := by
  induction inos generalizing pool settled with
  | nil => exact h.unsettle fun ino hin => hin.resolve_left List.not_mem_nil
  | cons ino rest ih =>
    obtain ⟨hino, hrest⟩ := List.forall_mem_cons.mp hinos
    have hB := serve_backing base size holders id fun j => pool.cells[j]?
    have hnext := Op.Ends.next
      (fun pool => Stands base size holders (fun other => other = ino ∨ settled other) pool id p)
      ((hB.sync ino ⟨h, fun _ _ => rfl⟩ hino).mono (fun _ _ h => h.1) fun _ _ h => h.2.elim)
    refine (ih hrest hnext).unsettle fun other hin => ?_
    rcases hin with hin | hin
    · rcases List.mem_cons.mp hin with rfl | hin
      · exact .inr (.inl rfl)
      · exact .inl hin
    · exact .inr (.inr hin)

/-! ### Release -/

/-- A layer that is loosened has one holder less. -/
theorem loosen_self {layer : Layer}
    (h : pool.cells[id]? = some ⟨layer, holders⟩) :
    (pool.loosen id).cells[id]? = some ⟨layer, holders - 1⟩ := by
  simp [loosen, Array.getElem?_modify, h]

/-- Every other cell is as before. -/
theorem loosen_of_ne {j : Nat} (h : j ≠ id) :
    (pool.loosen id).cells[j]? = pool.cells[j]? := by
  rw [loosen, Array.getElem?_modify, if_neg h.symm]

/-- A cache that closes leaves what it showed to the layer below. -/
theorem close_ends {below n : Nat} {c : Cache n} {q : Plain}
    (hcovered : Cache.Covered size settled c q p)
    (hstands : Stands base size holders settled pool below q) :
    Op.Ends (do let _ ← Op.withOwn c (Cache.close (serve below))) pool
      (fun _ after => Stands base size holders settled after below p) fun _ _ => False := by
  have hB := serve_backing base size holders below fun j => pool.cells[j]?
  refine Op.Ends.withOwn_seq (Cache.close_ends (fun _ _ _ _ hno => hno) hB hcovered.clean
    hcovered.free ⟨hstands, fun _ _ => rfl⟩) (fun _ _ hno => hno) fun _ after hafter => ?_
  obtain ⟨⟨q', hpolicy, hmoves, hstands', -⟩, hclean⟩ := hafter
  exact Op.Ends.pure ((hcovered.moves hpolicy hmoves).eq hclean ▸ hstands')

/-- When the top of a stack is let go, the caches close one after the
other, and what the top showed is at the bottom. -/
theorem release_ends (hheld : 2 ≤ holders) (h : Stands base size holders settled pool id p) :
    Op.Ends (release id) pool (fun _ after => Rests base after p) fun _ _ => False := by
  induction id using Nat.strongRecOn generalizing pool p with
  | ind id ih =>
    rw [release]
    refine Op.Ends.modify_seq (Op.Ends.get_seq ?_)
    cases h with
    | @memory m hcell =>
      -- Somebody else holds the store, and it stays.
      have hcount : (pool.loosen base).holders base = holders - 1 := by
        rw [Pool.holders, loosen_self hcell]
      rw [hcount, if_neg (by omega)]
      exact Op.Ends.pure ⟨m, _, loosen_self hcell, rfl⟩
    | @cache _ below n c q _ hcell hbelow hcovered hstands =>
      -- Nobody else holds the cache. It closes, and lets the layer below go.
      have hcount : (pool.loosen id).holders id = 0 := by
        rw [Pool.holders, loosen_self hcell]
      have hlayer : (pool.loosen id).layer id = .cache n c below := by
        rw [layer, loosen_self hcell]
      have hbelow' : Stands base size holders settled ((pool.loosen id).put id .gone) below q :=
        hstands.congr fun j hj => by
          have hne := Nat.ne_of_lt (Nat.lt_of_le_of_lt hj hbelow)
          rw [put_of_ne hne, loosen_of_ne hne]
      rw [hcount, if_pos rfl]
      unfold Op.Ends
      rw [Op.bind_apply]
      dsimp only [take]
      rw [hlayer]
      dsimp only [Layer.supports, List.foldr]
      rw [dif_pos hbelow]
      exact Op.Ends.finishing (close_ends hcovered hbelow') fun after hafter =>
        Op.Ends.finishing (ih below hbelow hafter) fun _ hrests => Op.Ends.pure hrests

/-! ### Requests -/

/-- A request to a stack changes what its top shows as it changes a store
in memory. -/
theorem Stands.request {m : Memory} (halive : m.dead = false)
    (h : Stands base size holders (fun _ => False) pool id m.inodes) (hsize : m.inodes.size = size)
    {q : Request} (hq : q.Within size) :
    let m' := if q.changes then Op.next (Memory.store q) m else m
    m'.dead = false ∧ m'.inodes.size = size ∧
      Stands base size holders (fun _ => False) (Op.next (serve id q) pool) id m'.inodes := by
  have hB := serve_backing base size holders id fun j => pool.cells[j]?
  have hpool : Stands base size holders (fun _ => False) pool id m.inodes ∧
      ∀ j, id < j → pool.cells[j]? = pool.cells[j]? := ⟨h, fun _ _ => rfl⟩
  cases q with
  | write a block =>
    have hino := hq a.ino rfl
    have hnext := Op.Ends.next
      (fun after =>
        Stands base size holders (fun _ => False) after id (Plain.write a block m.inodes))
      ((hB.write a block hpool hino fun hno => hno).mono (fun _ _ h => h.1.1)
        fun _ _ h => h.2.elim)
    dsimp only
    rw [if_pos (show Request.changes (.write a block) = true from rfl), Op.next,
      Memory.write_apply halive block (hsize ▸ hino)]
    exact ⟨halive, (Plain.size_write ..).trans hsize, hnext⟩
  | resize ino blocks =>
    have hino := hq ino rfl
    have hnext := Op.Ends.next
      (fun after =>
        Stands base size holders (fun _ => False) after id (Plain.resize ino blocks m.inodes))
      ((hB.resize ino blocks hpool hino fun hno => hno).mono (fun _ _ h => h.1.1)
        fun _ _ h => h.2.elim)
    dsimp only
    rw [if_pos (show Request.changes (.resize ino blocks) = true from rfl), Op.next,
      Memory.resize_apply halive blocks (hsize ▸ hino)]
    exact ⟨halive, (Plain.size_resize ..).trans hsize, hnext⟩
  | read a =>
    refine ⟨halive, hsize, Op.Ends.next
      (fun after => Stands base size holders (fun _ => False) after id m.inodes) ?_⟩
    exact (hB.read a hpool).mono (fun _ _ h => h.1.1) fun _ _ h => h.1.1
  | sync ino =>
    refine ⟨halive, hsize, Op.Ends.next
      (fun after => Stands base size holders (fun _ => False) after id m.inodes) ?_⟩
    exact (hB.sync ino hpool (hq ino rfl)).mono
      (fun _ _ h => h.1.unsettle fun _ hno => hno.elim) fun _ _ h => h.2.elim
  | size ino =>
    refine ⟨halive, hsize, Op.Ends.next
      (fun after => Stands base size holders (fun _ => False) after id m.inodes) ?_⟩
    exact (hB.size ino hpool).mono (fun _ _ h => h.1) fun _ _ h => h.1
  | capacity =>
    refine ⟨halive, hsize, Op.Ends.next
      (fun after => Stands base size holders (fun _ => False) after id m.inodes) ?_⟩
    exact (hB.capacity hpool).mono (fun _ _ h => h.1) fun _ _ h => h.1

/-- After any requests a stack shows what a store in memory keeps that
received the writes and resizes. -/
theorem Stands.requests (requests : List Request) (hin : ∀ q ∈ requests, q.Within size)
    {pool : Pool} {m : Memory} (halive : m.dead = false)
    (h : Stands base size holders (fun _ => False) pool id m.inodes)
    (hsize : m.inodes.size = size) :
    Stands base size holders (fun _ => False) (Op.after (serve id) requests pool) id
      (Op.after Memory.store (requests.filter Request.changes) m).inodes := by
  induction requests generalizing pool m with
  | nil => exact h
  | cons q rest ih =>
    obtain ⟨hq, hrest⟩ := List.forall_mem_cons.mp hin
    obtain ⟨halive', hsize', h'⟩ := h.request halive hsize hq
    have hafter := ih hrest halive' h' hsize'
    rw [List.filter_cons]
    split
    · rename_i hchanges
      rw [if_pos hchanges] at hafter
      exact hafter
    · rename_i hchanges
      rw [if_neg hchanges] at hafter
      exact hafter

/-- A stack of new caches over the store in memory `base`. Each cache is
held once: by the cache above it, or at the top by a user. -/
inductive Stack (pool : Pool) (base : Nat) : Nat → Prop where
  | base : Stack pool base base
  | cache {id below n : Nat} {policy : Cache.Policy} {hn : 0 < n}
      (hcell : pool.cells[id]? = some ⟨.cache n (Cache.empty policy n hn) below, 1⟩)
      (hbelow : below < id) (hstack : Stack pool base below) : Stack pool base id

/-- A stack of new caches shows what is at its bottom. -/
theorem Stack.stands {m : Memory} (h : Stack pool base id)
    (hcell : pool.cells[base]? = some ⟨.memory m, holders⟩) (halive : m.dead = false) :
    Stands base m.inodes.size holders (fun _ => False) pool id m.inodes := by
  induction h with
  | base => exact .memory hcell halive rfl
  | cache hcell' hbelow _ ih => exact .cache hcell' hbelow (.empty _ _ _ m.inodes) ih

/-- Any requests are made at the top of a stack of new caches, to inodes
that are there. When every inode is synced after that, or when the top
is let go and somebody still holds the store at the bottom, then that
store holds what it would hold if it had received the writes and resizes
directly. The number of caches, their sizes and their policies make no
difference. -/
theorem rests_after {top : Nat} {m : Memory} (hstack : Stack pool base top)
    (hcell : pool.cells[base]? = some ⟨.memory m, holders⟩) (halive : m.dead = false)
    (requests : List Request) (hin : ∀ q ∈ requests, q.Within m.inodes.size) :
    let used := Op.after (serve top) requests pool
    let direct := Op.after Memory.store (requests.filter Request.changes) m
    (∀ inos : List UInt32, (∀ ino, ino ∈ inos ↔ ino.toNat < m.inodes.size) →
      Rests base (Op.after (serve top) (inos.map .sync) used) direct.inodes) ∧
    (2 ≤ holders → Rests base (Op.next (release top) used) direct.inodes) := by
  have h := (hstack.stands hcell halive).requests requests hin halive rfl
  refine ⟨fun inos hinos => ?_, fun hheld => ?_⟩
  · exact (h.syncs inos fun ino => (hinos ino).mp).rests fun ino hino => .inl ((hinos ino).mpr hino)
  · exact Op.Ends.next (fun after => Rests base after _)
      ((release_ends hheld h).mono (fun _ _ h => h) fun _ _ hno => hno.elim)

/-- A cache of two slots over one of another policy. A block is written
past the end, cut off again, and another one written. -/
theorem rests_after_two_caches :
    let m := Memory.empty 1
    let pool : Pool := ⟨#[⟨.memory m, 2⟩,
      ⟨.cache 1 (Cache.empty .writeBack 1 Nat.one_pos) 0, 1⟩,
      ⟨.cache 2 (Cache.empty .writeThrough 2 Nat.two_pos) 1, 1⟩],
      Host.Machine.start Host.Directory.empty (Event.Filter.upTo none)⟩
    let requests := [.write ⟨0, 2⟩ (Block.fill 1), .resize 0 2, .write ⟨0, 1⟩ (Block.fill 2)]
    let used := Op.after (serve 2) requests pool
    let direct := Op.after Memory.store (requests.filter Request.changes) m
    direct.inodes = #[#[Block.zero, Block.fill 2]] ∧
    Rests 0 (Op.after (serve 2) ([0].map .sync) used) direct.inodes ∧
    Rests 0 (Op.next (release 2) used) direct.inodes := by
  intro m pool requests used direct
  have hstack : Stack pool 0 2 :=
    .cache (n := 2) rfl Nat.one_lt_two (.cache (n := 1) rfl Nat.zero_lt_one .base)
  have hrests := rests_after hstack (m := m) rfl rfl requests fun q hq ino hino => by
    simp only [requests, List.mem_cons, List.not_mem_nil, or_false] at hq
    rcases hq with rfl | rfl | rfl <;> cases hino <;> decide
  refine ⟨rfl, hrests.1 [0] fun ino => ?_, hrests.2 (Nat.le_refl 2)⟩
  rw [List.mem_singleton, ← UInt32.toNat_inj]
  exact Nat.lt_one_iff.symm

end BlockLayers.Pool
