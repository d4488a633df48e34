import BlockLayers.Cache.Ring
import BlockLayers.Proofs.Plain
import Mathlib.Logic.Function.Basic
import Mathlib.Logic.Relation

/-!
# `BlockLayers.Proofs.Cache.Shelf`: what the slots of a cache hold

A `Shelf` is what matters of the slots of a cache: the address and the
block in each, and whether the block differs from the one below. The
marks of the hand are left out.

Besides what it is asked to do, a cache only ever does three things to
its shelf and the store below (`Move`): it writes a changed block below,
which then is no longer changed, it gives up a block that is not
changed, and it takes in a block from below. `Over` is what every shelf
keeps: no address has two slots, and a block that is not changed is the
one below.

Main statements: `Over.moves`, and `Over.held` for the block of a place
that the cache holds.
-/

set_option autoImplicit false

namespace BlockLayers.Cache

/-- What a slot keeps. -/
structure Kept where
  /-- The address of the block. -/
  key : Address
  /-- The block. -/
  data : Block
  /-- Whether the block differs from the one below. -/
  dirty : Bool

/-- What a line keeps. -/
def Line.kept (line : Line) : Kept := ⟨line.key, line.data, line.dirty⟩

/-- What each slot keeps. -/
abbrev Shelf (n : Nat) := Fin n → Option Kept

/-- What the slots of a ring keep. -/
def Ring.shelf {n : Nat} (r : Ring n) : Shelf n := fun s => (Row.at_ r.slots s).map Line.kept

namespace Shelf

variable {n : Nat}

/-- The changed block of a place. -/
def Dirty (K : Shelf n) (i k : Nat) (block : Block) : Prop :=
  ∃ s x, K s = some x ∧ x.dirty = true ∧ (i = x.key.ino.toNat ∧ k = x.key.offset.toNat) ∧
    x.data = block

/-- No slot keeps a changed block of a place. -/
def Unchanged (K : Shelf n) (i k : Nat) : Prop := ∀ block, ¬ K.Dirty i k block

/-- No slot keeps a changed block. -/
def Clean (K : Shelf n) : Prop := ∀ s x, K s = some x → x.dirty = false

/-- No slot keeps the block of an address. -/
def Lacks (K : Shelf n) (a : Address) : Prop := ∀ s x, K s = some x → x.key ≠ a

/-- A slot is the only one in which the block of an address can be put:
it keeps that block, or it is empty and no slot keeps it. -/
def Place (K : Shelf n) (s : Fin n) (a : Address) : Prop :=
  ∀ s' x, K s' = some x → (x.key = a ↔ s' = s)

/-- The shelf without the blocks of an inode at or behind an offset. -/
def dropFrom (ino start : UInt32) (K : Shelf n) : Shelf n := fun s =>
  (K s).filter fun x => !(x.key.ino = ino && start ≤ x.key.offset)

/-- What a cache does of its own accord: to its shelf and the content of
the store below. -/
inductive Move : Shelf n × Plain → Shelf n × Plain → Prop where
  /-- A changed block is written below. -/
  | flush {K : Shelf n} {p : Plain} {s : Fin n} {x : Kept} (hs : K s = some x)
      (hdirty : x.dirty = true) (hino : x.key.ino.toNat < p.size) :
      Move (K, p) (Function.update K s (some { x with dirty := false }), p.write x.key x.data)
  /-- A block that is not changed is given up. -/
  | evict {K : Shelf n} {p : Plain} {s : Fin n} {x : Kept} (hs : K s = some x)
      (hclean : x.dirty = false) : Move (K, p) (Function.update K s none, p)
  /-- A block is taken in from below. -/
  | load {K : Shelf n} {p : Plain} {s : Fin n} {a : Address} {block : Block} (hs : K s = none)
      (ha : K.Lacks a) (hblock : p.block? a = some block) :
      Move (K, p) (Function.update K s (some ⟨a, block, false⟩), p)

/-- A number of moves. -/
abbrev Moves : Shelf n × Plain → Shelf n × Plain → Prop := Relation.ReflTransGen Move

/-- A shelf over a store: no address has two slots, and blocks that are
not changed are those below. -/
structure Over (K : Shelf n) (p : Plain) : Prop where
  distinct : ∀ s s' x x', K s = some x → K s' = some x' → x.key = x'.key → s = s'
  clean : ∀ s x, K s = some x → x.dirty = false → p.block? x.key = some x.data

variable {K K' : Shelf n} {p p' : Plain} {s : Fin n} {x : Kept} {a : Address}

/-- What a slot keeps after one was set was put there, or was kept
before. -/
theorem update_eq_some {s' : Fin n} {slot : Option Kept}
    (h : Function.update K s slot s' = some x) :
    s' = s ∧ slot = some x ∨ s' ≠ s ∧ K s' = some x := by
  by_cases hs : s' = s
  · subst hs
    rw [Function.update_self] at h
    exact .inl ⟨rfl, h⟩
  · rw [Function.update_of_ne hs] at h
    exact .inr ⟨hs, h⟩

/-- What a slot keeps after one was emptied is in another slot, and was
kept before. -/
theorem remove_eq_some {s' : Fin n} (h : Function.update K s none s' = some x) :
    s' ≠ s ∧ K s' = some x := by
  rcases update_eq_some h with ⟨-, hno⟩ | h
  · cases hno
  · exact h

/-- What a shelf keeps that gave up the blocks behind an offset. -/
theorem dropFrom_eq_some {ino start : UInt32} :
    K.dropFrom ino start s = some x ↔
      K s = some x ∧ ¬ (x.key.ino = ino ∧ start ≤ x.key.offset) := by
  simp [dropFrom, Option.filter_eq_some_iff, imp_iff_not_or]

/-! ### Places -/

/-- A block that no slot keeps is in none after one was emptied. -/
theorem Lacks.remove (h : K.Lacks a) (s : Fin n) : Lacks (Function.update K s none) a :=
  fun s' x hs' => h s' x (remove_eq_some hs').2

/-- An empty slot is a place for a block that no slot keeps. -/
theorem Lacks.place (h : K.Lacks a) (s : Fin n) : Place (Function.update K s none) s a :=
  fun s' x hs' => ⟨fun hkey => (h s' x (remove_eq_some hs').2 hkey).elim,
    fun heq => ((remove_eq_some hs').1 heq).elim⟩

/-- The slot that keeps a block is its place. -/
theorem Over.place (h : K.Over p) (hs : K s = some x) : K.Place s x.key :=
  fun s' x' hs' => ⟨fun hkey => h.distinct s' s x' x hs' hs hkey, fun heq => by
    subst heq
    rw [hs] at hs'
    cases hs'
    rfl⟩

/-- Without the slot that keeps it no slot keeps a block. -/
theorem Place.lacks (h : K.Place s a) : Lacks (Function.update K s none) a := by
  intro s' x hs' hkey
  obtain ⟨hne, hs'⟩ := remove_eq_some hs'
  exact hne ((h s' x hs').mp hkey)

/-! ### The changed blocks -/

/-- The changed blocks after a change of one slot. -/
theorem dirty_update {slot : Option Kept} {i k : Nat} {block : Block} :
    Dirty (Function.update K s slot) i k block ↔
      (∃ x, slot = some x ∧ x.dirty = true ∧ (i = x.key.ino.toNat ∧ k = x.key.offset.toNat) ∧
        x.data = block) ∨
      ∃ s' x, s' ≠ s ∧ K s' = some x ∧ x.dirty = true ∧
        (i = x.key.ino.toNat ∧ k = x.key.offset.toNat) ∧ x.data = block := by
  constructor
  · intro h
    obtain ⟨s', x, hs', hx⟩ := h
    rcases update_eq_some hs' with ⟨-, hslot⟩ | ⟨hne, hs'⟩
    · exact .inl ⟨x, hslot, hx⟩
    · exact .inr ⟨s', x, hne, hs', hx⟩
  · intro h
    rcases h with ⟨x, hslot, hx⟩ | ⟨s', x, hne, hs', hx⟩
    · exact ⟨s, x, by rw [Function.update_self, hslot], hx⟩
    · exact ⟨s', x, by rw [Function.update_of_ne hne, hs'], hx⟩

/-- Slots without changed blocks do not matter. -/
theorem dirty_update_clean {slot : Option Kept} (hold : ∀ x, K s = some x → x.dirty = false)
    (hnew : ∀ x, slot = some x → x.dirty = false) {i k : Nat} {block : Block} :
    Dirty (Function.update K s slot) i k block ↔ K.Dirty i k block := by
  rw [dirty_update]
  constructor
  · intro h
    rcases h with ⟨x, hslot, hx, -⟩ | ⟨s', x, -, hx⟩
    · rw [hnew x hslot] at hx
      cases hx
    · exact ⟨s', x, hx⟩
  · intro h
    obtain ⟨s', x, hs', hdirty, hx⟩ := h
    refine .inr ⟨s', x, fun heq => ?_, hs', hdirty, hx⟩
    rw [hold x (heq ▸ hs')] at hdirty
    cases hdirty

/-- The changed blocks are the same without one that is not changed. -/
theorem dirty_evict (hs : K s = some x) (hclean : x.dirty = false) {i k : Nat} {block : Block} :
    Dirty (Function.update K s none) i k block ↔ K.Dirty i k block := by
  refine dirty_update_clean (fun x' hs' => ?_) fun x' hs' => by cases hs'
  rw [hs] at hs'
  cases hs'
  exact hclean

/-- The changed blocks are the same after a block was taken in. -/
theorem dirty_load (hs : K s = none) {data : Block} {i k : Nat} {block : Block} :
    Dirty (Function.update K s (some ⟨a, data, false⟩)) i k block ↔ K.Dirty i k block := by
  refine dirty_update_clean (fun x' hs' => ?_) fun x' hs' => ?_
  · rw [hs] at hs'
    cases hs'
  · cases hs'
    rfl

/-- The changed blocks after one was put in its place. -/
theorem dirty_set (h : K.Place s a) {data : Block} {i k : Nat} {block : Block} :
    Dirty (Function.update K s (some ⟨a, data, true⟩)) i k block ↔
      (i = a.ino.toNat ∧ k = a.offset.toNat) ∧ data = block ∨
      ¬ (i = a.ino.toNat ∧ k = a.offset.toNat) ∧ K.Dirty i k block := by
  rw [dirty_update]
  constructor
  · intro hd
    rcases hd with ⟨x, hslot, -, hx⟩ | ⟨s', x, hne, hs', hdirty, ⟨rfl, rfl⟩, hx⟩
    · cases hslot
      exact .inl hx
    · refine .inr ⟨fun hat => ?_, s', x, hs', hdirty, ⟨rfl, rfl⟩, hx⟩
      exact hne ((h s' x hs').mp (Address.eq_of_toNat hat.1 hat.2))
  · intro hd
    rcases hd with ⟨hat, hdata⟩ | ⟨hne, s', x, hs', hdirty, ⟨rfl, rfl⟩, hx⟩
    · exact .inl ⟨_, rfl, rfl, hat, hdata⟩
    · refine .inr ⟨s', x, fun heq => ?_, hs', hdirty, ⟨rfl, rfl⟩, hx⟩
      rw [(h s' x hs').mpr heq] at hne
      exact hne ⟨rfl, rfl⟩

/-- A place with a changed block has one after another was put in its
place. -/
theorem Place.changed_set (h : K.Place s a) {data : Block} {i k : Nat}
    (hchanged : ¬ K.Unchanged i k) :
    ¬ Unchanged (Function.update K s (some ⟨a, data, true⟩)) i k := by
  intro hu
  refine hchanged fun block hd => ?_
  -- The old block of the place is replaced by the new one, and any other is kept.
  by_cases hat : i = a.ino.toNat ∧ k = a.offset.toNat
  · exact hu data ((dirty_set h).mpr (.inl ⟨hat, rfl⟩))
  · exact hu block ((dirty_set h).mpr (.inr ⟨hat, hd⟩))

/-- A changed block that was put in its place is there. -/
theorem Place.changed_set_self (h : K.Place s a) (data : Block) :
    ¬ Unchanged (Function.update K s (some ⟨a, data, true⟩)) a.ino.toNat a.offset.toNat :=
  fun hu => hu data ((dirty_set h).mpr (.inl ⟨⟨rfl, rfl⟩, rfl⟩))

/-- The changed blocks after one was written below. -/
theorem Over.dirty_flush (h : K.Over p) (hs : K s = some x) {i k : Nat} {block : Block} :
    Dirty (Function.update K s (some { x with dirty := false })) i k block ↔
      ¬ (i = x.key.ino.toNat ∧ k = x.key.offset.toNat) ∧ K.Dirty i k block := by
  rw [dirty_update]
  constructor
  · intro hd
    rcases hd with ⟨x', hslot, hdirty, -⟩ | ⟨s', x', hne, hs', hdirty, ⟨rfl, rfl⟩, hx'⟩
    · cases hslot
      cases hdirty
    · -- No other slot keeps the block that was written.
      refine ⟨fun hat => hne ?_, s', x', hs', hdirty, ⟨rfl, rfl⟩, hx'⟩
      exact h.distinct s' s x' x hs' hs (Address.eq_of_toNat hat.1 hat.2)
  · intro hd
    obtain ⟨hne, s', x', hs', hdirty, hat, hx'⟩ := hd
    refine .inr ⟨s', x', fun heq => ?_, hs', hdirty, hat, hx'⟩
    subst heq
    rw [hs] at hs'
    cases hs'
    exact hne hat

/-- The changed blocks that stay when an inode is cut. -/
theorem dirty_dropFrom {ino start : UInt32} {i k : Nat} {block : Block} :
    (K.dropFrom ino start).Dirty i k block ↔
      ¬ (i = ino.toNat ∧ start.toNat ≤ k) ∧ K.Dirty i k block := by
  -- The place of a block and its address say the same of the cut.
  have hiff : ∀ x : Kept, i = x.key.ino.toNat ∧ k = x.key.offset.toNat →
      ((x.key.ino = ino ∧ start ≤ x.key.offset) ↔ (i = ino.toNat ∧ start.toNat ≤ k)) := by
    intro x hat
    rw [hat.1, hat.2, UInt32.toNat_inj, UInt32.le_iff_toNat_le]
  constructor
  · intro h
    obtain ⟨s, x, hs, hdirty, hat, hx⟩ := h
    obtain ⟨hs, hin⟩ := dropFrom_eq_some.mp hs
    exact ⟨fun h => hin ((hiff x hat).mpr h), s, x, hs, hdirty, hat, hx⟩
  · intro h
    obtain ⟨hin, s, x, hs, hdirty, hat, hx⟩ := h
    exact ⟨s, x, dropFrom_eq_some.mpr ⟨hs, fun h => hin ((hiff x hat).mp h)⟩, hdirty, hat, hx⟩

/-- A block that a slot keeps was changed, or is the one below. -/
theorem Over.held (h : K.Over p) (hs : K s = some x) :
    K.Dirty x.key.ino.toNat x.key.offset.toNat x.data ∨
      K.Unchanged x.key.ino.toNat x.key.offset.toNat ∧ p.block? x.key = some x.data := by
  cases hdirty : x.dirty with
  | true => exact .inl ⟨s, x, hs, hdirty, ⟨rfl, rfl⟩, rfl⟩
  | false =>
    refine .inr ⟨fun block hd => ?_, h.clean s x hs hdirty⟩
    obtain ⟨s', x', hs', hdirty', ⟨hino, hoffset⟩, -⟩ := hd
    -- A changed block of this place would be in the same slot.
    have heq := (h.place hs s' x' hs').mp (Address.eq_of_toNat hino hoffset).symm
    subst heq
    rw [hs] at hs'
    cases hs'
    rw [hdirty] at hdirty'
    cases hdirty'

/-- A block that no slot keeps is not changed. -/
theorem Lacks.unchanged (h : K.Lacks a) : K.Unchanged a.ino.toNat a.offset.toNat := by
  intro block h
  obtain ⟨s, x, hs, _, ⟨hino, hoffset⟩, _⟩ := h
  exact h s x hs (Address.eq_of_toNat hino hoffset).symm

/-- Where no block is changed, that of a place is not. -/
theorem Clean.unchanged (h : K.Clean) (i k : Nat) : K.Unchanged i k := by
  intro block h
  obtain ⟨s, x, hs, hdirty, _⟩ := h
  rw [h s x hs] at hdirty
  cases hdirty

/-! ### What every shelf keeps -/

/-- A slot is emptied. -/
theorem Over.remove (h : K.Over p) (s : Fin n) : Over (Function.update K s none) p where
  distinct s₁ s₂ x₁ x₂ h₁ h₂ :=
    h.distinct s₁ s₂ x₁ x₂ (remove_eq_some h₁).2 (remove_eq_some h₂).2
  clean s₁ x₁ h₁ := h.clean s₁ x₁ (remove_eq_some h₁).2

/-- A block is put in its place. -/
theorem Over.set (h : K.Over p) (hplace : K.Place s x.key)
    (hclean : x.dirty = false → p.block? x.key = some x.data) :
    Over (Function.update K s (some x)) p where
  -- Only the slot that is set can clash with another, and it is the place of its address.
  distinct s₁ s₂ x₁ x₂ h₁ h₂ hkey := by
    rcases update_eq_some h₁ with ⟨heq₁, hx₁⟩ | ⟨-, hs₁⟩
    · rcases update_eq_some h₂ with ⟨heq₂, -⟩ | ⟨-, hs₂⟩
      · rw [heq₁, heq₂]
      · cases hx₁
        rw [heq₁, (hplace s₂ x₂ hs₂).mp hkey.symm]
    · rcases update_eq_some h₂ with ⟨heq₂, hx₂⟩ | ⟨-, hs₂⟩
      · cases hx₂
        rw [heq₂, (hplace s₁ x₁ hs₁).mp hkey]
      · exact h.distinct s₁ s₂ x₁ x₂ hs₁ hs₂ hkey
  clean s₁ x₁ h₁ := by
    rcases update_eq_some h₁ with ⟨-, hx₁⟩ | ⟨-, hs₁⟩
    · cases hx₁
      exact hclean
    · exact h.clean s₁ x₁ hs₁

/-- The store below changes, but not under the slots. -/
theorem Over.below (h : K.Over p)
    (hp : ∀ s x, K s = some x → p.block? x.key = some x.data → p'.block? x.key = some x.data) :
    K.Over p' where
  distinct := h.distinct
  clean s x hs hclean := hp s x hs (h.clean s x hs hclean)

/-- A block that no slot keeps is written below. -/
theorem Over.write (h : K.Over p) (ha : K.Lacks a) (block : Block) (hino : a.ino.toNat < p.size) :
    K.Over (p.write a block) :=
  h.below fun s x hs hblock => Plain.at_write_of_some block hino hblock fun hat =>
    ha s x hs (Address.eq_of_toNat hat.1 hat.2)

/-- An inode is resized below, and the shelf gives up what it lost. -/
theorem Over.resize (h : K.Over p) {ino : UInt32} (blocks : UInt32) (hino : ino.toNat < p.size) :
    (K.dropFrom ino blocks).Over (p.resize ino blocks) := by
  -- The shelf is cut first, and then the store below, where no slot is left.
  have hkept : (K.dropFrom ino blocks).Over p :=
    ⟨fun s s' x x' hs hs' =>
      h.distinct s s' x x' (dropFrom_eq_some.mp hs).1 (dropFrom_eq_some.mp hs').1,
      fun s x hs => h.clean s x (dropFrom_eq_some.mp hs).1⟩
  refine hkept.below fun s x hs hblock => Plain.at_resize_of_some blocks hino hblock fun hin => ?_
  exact (dropFrom_eq_some.mp hs).2
    ⟨UInt32.toNat_inj.mp hin.1, UInt32.le_iff_toNat_le.mpr hin.2⟩

/-- A changed block is written below. -/
theorem Over.flush (h : K.Over p) (hs : K s = some x) (hino : x.key.ino.toNat < p.size) :
    Over (Function.update K s (some { x with dirty := false })) (p.write x.key x.data) := by
  have hlacks := (h.place hs).lacks
  -- The slot is emptied, the block is written where no slot keeps it, and put back.
  have hset := ((h.remove s).write hlacks x.data hino).set (s := s) (x := { x with dirty := false })
  rw [Function.update_idem] at hset
  refine hset ?_ fun _ => ?_
  · have hplace := hlacks.place s
    rw [Function.update_idem] at hplace
    exact hplace
  · rw [Plain.block?, Plain.at_write x.data hino, if_pos ⟨rfl, rfl⟩]

/-! ### Moves -/

/-- A changed block is written below and then given up. -/
theorem moves_flush_evict (hs : K s = some x) (hdirty : x.dirty = true)
    (hino : x.key.ino.toNat < p.size) :
    Moves (K, p) (Function.update K s none, p.write x.key x.data) := by
  -- Two moves: once it is written the block is not changed and can be given up.
  refine .tail (.single (.flush hs hdirty hino)) ?_
  have hevict := Move.evict (p := p.write x.key x.data) (x := { x with dirty := false })
    (Function.update_self s (some { x with dirty := false }) K) rfl
  rwa [Function.update_idem] at hevict

/-- A block is taken in where a slot was made ready. -/
theorem move_load {block : Block} (ha : Lacks (Function.update K s none) a)
    (hblock : p.block? a = some block) :
    Move (Function.update K s none, p) (Function.update K s (some ⟨a, block, false⟩), p) := by
  have hload := Move.load (Function.update_self s none K) ha hblock
  rwa [Function.update_idem] at hload

/-- Moves keep what every shelf keeps. -/
theorem Over.moves {q q' : Shelf n × Plain} (h : Over q.1 q.2) (hmoves : Moves q q') :
    Over q'.1 q'.2 := by
  -- By induction on the moves: each of the three keeps both rules.
  induction hmoves with
  | refl => exact h
  | tail _ hmove ih =>
    cases hmove with
    | flush hs _ hino => exact ih.flush hs hino
    | evict => exact ih.remove _
    | @load K p s a block hs ha hblock =>
      refine ih.set ?_ fun _ => hblock
      rw [← Function.update_eq_self s K, hs]
      exact ha.place s

/-- Moves leave changed blocks where they are, or write them below. -/
theorem moves_dirty {q q' : Shelf n × Plain} (hmoves : Moves q q') {s : Fin n} {x : Kept}
    (hs : q'.1 s = some x) (hdirty : x.dirty = true) : q.1 s = some x := by
  induction hmoves with
  | refl => exact hs
  | tail _ hmove ih =>
    refine ih ?_
    -- A move leaves no changed block in the slot that it touches.
    cases hmove <;> obtain ⟨-, hslot⟩ | ⟨-, hs⟩ := update_eq_some hs <;> first
      | exact hs
      | cases hslot <;> cases hdirty

/-- Where no block is changed, none is after moves. -/
theorem Clean.moves {q q' : Shelf n × Plain} (h : q.1.Clean) (hmoves : Moves q q') :
    q'.1.Clean := by
  intro s x hs
  refine Bool.eq_false_iff.mpr fun hdirty => ?_
  have hbefore := h s x (moves_dirty hmoves hs hdirty)
  rw [hdirty] at hbefore
  cases hbefore

/-- A slot without a changed block stays so. -/
theorem moves_unchanged {q q' : Shelf n × Plain} (hmoves : Moves q q') {s : Fin n}
    {c : Kept → Prop} (h : ∀ x, q.1 s = some x → c x → x.dirty = false) :
    ∀ x, q'.1 s = some x → c x → x.dirty = false := by
  intro x hs hx
  refine Bool.eq_false_iff.mpr fun hdirty => ?_
  have hbefore := h x (moves_dirty hmoves hs hdirty) hx
  rw [hdirty] at hbefore
  cases hbefore

/-- Moves keep the number of inodes below. -/
theorem moves_size {q q' : Shelf n × Plain} (hmoves : Moves q q') : q'.2.size = q.2.size := by
  -- Of the three moves only a flush touches the store, and it writes a block.
  induction hmoves with
  | refl => rfl
  | tail _ hmove ih =>
    rw [← ih]
    cases hmove with
    | flush => exact Plain.size_write ..
    | evict => rfl
    | load => rfl

end Shelf

/-! ### The slots of a ring -/

namespace Ring

variable {n : Nat}

/-- What is kept in a slot whose line is known. -/
theorem shelf_eq {r : Ring n} {s : Fin n} {slot : Option Line} (h : Row.at_ r.slots s = slot) :
    r.shelf s = slot.map Line.kept := congrArg _ h

/-- A line that is put in a slot is put on the shelf. -/
theorem shelf_put (r : Ring n) (s : Fin n) (slot : Option Line) :
    (r.put s slot).shelf = Function.update r.shelf s (slot.map Line.kept) := by
  funext s'
  by_cases hs : s' = s
  · subst hs
    rw [Function.update_self, shelf, put, Row.at_put_self]
  · rw [Function.update_of_ne hs, shelf, put, Row.at_put_of_ne _ _ hs]
    rfl

/-- The marks of the hand are not on the shelf. -/
theorem shelf_unmark (r : Ring n) : r.unmark.shelf = r.shelf := by
  rw [unmark, shelf_put, Option.map_map]
  exact Function.update_eq_self r.hand r.shelf

/-- The hand moves nothing on the shelf. -/
theorem shelf_sweep (moves : Nat) (r : Ring n) : (r.sweep moves).shelf = r.shelf := by
  -- By induction on the moves of the hand, each of which takes a mark away.
  induction moves generalizing r with
  | zero => rfl
  | succ moves ih =>
    rw [sweep]
    split
    · exact (ih _).trans (shelf_unmark r)
    · rfl

/-- The search for a victim leaves the shelf as it is. -/
theorem shelf_victim (r : Ring n) : r.victim.shelf = r.shelf := shelf_sweep n r

/-- A ring that drops the lines behind an offset drops what they keep.
-/
theorem shelf_dropFrom (r : Ring n) (ino start : UInt32) :
    (r.dropFrom ino start).shelf = r.shelf.dropFrom ino start := by
  funext s
  have hslot : Row.at_ (r.dropFrom ino start).slots s =
      if isBehind ino start (Row.at_ r.slots s) then none else Row.at_ r.slots s :=
    Vector.getElem_map _ s.isLt
  rw [shelf, hslot, Shelf.dropFrom, shelf]
  cases Row.at_ r.slots s with
  | none => rfl
  | some line =>
    show Option.map Line.kept (if isBehind ino start (some line) then none else some line) =
      if !isBehind ino start (some line) then some line.kept else none
    cases isBehind ino start (some line) <;> rfl

/-- The slots of a new ring keep nothing. -/
theorem shelf_empty (n : Nat) (h : 0 < n) (s : Fin n) : (empty n h).shelf s = none := by
  rw [shelf, empty, Row.at_fill]
  rfl

/-- A new ring has no changed block. -/
theorem clean_empty (n : Nat) (h : 0 < n) : (empty n h).shelf.Clean := by
  intro s x hs
  cases (shelf_empty n h s).symm.trans hs

/-- A block that is not found is in no slot. -/
theorem lacks_of_find? {r : Ring n} {a : Address} (h : r.find? a = none) : r.shelf.Lacks a := by
  intro s x hs hkey
  obtain ⟨line, hline, rfl⟩ := Option.map_eq_some_iff.mp hs
  have hno := List.findSome?_eq_none_iff.mp h s (List.mem_finRange s)
  rw [hline] at hno
  simp [show line.key = a from hkey] at hno

/-- A block that is found is in the slot. -/
theorem at_of_find? {r : Ring n} {a : Address} {s : Fin n} {line : Line}
    (h : r.find? a = some (s, line)) : Row.at_ r.slots s = some line ∧ line.key = a := by
  obtain ⟨s', -, hs'⟩ := List.exists_of_findSome?_eq_some h
  -- The search answers a slot only if it holds a line with this address.
  split at hs'
  · split at hs'
    · cases hs'
      exact ⟨‹_›, ‹_›⟩
    · cases hs'
  · cases hs'

end Ring

end BlockLayers.Cache
