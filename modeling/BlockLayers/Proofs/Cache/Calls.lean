import BlockLayers.Cache
import BlockLayers.Proofs.Below
import BlockLayers.Proofs.Cache.View

/-!
# `BlockLayers.Proofs.Cache.Calls`: the calls to a cache

What each call does to the slots of a cache and to the store below it.
Whatever a call is asked to do, it also makes moves (`Shelf.Move`), and a
call that fails has made nothing but moves.

Main statements: `read_ends`, `write_back_ends`, `write_through_ends`,
`resize_ends`, `sync_ends` and `close_ends`.
-/

set_option autoImplicit false

namespace BlockLayers.Cache

open BlockLayers.Cache.Shelf

variable {σ : Type} {n : Nat} {below : Store σ} {allowed : UInt32 → Prop}
  {lost : Plain → Address → Fault → σ → Prop} {refused : Plain → UInt32 → Fault → σ → Prop}
  {holds : (UInt32 → Prop) → σ → Plain → Prop} {settled : UInt32 → Prop} {p : Plain}
  {c : Cache n} {s : σ}

/-- The changed blocks may be written below. -/
def Shelf.Free (allowed settled : UInt32 → Prop) (K : Shelf n) : Prop :=
  ∀ i x, K i = some x → x.dirty = true → allowed x.key.ino ∧ ¬ settled x.key.ino

/-- A changed block was refused below. -/
def Shelf.Stuck (refused : Plain → UInt32 → Fault → σ → Prop) (K : Shelf n) (p : Plain)
    (fault : Fault) (s : σ) : Prop :=
  ∃ i x, K i = some x ∧ x.dirty = true ∧ refused p x.key.ino fault s

/-- A cache and the store below it have got here by moves alone. -/
def Reached (holds : (UInt32 → Prop) → σ → Plain → Prop) (settled : UInt32 → Prop) (c : Cache n)
    (p : Plain) (after : Cache n × σ) (p' : Plain) : Prop :=
  after.1.policy = c.policy ∧ Moves (c.ring.shelf, p) (after.1.ring.shelf, p') ∧
    holds settled after.2 p'

/-- Moves after moves are moves. -/
theorem Reached.trans {after final : Cache n × σ} {p' p'' : Plain} {settled' : UInt32 → Prop}
    (h : Reached holds settled c p after p') (h' : Reached holds settled' after.1 p' final p'') :
    Reached holds settled' c p final p'' :=
  ⟨h'.1.trans h.1, h.2.1.trans h'.2.1, h'.2.2⟩

/-- Moves change no block, so the changed ones may still be written. -/
theorem Shelf.Free.moves {q q' : Shelf n × Plain} (h : q.1.Free allowed settled)
    (hmoves : Moves q q') : q'.1.Free allowed settled :=
  fun i x hi hdirty => h i x (moves_dirty hmoves hi hdirty) hdirty

/-- A changed block that was written below is kept as one that is not
changed. -/
theorem Reached.cleaned {i : Fin n} {line : Line} (hline : c.ring.shelf i = some line.kept)
    (hdirty : line.dirty = true) (hino : line.key.ino.toNat < p.size)
    (hs : holds settled s (p.write line.key line.data)) :
    Reached holds settled c p (onRing (Ring.put i (some { line with dirty := false })) c, s)
        (p.write line.key line.data) ∧
      ∀ x, (c.ring.put i (some { line with dirty := false })).shelf i = some x →
        x.dirty = false := by
  rw [Ring.shelf_put]
  refine ⟨⟨rfl, ?_, hs⟩, fun x hx => ?_⟩
  · exact Ring.shelf_put c.ring i _ ▸ .single (.flush hline hdirty hino)
  · rw [Function.update_self] at hx
    cases hx
    rfl

section Own

variable {α : Type} {good : α → Cache n × σ → Prop} {bad : Fault → Cache n × σ → Prop}

/-- A look at a slot, and what follows. -/
theorem slotAt_seq {i : Fin n} {f : Option Line → Op (Cache n × σ) α}
    (h : Op.Ends (f (Row.at_ c.ring.slots i)) (c, s) good bad) :
    Op.Ends (slotAt i >>= f) (c, s) good bad := h

/-- A search of the slots, and what follows. -/
theorem lookup_seq {a : Address} {f : Option (Fin n × Line) → Op (Cache n × σ) α}
    (h : Op.Ends (f (c.ring.find? a)) (c, s) good bad) :
    Op.Ends (lookup a >>= f) (c, s) good bad := h

end Own

variable [Journal σ]

/-- A slot is made ready: its block leaves it, by moves. -/
theorem vacate_ends (hB : Backing below allowed lost refused holds)
    (hfree : c.ring.shelf.Free allowed settled) (hs : holds settled s p) (i : Fin n) :
    Op.Ends (vacate below i) (c, s)
      (fun _ after => after.1 = c ∧ ∃ p',
        Moves (c.ring.shelf, p) (Function.update c.ring.shelf i none, p') ∧
        holds settled after.2 p' ∧ ∀ a block, c.ring.shelf.Lacks a → p.block? a = some block →
          p'.block? a = some block)
      (fun fault after => after.1 = c ∧ holds settled after.2 p ∧
        c.ring.shelf.Stuck refused p fault after.2) := by
  refine slotAt_seq ?_
  cases hi : Row.at_ c.ring.slots i with
  | none =>
    have hnone : c.ring.shelf i = none := Ring.shelf_eq hi
    have hsame : Function.update c.ring.shelf i none = c.ring.shelf := by
      rw [← hnone, Function.update_eq_self]
    exact Op.Ends.pure ⟨rfl, p, by rw [hsame], hs, fun _ _ _ h => h⟩
  | some old =>
    have hold : c.ring.shelf i = some old.kept := Ring.shelf_eq hi
    dsimp only [writeVictim]
    -- A changed block goes below first, and any other is given up at once.
    by_cases hdirty : old.dirty = true
    · rw [if_pos hdirty]
      obtain ⟨hallowed, hnot⟩ := hfree i _ hold hdirty
      have hs' := hB.note (.victimFlushed old.key) hs
      simp only [bind_assoc]
      refine Op.Ends.note_seq
        (Op.Ends.lower_seq (hB.write old.key old.data hs' hallowed hnot) ?_ ?_)
      · intro fault after hafter
        exact ⟨rfl, hafter.1, i, _, hold, hdirty, hafter.2⟩
      · -- The write below leaves every block alone that no slot keeps.
        intro _ after hafter
        obtain ⟨hafter, hino⟩ := hafter
        refine Op.Ends.note ⟨rfl, _, moves_flush_evict hold hdirty hino, hB.note _ hafter,
          fun a block ha hblock => Plain.at_write_of_some old.data hino hblock fun hat => ?_⟩
        exact ha i _ hold (Address.eq_of_toNat hat.1 hat.2).symm
    · rw [if_neg hdirty, pure_bind]
      exact Op.Ends.note ⟨rfl, p, .single (.evict hold (Bool.eq_false_iff.mpr hdirty)),
        hB.note _ hs, fun _ _ _ h => h⟩

/-- A line that no slot holds is taken in, in a slot that was made
ready. -/
theorem takeIn_ends (hB : Backing below allowed lost refused holds)
    (hfree : c.ring.shelf.Free allowed settled) (hs : holds settled s p) (line : Line) :
    Op.Ends (takeIn below line) (c, s)
      (fun _ after => after.1.policy = c.policy ∧ ∃ i p',
        after.1.ring.shelf = Function.update c.ring.shelf i (some line.kept) ∧
        Moves (c.ring.shelf, p) (Function.update c.ring.shelf i none, p') ∧
        holds settled after.2 p' ∧ ∀ a block, c.ring.shelf.Lacks a → p.block? a = some block →
          p'.block? a = some block)
      (fun fault after => after.1.policy = c.policy ∧ after.1.ring.shelf = c.ring.shelf ∧
        holds settled after.2 p ∧ c.ring.shelf.Stuck refused p fault after.2) := by
  -- The hand has moved to the victim, and the shelf is what it was.
  have hshelf : (onRing Ring.victim c).ring.shelf = c.ring.shelf := c.ring.shelf_victim
  have hvacate := vacate_ends hB (hshelf ▸ hfree) hs (onRing Ring.victim c).ring.hand
  rw [hshelf] at hvacate
  refine Op.Ends.modifyOwn_seq (Op.Ends.own_seq (hvacate.bind ?_ ?_))
  · intro fault after hafter
    obtain ⟨hc, hafter⟩ := hafter
    rw [hc]
    exact ⟨rfl, hshelf, hafter⟩
  · intro _ after hafter
    obtain ⟨c', s'⟩ := after
    obtain ⟨hc, p', hmoves, hafter⟩ := hafter
    dsimp only at hc
    subst hc
    refine Op.Ends.modifyOwn ⟨rfl, _, p', ?_, hmoves, hafter⟩
    exact (Ring.shelf_put _ _ _).trans (by rw [hshelf]; rfl)

/-- A read answers the block of its slot, or the one below. -/
theorem read_ends (hB : Backing below allowed lost refused holds)
    (hfree : c.ring.shelf.Free allowed settled) (hs : holds settled s p) (a : Address) :
    Op.Ends (read below a) (c, s)
      (fun block after => (∃ p', Reached holds settled c p after p') ∧
        ((∃ i x, c.ring.shelf i = some x ∧ x.key = a ∧ x.data = block) ∨
          c.ring.shelf.Lacks a ∧ p.block? a = some block))
      (fun fault after => (∃ p', Reached holds settled c p after p') ∧ c.ring.shelf.Lacks a ∧
        (lost p a fault after.2 ∨ c.ring.shelf.Stuck refused p fault after.2)) := by
  refine lookup_seq ?_
  cases hfind : c.ring.find? a with
  | some found =>
    obtain ⟨i, line⟩ := found
    obtain ⟨hline, hkey⟩ := Ring.at_of_find? hfind
    have hi : c.ring.shelf i = some line.kept := Ring.shelf_eq hline
    refine Op.Ends.modifyOwn_seq (Op.Ends.modifyOwn_seq (Op.Ends.note_seq (Op.Ends.pure ?_)))
    refine ⟨⟨p, rfl, ?_, hB.note _ hs⟩, .inl ⟨i, _, hi, hkey, rfl⟩⟩
    -- The mark of the line is all that changes.
    have hsame : (c.ring.put i (some { line with referenced := true })).shelf = c.ring.shelf := by
      rw [Ring.shelf_put]
      exact (congrArg _ hi.symm).trans (Function.update_eq_self i _)
    exact hsame ▸ .refl
  | none =>
    have hlacks := Ring.lacks_of_find? hfind
    refine Op.Ends.modifyOwn_seq (Op.Ends.note_seq
      (Op.Ends.lower_seq (hB.read a (hB.note _ hs)) ?_ ?_))
    · intro fault after hafter
      exact ⟨⟨p, rfl, .refl, hafter.1⟩, hlacks, .inl hafter.2⟩
    · intro block after hafter
      obtain ⟨hafter, hblock⟩ := hafter
      -- The block that was read comes in unchanged, so that taking it in is a move.
      refine (takeIn_ends (c := onTally (Tally.countRead false) c) hB hfree hafter
        ⟨a, block, true, false⟩).bind ?_ ?_
      · intro fault after hafter
        obtain ⟨hpolicy, hshelf, hafter, hstuck⟩ := hafter
        exact ⟨⟨p, hpolicy, hshelf ▸ .refl, hafter⟩, hlacks, .inr hstuck⟩
      · intro _ after hafter
        obtain ⟨hpolicy, i, p', hshelf, hmoves, hafter, hkept⟩ := hafter
        refine Op.Ends.pure ⟨⟨p', hpolicy, ?_, hafter⟩, .inr ⟨hlacks, hblock⟩⟩
        exact hshelf ▸ hmoves.tail (move_load (hlacks.remove i) (hkept a block hlacks hblock))

/-- A write that stays in the cache: the block is put in its place. -/
theorem write_back_ends (hB : Backing below allowed lost refused holds)
    (hpolicy : c.policy = .writeBack) (hover : c.ring.shelf.Over p)
    (hfree : c.ring.shelf.Free allowed settled) (hs : holds settled s p) (a : Address)
    (data : Block) :
    Op.Ends (write below a data) (c, s)
      (fun _ after => after.1.policy = c.policy ∧ ∃ K p' i, Moves (c.ring.shelf, p) (K, p') ∧
        K.Place i a ∧ after.1.ring.shelf = Function.update K i (some ⟨a, data, true⟩) ∧
        holds settled after.2 p')
      (fun fault after => after.1.policy = c.policy ∧ after.1.ring.shelf = c.ring.shelf ∧
        holds settled after.2 p ∧ c.ring.shelf.Stuck refused p fault after.2) := by
  refine lookup_seq (Op.Ends.modifyOwn_seq (Op.Ends.own_seq ?_))
  rw [show (onTally _ c).policy = .writeBack from hpolicy]
  dsimp only [writeBelow]
  rw [pure_bind]
  cases hfind : c.ring.find? a with
  | some found =>
    obtain ⟨i, line⟩ := found
    obtain ⟨hline, hkey⟩ := Ring.at_of_find? hfind
    have hi : c.ring.shelf i = some line.kept := Ring.shelf_eq hline
    have hplace : c.ring.shelf.Place i line.key := hover.place hi
    exact Op.Ends.modifyOwn ⟨rfl, _, p, i, .refl, hkey ▸ hplace, Ring.shelf_put _ _ _, hs⟩
  | none =>
    have hlacks := Ring.lacks_of_find? hfind
    refine (takeIn_ends (c := onTally _ c) hB hfree hs _).mono ?_ fun _ _ hbad => hbad
    intro _ after hafter
    obtain ⟨hpolicy', i, p', hshelf, hmoves, hafter, -⟩ := hafter
    -- The slot that was made ready is the place of the block.
    refine ⟨hpolicy', _, p', i, hmoves, hlacks.place i, ?_, hafter⟩
    rw [hshelf, Function.update_idem]
    rfl

/-- A write that goes below at once. The line of the block is given up
before, and comes in again from below. -/
theorem write_through_ends (hB : Backing below allowed lost refused holds)
    (hpolicy : c.policy = .writeThrough) (hover : c.ring.shelf.Over p)
    (hclean : c.ring.shelf.Clean) (hs : holds settled s p) (a : Address) (data : Block)
    (hallowed : allowed a.ino) (hnot : ¬ settled a.ino) :
    Op.Ends (write below a data) (c, s)
      (fun _ after => after.1.policy = c.policy ∧ a.ino.toNat < p.size ∧ ∃ K p',
        Moves (c.ring.shelf, p) (K, p) ∧ K.Lacks a ∧
        Moves (K, p.write a data) (after.1.ring.shelf, p') ∧ holds settled after.2 p')
      (fun fault after => after.1.policy = c.policy ∧ after.1.ring.shelf = c.ring.shelf ∧
        holds settled after.2 p ∧ refused p a.ino fault after.2) := by
  refine lookup_seq (Op.Ends.modifyOwn_seq (Op.Ends.own_seq ?_))
  rw [show (onTally _ c).policy = .writeThrough from hpolicy]
  refine Op.Ends.lower_seq (hB.write a data hs hallowed hnot) ?_ ?_
  · intro fault after hafter
    exact ⟨rfl, rfl, hafter⟩
  · intro _ after hafter
    obtain ⟨hafter, hino⟩ := hafter
    have hblock : (p.write a data).block? a = some data := by
      rw [Plain.block?, Plain.at_write data hino, if_pos ⟨rfl, rfl⟩]
    cases hfind : c.ring.find? a with
    | some found =>
      obtain ⟨i, line⟩ := found
      obtain ⟨hline, hkey⟩ := Ring.at_of_find? hfind
      have hi : c.ring.shelf i = some line.kept := Ring.shelf_eq hline
      have hplace : c.ring.shelf.Place i line.key := hover.place hi
      have hlacks := (hkey ▸ hplace).lacks
      -- The old line is given up before the write and the new one comes in after it.
      refine Op.Ends.modifyOwn ⟨rfl, hino, _, _, .single (.evict hi (hclean i _ hi)), hlacks, ?_,
        hafter⟩
      exact Ring.shelf_put c.ring i _ ▸ .single (move_load hlacks hblock)
    | none =>
      have hlacks := Ring.lacks_of_find? hfind
      have hfree : c.ring.shelf.Free allowed settled := fun i x hi hdirty => by
        rw [hclean i x hi] at hdirty
        cases hdirty
      refine (takeIn_ends (c := onTally _ c) hB hfree hafter _).mono ?_ ?_
      · intro _ after hafter
        obtain ⟨hpolicy', i, p', hshelf, hmoves, hafter, hkept⟩ := hafter
        refine ⟨hpolicy', hino, _, p', .refl, hlacks, ?_, hafter⟩
        exact hshelf ▸ hmoves.tail (move_load (hlacks.remove i) (hkept a data hlacks hblock))
      · -- The victim is not changed, so no block of the cache can be refused.
        intro fault after hafter
        obtain ⟨-, -, -, i, x, hi, hdirty, -⟩ := hafter
        rw [hclean i x hi] at hdirty
        cases hdirty

/-- An inode is resized below, and loses its slots behind the end. -/
theorem resize_ends (hB : Backing below allowed lost refused holds) (hs : holds settled s p)
    (ino blocks : UInt32) (hallowed : allowed ino) (hnot : ¬ settled ino) :
    Op.Ends (resize below ino blocks) (c, s)
      (fun _ after => after.1.policy = c.policy ∧ ino.toNat < p.size ∧
        after.1.ring.shelf = c.ring.shelf.dropFrom ino blocks ∧
        holds settled after.2 (p.resize ino blocks))
      (fun fault after => after.1 = c ∧ holds settled after.2 p ∧
        refused p ino fault after.2) := by
  refine Op.Ends.lower_seq (hB.resize ino blocks hs hallowed hnot) ?_ ?_
  · intro fault after hafter
    exact ⟨rfl, hafter⟩
  · intro before after hafter
    obtain ⟨hafter, hino⟩ := hafter
    refine Op.Ends.own_seq (Op.Ends.modifyOwn_seq (Op.Ends.note_seq (Op.Ends.pure ?_)))
    exact ⟨rfl, hino, Ring.shelf_dropFrom _ _ _, hB.note _ hafter⟩

/-- The block of a slot is written below, if it was changed and belongs
to the inode. -/
theorem flushSlot_ends (hB : Backing below allowed lost refused holds)
    (hfree : c.ring.shelf.Free allowed settled) (hs : holds settled s p) (ino : UInt32)
    (i : Fin n) :
    Op.Ends (flushSlot below ino i) (c, s)
      (fun _ after => (∃ p', Reached holds settled c p after p') ∧
        ∀ x, after.1.ring.shelf i = some x → x.key.ino = ino → x.dirty = false)
      (fun fault after => (∃ p', Reached holds settled c p after p') ∧
        ∃ p' ino', refused p' ino' fault after.2) := by
  refine slotAt_seq ?_
  cases hi : Row.at_ c.ring.slots i with
  | none =>
    refine Op.Ends.pure ⟨⟨p, rfl, .refl, hs⟩, fun x hx => ?_⟩
    cases (Ring.shelf_eq hi).symm.trans hx
  | some line =>
    have hline : c.ring.shelf i = some line.kept := Ring.shelf_eq hi
    dsimp only
    split
    · rename_i hflush
      obtain ⟨hallowed, hnot⟩ := hfree i _ hline hflush.1
      refine Op.Ends.lower_seq (hB.write line.key line.data hs hallowed hnot) ?_ ?_
      · intro fault after hafter
        exact ⟨⟨p, rfl, .refl, hafter.1⟩, p, _, hafter.2⟩
      · intro _ after hafter
        obtain ⟨hreached, hcleaned⟩ := Reached.cleaned hline hflush.1 hafter.2 hafter.1
        exact Op.Ends.modifyOwn ⟨⟨_, hreached⟩, fun x hx _ => hcleaned x hx⟩
    · rename_i hflush
      -- The slot is skipped: it is not changed, or is of another inode.
      refine Op.Ends.pure ⟨⟨p, rfl, .refl, hs⟩, fun x hx hino => ?_⟩
      rw [hline] at hx
      cases hx
      exact Bool.eq_false_iff.mpr fun hdirty => hflush ⟨hdirty, hino⟩

/-- The changed blocks of an inode are written below, up to the first
that is refused. -/
theorem flush_ends (hB : Backing below allowed lost refused holds) (ino : UInt32)
    (slots : List (Fin n)) {c : Cache n} {s : σ} {p : Plain}
    (hfree : c.ring.shelf.Free allowed settled) (hs : holds settled s p) :
    Op.Ends (flush below ino slots) (c, s)
      (fun _ after => (∃ p', Reached holds settled c p after p') ∧
        ∀ i ∈ slots, ∀ x, after.1.ring.shelf i = some x → x.key.ino = ino → x.dirty = false)
      (fun fault after => (∃ p', Reached holds settled c p after p') ∧
        ∃ p' ino', refused p' ino' fault after.2) := by
  -- A slot that was flushed gets no changed block from the moves of the others.
  induction slots generalizing c s p with
  | nil => exact Op.Ends.pure ⟨⟨p, rfl, .refl, hs⟩, fun i hi => by cases hi⟩
  | cons i rest ih =>
    refine (flushSlot_ends hB hfree hs ino i).seq ?_
    intro _ after hafter
    obtain ⟨⟨p', hreached⟩, hi⟩ := hafter
    refine (ih (hfree.moves hreached.2.1) hreached.2.2).mono ?_ ?_
    · intro _ final hfinal
      obtain ⟨⟨p'', hreached'⟩, hrest⟩ := hfinal
      refine ⟨⟨p'', hreached.trans hreached'⟩, fun j hj x hx hino => ?_⟩
      rcases List.mem_cons.mp hj with rfl | hj
      · exact moves_unchanged hreached'.2.1 hi x hx hino
      · exact hrest j hj x hx hino
    · intro fault final hfinal
      obtain ⟨⟨p'', hreached'⟩, hrefused⟩ := hfinal
      exact ⟨⟨p'', hreached.trans hreached'⟩, hrefused⟩

/-- A sync leaves no changed block of its inode, and settles the inode
below. -/
theorem sync_ends (hB : Backing below allowed lost refused holds)
    (hclean : c.policy = .writeThrough → c.ring.shelf.Clean)
    (hfree : c.ring.shelf.Free allowed settled) (hs : holds settled s p) (ino : UInt32)
    (hallowed : allowed ino) :
    Op.Ends (sync below ino) (c, s)
      (fun _ after =>
        (∃ p', Reached holds (fun other => other = ino ∨ settled other) c p after p') ∧
        ∀ i x, after.1.ring.shelf i = some x → x.key.ino = ino → x.dirty = false)
      (fun fault after => (∃ p', Reached holds settled c p after p') ∧
        ∃ p' ino', refused p' ino' fault after.2) := by
  refine Op.Ends.own_seq ?_
  cases hpolicy : c.policy with
  | writeBack =>
    refine (flush_ends hB ino _ hfree hs).seq ?_
    intro _ after hafter
    obtain ⟨⟨p', hreached⟩, hflushed⟩ := hafter
    -- Every slot was flushed, so the sync of the inode finds no changed block of it.
    refine Op.Ends.lower ((hB.sync ino hreached.2.2 hallowed).mono ?_ ?_)
    · intro _ final hfinal
      exact ⟨⟨p', hreached.1, hreached.2.1, hfinal⟩,
        fun i x hx => hflushed i (List.mem_finRange i) x hx⟩
    · intro fault final hfinal
      exact ⟨⟨p', hreached.1, hreached.2.1, hfinal.1⟩, p', ino, hfinal.2⟩
  | writeThrough =>
    refine Op.Ends.lower ((hB.sync ino hs hallowed).mono ?_ ?_)
    · intro _ final hfinal
      exact ⟨⟨p, rfl, .refl, hfinal⟩, fun i x hx _ => hclean hpolicy i x hx⟩
    · intro fault final hfinal
      exact ⟨⟨p, rfl, .refl, hfinal.1⟩, p, ino, hfinal.2⟩

section Closing

variable (hnever : ∀ p ino fault s, ¬ refused p ino fault s)
include hnever

/-- The block of a slot is written below, if it was changed. -/
theorem rescueSlot_ends (hB : Backing below allowed lost refused holds)
    (hfree : c.ring.shelf.Free allowed settled) (hs : holds settled s p) (i : Fin n) :
    Op.Ends (rescueSlot below i) (c, s)
      (fun _ after => (∃ p', Reached holds settled c p after p') ∧
        ∀ x, after.1.ring.shelf i = some x → x.dirty = false)
      (fun _ _ => False) := by
  refine slotAt_seq ?_
  cases hi : Row.at_ c.ring.slots i with
  | none =>
    refine Op.Ends.pure ⟨⟨p, rfl, .refl, hs⟩, fun x hx => ?_⟩
    cases (Ring.shelf_eq hi).symm.trans hx
  | some line =>
    have hline : c.ring.shelf i = some line.kept := Ring.shelf_eq hi
    dsimp only
    split
    · rename_i hdirty
      obtain ⟨hallowed, hnot⟩ := hfree i _ hline hdirty
      have hwrite := hB.write line.key line.data hs hallowed hnot
      -- A failure would be dealt with here, but the store below refuses nothing.
      have htry : Op.Ends (Op.attempt (below (.write line.key line.data))) s
          (fun result after => result = .ok () ∧ holds settled after (p.write line.key line.data) ∧
            line.key.ino.toNat < p.size) (fun _ _ => False) :=
        Op.Ends.attempt (hwrite.mono (fun _ _ hafter => ⟨rfl, hafter⟩)
          fun fault after hafter => (hnever _ _ _ _ hafter.2).elim)
      refine Op.Ends.lower_seq htry (fun _ _ hno => hno) ?_
      intro result after hafter
      obtain ⟨rfl, hafter, hino⟩ := hafter
      obtain ⟨hreached, hcleaned⟩ := Reached.cleaned hline hdirty hino hafter
      exact Op.Ends.modifyOwn ⟨⟨_, hreached⟩, hcleaned⟩
    · rename_i hdirty
      refine Op.Ends.pure ⟨⟨p, rfl, .refl, hs⟩, fun x hx => ?_⟩
      rw [hline] at hx
      cases hx
      exact Bool.eq_false_iff.mpr hdirty

/-- Every changed block in the given slots is written below. -/
theorem rescue_ends (hB : Backing below allowed lost refused holds) (slots : List (Fin n))
    {c : Cache n} {s : σ} {p : Plain} (hfree : c.ring.shelf.Free allowed settled)
    (hs : holds settled s p) :
    Op.Ends (rescue below slots) (c, s)
      (fun _ after => (∃ p', Reached holds settled c p after p') ∧
        ∀ i ∈ slots, ∀ x, after.1.ring.shelf i = some x → x.dirty = false)
      (fun _ _ => False) := by
  -- As in `flush_ends`, moves of the other slots leave a written one unchanged.
  induction slots generalizing c s p with
  | nil => exact Op.Ends.pure ⟨⟨p, rfl, .refl, hs⟩, fun i hi => by cases hi⟩
  | cons i rest ih =>
    refine (rescueSlot_ends hnever hB hfree hs i).seq ?_
    intro _ after hafter
    obtain ⟨⟨p', hreached⟩, hi⟩ := hafter
    refine (ih (hfree.moves hreached.2.1) hreached.2.2).mono ?_ fun _ _ hno => hno
    intro _ final hfinal
    obtain ⟨⟨p'', hreached'⟩, hrest⟩ := hfinal
    refine ⟨⟨p'', hreached.trans hreached'⟩, fun j hj x hx => ?_⟩
    rcases List.mem_cons.mp hj with rfl | hj
    · exact moves_unchanged (c := fun _ => True) hreached'.2.1 (fun x hx _ => hi x hx) x hx trivial
    · exact hrest j hj x hx

/-- A cache that is closed over a store that refuses nothing leaves no
changed block behind. -/
theorem close_ends (hB : Backing below allowed lost refused holds)
    (hclean : c.policy = .writeThrough → c.ring.shelf.Clean)
    (hfree : c.ring.shelf.Free allowed settled) (hs : holds settled s p) :
    Op.Ends (close below) (c, s)
      (fun _ after => (∃ p', Reached holds settled c p after p') ∧ after.1.ring.shelf.Clean)
      (fun _ _ => False) := by
  refine Op.Ends.own_seq ?_
  cases hpolicy : c.policy with
  | writeBack =>
    refine (rescue_ends hnever hB _ hfree hs).mono ?_ fun _ _ hno => hno
    intro _ after hafter
    exact ⟨hafter.1, fun i x hx => hafter.2 i (List.mem_finRange i) x hx⟩
  | writeThrough => exact Op.Ends.pure ⟨⟨p, rfl, .refl, hs⟩, hclean hpolicy⟩

end Closing

end BlockLayers.Cache
