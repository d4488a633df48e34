import BlockLayers.Cache
import BlockLayers.Proofs.Lands

/-!
# `BlockLayers.Proofs.Cache.Ways`: the ways through a call

A call to a cache takes one of a few ways, and which one it takes depends
on the slots and on the answers of the store below. Nothing is asked of
that store here: it may fail any call, for any reason, and abort it.

There is one relation for each operation (`Vacates`, `TakesIn`, `Reads`,
`Writes`, `Resizes`, `Flushes`, `Syncs`, `Rescues`), with one constructor
for each way. It relates the state before the call to what the call ends
with and the state that it leaves. What a cache keeps is proved by cases
on these relations.

Main statements: `read_lands`, `write_lands`, `resize_lands`, `sync_lands`
and `rescue_lands`, by which every run takes one of the ways.
-/

set_option autoImplicit false

namespace BlockLayers.Cache

variable {σ : Type} {n : Nat} {below : Store σ} {c : Cache n} {s : σ}

section Own

variable {α : Type} {post : Except Stop α → Cache n × σ → Prop}

/-- A look at a slot, and what follows. -/
theorem slotAt_lands {i : Fin n} {f : Option Line → Op (Cache n × σ) α}
    (h : Op.Lands (f (Row.at_ c.ring.slots i)) (c, s) post) :
    Op.Lands (slotAt i >>= f) (c, s) post := h

/-- A search of the slots, and what follows. -/
theorem lookup_lands {a : Address} {f : Option (Fin n × Line) → Op (Cache n × σ) α}
    (h : Op.Lands (f (c.ring.find? a)) (c, s) post) :
    Op.Lands (lookup a >>= f) (c, s) post := h

end Own

/-! ### Flushes -/

/-- The line of a slot that a flush of an inode writes below. -/
def Ring.changedAt (ino : UInt32) (r : Ring n) (i : Fin n) (line : Line) : Prop :=
  Row.at_ r.slots i = some line ∧ line.dirty = true ∧ line.key.ino = ino

/-- The cache after the block of a slot was written below. -/
abbrev cleaned (i : Fin n) (line : Line) (c : Cache n) : Cache n :=
  onRing (Ring.put i (some { line with dirty := false })) c

/-- How the changed blocks of an inode that are in some slots are written
below. -/
inductive Flushes (below : Store σ) (ino : UInt32) :
    List (Fin n) → Cache n × σ → Except Stop Unit → Cache n × σ → Prop where
  /-- No slot is left. -/
  | done {t : Cache n × σ} : Flushes below ino [] t (.ok ()) t
  /-- The slot has none. -/
  | skipped {i : Fin n} {rest : List (Fin n)} {c : Cache n} {s : σ} {result : Except Stop Unit}
      {t : Cache n × σ} (hskip : ∀ line, ¬ c.ring.changedAt ino i line)
      (hrest : Flushes below ino rest (c, s) result t) : Flushes below ino (i :: rest) (c, s) result t
  /-- Its block is written. -/
  | written {i : Fin n} {rest : List (Fin n)} {c : Cache n} {s s' : σ} {line : Line}
      {result : Except Stop Unit} {t : Cache n × σ} (hline : c.ring.changedAt ino i line)
      (hrun : below (.write line.key line.data) s = .ok () s')
      (hrest : Flushes below ino rest (cleaned i line c, s') result t) :
      Flushes below ino (i :: rest) (c, s) result t
  /-- Its block is not written, and the slots behind it are left. -/
  | stuck {i : Fin n} {rest : List (Fin n)} {c : Cache n} {s s' : σ} {line : Line} {stop : Stop}
      (hline : c.ring.changedAt ino i line)
      (hrun : below (.write line.key line.data) s = .error stop s') :
      Flushes below ino (i :: rest) (c, s) (.error stop) (c, s')

/-- A flush goes one of the ways. -/
theorem flush_lands (ino : UInt32) (slots : List (Fin n)) (t : Cache n × σ) :
    Op.Lands (flush below ino slots) t (Flushes below ino slots t) := by
  -- Each slot hands its own state on, so the slots behind are taken from any state.
  induction slots generalizing t with
  | nil => exact .pure .done
  | cons i rest ih =>
    obtain ⟨c, s⟩ := t
    simp only [flush, flushSlot, bind_assoc]
    apply slotAt_lands
    -- The slot is flushed if it has a changed block of the inode; otherwise nothing is done to it.
    cases hslot : Row.at_ c.ring.slots i with
    | none =>
      refine (ih (c, s)).mono ?_
      intro result t hrest
      exact .skipped (fun line hline => by cases hslot.symm.trans hline.1) hrest
    | some line =>
      dsimp only
      split
      · rename_i hflush
        have hline : c.ring.changedAt ino i line := ⟨hslot, hflush.1, hflush.2⟩
        simp only [bind_assoc]
        apply Op.Lands.lower_seq
        · intro _ s' hrun
          apply Op.Lands.modifyOwn_seq
          refine (ih _).mono ?_
          intro result t hrest
          exact .written hline hrun hrest
        · intro stop s' hrun
          exact .stuck hline hrun
      · rename_i hflush
        refine (ih (c, s)).mono ?_
        intro result t hrest
        refine .skipped (fun other hother => hflush ?_) hrest
        cases hslot.symm.trans hother.1
        exact hother.2

/-- How an inode is synced. -/
inductive Syncs (below : Store σ) (ino : UInt32) (c : Cache n) (s : σ) :
    Except Stop Unit → Cache n × σ → Prop where
  /-- A changed block cannot be written below. -/
  | stuck {stop : Stop} {t : Cache n × σ} (hback : c.policy = .writeBack)
      (hflush : Flushes below ino (List.finRange n) (c, s) (.error stop) t) :
      Syncs below ino c s (.error stop) t
  /-- The sync is passed on after the flush. -/
  | flushed {c' : Cache n} {s' : σ} (hback : c.policy = .writeBack)
      (hflush : Flushes below ino (List.finRange n) (c, s) (.ok ()) (c', s')) :
      Syncs below ino c s (Op.outcome (below (.sync ino)) s') (c', Op.next (below (.sync ino)) s')
  /-- The sync is passed on. -/
  | passed (hthrough : c.policy = .writeThrough) :
      Syncs below ino c s (Op.outcome (below (.sync ino)) s) (c, Op.next (below (.sync ino)) s)

/-- A sync goes one of the ways. -/
theorem sync_lands (ino : UInt32) : Op.Lands (sync below ino) (c, s) (Syncs below ino c s) := by
  apply Op.Lands.own_seq
  cases hpolicy : c.policy with
  | writeBack =>
    apply (flush_lands ino _ _).bind
    · intro _ after hflush
      exact .passed (.flushed hpolicy hflush)
    · intro stop t hflush
      exact .stuck hpolicy hflush
  | writeThrough =>
    exact .passed (.passed hpolicy)

/-! ### Writes below -/

/-- What becomes of a block that is written before it gets a slot. -/
inductive WritesBelow (below : Store σ) (a : Address) (data : Block) (s : σ) :
    Policy → Except Stop Unit → σ → Prop where
  /-- It stays in the cache. -/
  | kept : WritesBelow below a data s .writeBack (.ok ()) s
  /-- It is written below. -/
  | passed {s' : σ} (hrun : below (.write a data) s = .ok () s') :
      WritesBelow below a data s .writeThrough (.ok ()) s'
  /-- It is not written below. -/
  | refused {stop : Stop} {s' : σ} (hrun : below (.write a data) s = .error stop s') :
      WritesBelow below a data s .writeThrough (.error stop) s'

/-- What is done below with a block that is written leaves the cache
alone. -/
theorem writeBelow_lands (policy : Policy) (a : Address) (data : Block) :
    Op.Lands (writeBelow below policy a data) (c, s)
      (fun result t => t.1 = c ∧ WritesBelow below a data s policy result t.2) := by
  cases policy with
  | writeBack => exact .pure ⟨rfl, .kept⟩
  | writeThrough =>
    exact .lower (fun _ _ hrun => ⟨rfl, .passed hrun⟩) fun _ _ hrun => ⟨rfl, .refused hrun⟩

variable [Journal σ]

/-! ### Taking a block in -/

/-- How a slot is made ready for another block. -/
inductive Vacates (below : Store σ) (c : Cache n) (i : Fin n) (s : σ) :
    Except Stop Unit → Cache n × σ → Prop where
  /-- It is empty. -/
  | free (hslot : Row.at_ c.ring.slots i = none) : Vacates below c i s (.ok ()) (c, s)
  /-- Its block is not changed. -/
  | clean {old : Line} (hslot : Row.at_ c.ring.slots i = some old) (hclean : old.dirty = false) :
      Vacates below c i s (.ok ()) (c, Journal.enter (.evicted old.key i) s)
  /-- Its block is changed, and is written below. -/
  | flushed {old : Line} {s' : σ} (hslot : Row.at_ c.ring.slots i = some old)
      (hdirty : old.dirty = true) (hrun : below (.write old.key old.data)
        (Journal.enter (.victimFlushed old.key) s) = .ok () s') :
      Vacates below c i s (.ok ()) (c, Journal.enter (.evicted old.key i) s')
  /-- Its block is changed, and is not written below. -/
  | stuck {old : Line} {stop : Stop} {s' : σ} (hslot : Row.at_ c.ring.slots i = some old)
      (hdirty : old.dirty = true) (hrun : below (.write old.key old.data)
        (Journal.enter (.victimFlushed old.key) s) = .error stop s') :
      Vacates below c i s (.error stop) (c, s')

/-- How a line is taken in. The hand moves before the slot is made ready,
and has moved also when that fails. -/
inductive TakesIn (below : Store σ) (line : Line) (c : Cache n) (s : σ) :
    Except Stop Unit → Cache n × σ → Prop where
  | placed {s' : σ} (h : Vacates below (onRing Ring.victim c) c.ring.victim.hand s (.ok ())
      (onRing Ring.victim c, s')) :
      TakesIn below line c s (.ok ())
        (onRing (Ring.put c.ring.victim.hand (some line)) (onRing Ring.victim c), s')
  | stuck {stop : Stop} {s' : σ} (h : Vacates below (onRing Ring.victim c) c.ring.victim.hand s
      (.error stop) (onRing Ring.victim c, s')) :
      TakesIn below line c s (.error stop) (onRing Ring.victim c, s')

/-- Making a slot ready leaves the cache as it is. -/
theorem Vacates.fst_eq {i : Fin n} {result : Except Stop Unit} {t : Cache n × σ}
    (h : Vacates below c i s result t) : t.1 = c := by cases h <;> rfl

/-- A slot is made ready in one of the ways. -/
theorem vacate_lands (i : Fin n) : Op.Lands (vacate below i) (c, s) (Vacates below c i s) := by
  apply slotAt_lands
  cases hslot : Row.at_ c.ring.slots i with
  | none => exact .pure (.free hslot)
  | some old =>
    dsimp only [writeVictim]
    -- Whether the old block is written below is up to its mark; its eviction is reported either
    -- way.
    by_cases hdirty : old.dirty = true
    · rw [if_pos hdirty]
      simp only [bind_assoc]
      apply Op.Lands.note_seq
      apply Op.Lands.lower_seq
      · intro _ s' hrun
        exact .note (.flushed hslot hdirty hrun)
      · intro stop s' hrun
        exact .stuck hslot hdirty hrun
    · rw [if_neg hdirty, pure_bind]
      exact .note (.clean hslot (Bool.eq_false_iff.mpr hdirty))

/-- A line is taken in in one of the ways. -/
theorem takeIn_lands (line : Line) :
    Op.Lands (takeIn below line) (c, s) (TakesIn below line c s) := by
  apply Op.Lands.modifyOwn_seq
  apply Op.Lands.own_seq
  -- The hand has moved by now, and the slot that it found is filled only if it could be made
  -- ready.
  apply (vacate_lands _).bind
  · intro _ after hafter
    obtain ⟨c', s'⟩ := after
    cases hafter.fst_eq
    exact .modifyOwn (.placed hafter)
  · intro stop after hafter
    obtain ⟨c', s'⟩ := after
    cases hafter.fst_eq
    exact .stuck hafter

/-! ### Reads and writes -/

/-- How a block is read. -/
inductive Reads (below : Store σ) (a : Address) (c : Cache n) (s : σ) :
    Except Stop Block → Cache n × σ → Prop where
  /-- A slot has it. -/
  | hit {i : Fin n} {line : Line} (hfind : c.ring.find? a = some (i, line)) :
      Reads below a c s (.ok line.data)
        (onRing (Ring.put i (some { line with referenced := true }))
          (onTally (Tally.countRead true) c), Journal.enter (.readHit a) s)
  /-- It cannot be read below. -/
  | unread {stop : Stop} {s' : σ} (hfind : c.ring.find? a = none)
      (hrun : below (.read a) (Journal.enter (.readMiss a) s) = .error stop s') :
      Reads below a c s (.error stop) (onTally (Tally.countRead false) c, s')
  /-- It is read below and taken in. -/
  | taken {block : Block} {s' : σ} {t : Cache n × σ} (hfind : c.ring.find? a = none)
      (hrun : below (.read a) (Journal.enter (.readMiss a) s) = .ok block s')
      (htake : TakesIn below ⟨a, block, true, false⟩ (onTally (Tally.countRead false) c) s'
        (.ok ()) t) : Reads below a c s (.ok block) t
  /-- It is read below and cannot be taken in. -/
  | stuck {block : Block} {stop : Stop} {s' : σ} {t : Cache n × σ} (hfind : c.ring.find? a = none)
      (hrun : below (.read a) (Journal.enter (.readMiss a) s) = .ok block s')
      (htake : TakesIn below ⟨a, block, true, false⟩ (onTally (Tally.countRead false) c) s'
        (.error stop) t) : Reads below a c s (.error stop) t

/-- How a block is written. -/
inductive Writes (below : Store σ) (a : Address) (data : Block) (c : Cache n) (s : σ) :
    Except Stop Unit → Cache n × σ → Prop where
  /-- It is refused below, and no slot changes. -/
  | refused {stop : Stop} {s' : σ}
      (hbelow : WritesBelow below a data s c.policy (.error stop) s') :
      Writes below a data c s (.error stop)
        (onTally (Tally.countWrite (c.ring.find? a).isSome) c, s')
  /-- A slot has a block of the address. -/
  | hit {i : Fin n} {line : Line} {s' : σ}
      (hbelow : WritesBelow below a data s c.policy (.ok ()) s')
      (hfind : c.ring.find? a = some (i, line)) :
      Writes below a data c s (.ok ())
        (onRing (Ring.put i (some ⟨a, data, true, c.policy = .writeBack⟩))
          (onTally (Tally.countWrite true) c), s')
  /-- No slot has one. -/
  | miss {s' : σ} {result : Except Stop Unit} {t : Cache n × σ}
      (hbelow : WritesBelow below a data s c.policy (.ok ()) s') (hfind : c.ring.find? a = none)
      (htake : TakesIn below ⟨a, data, true, c.policy = .writeBack⟩
        (onTally (Tally.countWrite false) c) s' result t) : Writes below a data c s result t

/-- A read goes one of the ways. -/
theorem read_lands (a : Address) : Op.Lands (read below a) (c, s) (Reads below a c s) := by
  apply lookup_lands
  cases hfind : c.ring.find? a with
  | some found => exact .pure (.hit hfind)
  | none =>
    apply Op.Lands.modifyOwn_seq
    apply Op.Lands.note_seq
    apply Op.Lands.lower_seq
    · intro block s' hrun
      apply (takeIn_lands _).bind
      · intro _ t htake
        exact .pure (.taken hfind hrun htake)
      · intro stop t htake
        exact .stuck hfind hrun htake
    · intro stop s' hrun
      exact .unread hfind hrun

/-- A write goes one of the ways. -/
theorem write_lands (a : Address) (data : Block) :
    Op.Lands (write below a data) (c, s) (Writes below a data c s) := by
  apply lookup_lands
  apply Op.Lands.modifyOwn_seq
  apply Op.Lands.own_seq
  -- The hit or miss is counted before the store below can refuse the block.
  apply (writeBelow_lands _ _ _).bind
  · intro _ after hafter
    obtain ⟨c', s'⟩ := after
    obtain ⟨rfl, hbelow⟩ := hafter
    cases hfind : c.ring.find? a with
    | some found => exact .modifyOwn (.hit hbelow hfind)
    | none =>
      refine (takeIn_lands _).mono ?_
      intro result t htake
      exact .miss hbelow hfind htake
  · intro stop after hafter
    obtain ⟨c', s'⟩ := after
    obtain ⟨rfl, hbelow⟩ := hafter
    exact .refused hbelow

/-! ### Sizes -/

/-- How an inode is resized. -/
inductive Resizes (below : Store σ) (ino blocks : UInt32) (c : Cache n) (s : σ) :
    Except Stop UInt32 → Cache n × σ → Prop where
  | refused {stop : Stop} {s' : σ} (hrun : below (.resize ino blocks) s = .error stop s') :
      Resizes below ino blocks c s (.error stop) (c, s')
  | resized {before : UInt32} {s' : σ} (hrun : below (.resize ino blocks) s = .ok before s') :
      Resizes below ino blocks c s (.ok before) (onRing (Ring.dropFrom ino blocks) c,
        Journal.enter (.cacheResized ino before blocks (c.ring.countFrom ino blocks)) s')

/-- A resize goes one of the ways. -/
theorem resize_lands (ino blocks : UInt32) :
    Op.Lands (resize below ino blocks) (c, s) (Resizes below ino blocks c s) :=
  Op.Lands.lower_seq (fun _ _ hrun => .own_seq (.modifyOwn_seq (.note_seq (.pure (.resized hrun)))))
    fun _ _ hrun => .refused hrun

/-! ### The end of a cache -/

/-- How the changed blocks that are in some slots are written below when
the cache closes. -/
inductive Rescues (below : Store σ) :
    List (Fin n) → Cache n × σ → Except Stop Unit → Cache n × σ → Prop where
  /-- No slot is left. -/
  | done {t : Cache n × σ} : Rescues below [] t (.ok ()) t
  /-- The slot has none. -/
  | skipped {i : Fin n} {rest : List (Fin n)} {c : Cache n} {s : σ} {result : Except Stop Unit}
      {t : Cache n × σ} (hskip : ∀ line, Row.at_ c.ring.slots i = some line → line.dirty = false)
      (hrest : Rescues below rest (c, s) result t) : Rescues below (i :: rest) (c, s) result t
  /-- Its block is written. -/
  | written {i : Fin n} {rest : List (Fin n)} {c : Cache n} {s s' : σ} {line : Line}
      {result : Except Stop Unit} {t : Cache n × σ} (hslot : Row.at_ c.ring.slots i = some line)
      (hdirty : line.dirty = true) (hrun : below (.write line.key line.data) s = .ok () s')
      (hrest : Rescues below rest (cleaned i line c, s') result t) :
      Rescues below (i :: rest) (c, s) result t
  /-- Its block is lost, which is reported. -/
  | lost {i : Fin n} {rest : List (Fin n)} {c : Cache n} {s s' : σ} {line : Line} {fault : Fault}
      {result : Except Stop Unit} {t : Cache n × σ} (hslot : Row.at_ c.ring.slots i = some line)
      (hdirty : line.dirty = true)
      (hrun : below (.write line.key line.data) s = .error (.fault fault) s')
      (hrest : Rescues below rest (c, Journal.enter (.blockLost line.key fault) s') result t) :
      Rescues below (i :: rest) (c, s) result t
  /-- The store below aborts. -/
  | aborted {i : Fin n} {rest : List (Fin n)} {c : Cache n} {s s' : σ} {line : Line}
      {abort : Abort} (hslot : Row.at_ c.ring.slots i = some line) (hdirty : line.dirty = true)
      (hrun : below (.write line.key line.data) s = .error (.abort abort) s') :
      Rescues below (i :: rest) (c, s) (.error (.abort abort)) (c, s')

/-- A cache that closes goes one of the ways for each of its slots. -/
theorem rescue_lands (slots : List (Fin n)) (t : Cache n × σ) :
    Op.Lands (rescue below slots) t (Rescues below slots t) := by
  -- As for a flush, the slots behind are taken from the state that this one leaves.
  induction slots generalizing t with
  | nil => exact .pure .done
  | cons i rest ih =>
    obtain ⟨c, s⟩ := t
    simp only [rescue, rescueSlot, bind_assoc]
    apply slotAt_lands
    cases hslot : Row.at_ c.ring.slots i with
    | none =>
      refine (ih (c, s)).mono ?_
      intro result t hrest
      exact .skipped (fun line hline => by cases hslot.symm.trans hline) hrest
    | some line =>
      dsimp only
      split
      · rename_i hdirty
        simp only [bind_assoc]
        apply Op.Lands.lower_attempt_seq
        · intro _ s' hrun
          apply Op.Lands.modifyOwn_seq
          refine (ih _).mono ?_
          intro result t hrest
          exact .written hslot hdirty hrun hrest
        · -- A fault is dealt with on the spot, and the next slot is tried.
          intro fault s' hrun
          apply Op.Lands.note_seq
          refine (ih _).mono ?_
          intro result t hrest
          exact .lost hslot hdirty hrun hrest
        · -- An abort ends the whole walk.
          intro abort s' hrun
          exact .aborted hslot hdirty hrun
      · rename_i hdirty
        refine (ih (c, s)).mono ?_
        intro result t hrest
        refine .skipped (fun other hother => ?_) hrest
        cases hslot.symm.trans hother
        exact Bool.eq_false_iff.mpr hdirty

end BlockLayers.Cache
