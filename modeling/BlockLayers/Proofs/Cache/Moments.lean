import BlockLayers.Proofs.Cache.Built
import BlockLayers.Proofs.Cache.Ways
import BlockLayers.Proofs.Paused

/-!
# `BlockLayers.Proofs.Cache.Moments`: the slots at the moment of a write below

A cache that writes back writes a block below to make room for another, or
because its inode is synced. In both cases the block is in a slot and is
changed when it is written: the slot is emptied, or its mark is taken away,
only after the write has succeeded.

Main statements: `store_traces` (the calls that a cache makes over an
observed store are met, one by one, over a paused store) and
`slot_of_moment` (what is in the slots when a block is written below).
-/

set_option autoImplicit false

namespace BlockLayers.Cache

variable {σ : Type} {n : Nat} {below : Store σ} {c c' : Cache n} {s : Paused σ}

/-- A changed block is in a slot. -/
def Ring.HasChanged (r : Ring n) (a : Address) (data : Block) : Prop :=
  ∃ i line, Row.at_ r.slots i = some line ∧ line.dirty = true ∧ line.key = a ∧ line.data = data

/-- If the run is at a pause in front of a write, then what is written is
in a slot. -/
def Shown (t : Cache n × Paused σ) : Prop :=
  ∀ a data, t.2.asked = some (.write a data) → t.1.ring.HasChanged a data

/-- A run that is not at a pause has nothing to show. -/
theorem shown_of_asked_eq_none {t : Cache n × Paused σ} (h : t.2.asked = none) : Shown t := by
  intro a data hasked
  cases h.symm.trans hasked

/-- The pause is in front of a call that is no write. -/
theorem shown_of_error {q : Request} {s' : Paused σ} {stop : Stop} (hs : s.asked = none)
    (hrun : Paused.store below q s = .error stop s') (hq : ∀ a data, q ≠ .write a data) :
    Shown (c, s') := by
  intro a data hasked
  rcases Paused.asked_of_error hrun with h | h
  · cases (h.trans hs).symm.trans hasked
  · -- The pause is the one that this very call has come to.
    cases h.symm.trans hasked
    exact (hq a data rfl).elim

/-- The pause is in front of the write of a line. -/
theorem shown_of_line {i : Fin n} {line : Line} {s' : Paused σ} {stop : Stop} (hs : s.asked = none)
    (hslot : Row.at_ c.ring.slots i = some line) (hdirty : line.dirty = true)
    (hrun : Paused.store below (.write line.key line.data) s = .error stop s') :
    Shown (c, s') := by
  intro a data hasked
  rcases Paused.asked_of_error hrun with h | h
  · cases (h.trans hs).symm.trans hasked
  · -- What is asked is the write of the line, and the slot still has it.
    cases h.symm.trans hasked
    exact ⟨i, line, hslot, hdirty, rfl, rfl⟩

/-- A flush that comes to a pause does so in front of a changed block in
a slot. -/
theorem Flushes.shown {ino : UInt32} {slots : List (Fin n)} {result : Except Stop Unit}
    {t t' : Cache n × Paused σ} (h : Flushes (Paused.store below) ino slots t result t')
    (ht : t.2.asked = none) : Shown t' := by
  -- Only a write that the run does not get past can be a pause. Before it every write was
  -- answered.
  induction h with
  | done => exact shown_of_asked_eq_none ht
  | skipped _ _ ih => exact ih ht
  | written _ hrun _ ih => exact ih ((Paused.asked_of_ok hrun).trans ht)
  | stuck hline hrun => exact shown_of_line ht hline.1 hline.2.1 hrun

/-- A flush that succeeds has come to no pause. -/
theorem Flushes.asked {ino : UInt32} {slots : List (Fin n)} {result : Except Stop Unit}
    {t t' : Cache n × Paused σ} (h : Flushes (Paused.store below) ino slots t result t')
    (hok : result = .ok ()) : t'.2.asked = t.2.asked := by
  induction h with
  | done => rfl
  | skipped _ _ ih => exact ih hok
  | written _ hrun _ ih => exact (ih hok).trans (Paused.asked_of_ok hrun)
  | stuck => cases hok

/-- A request that is passed on is no write. -/
theorem shown_next {q : Request} (hs : s.asked = none) (hq : ∀ a data, q ≠ .write a data) :
    Shown (c, Op.next (Paused.store below q) s) := by
  unfold Op.next
  cases hrun : Paused.store below q s with
  | ok value after => exact shown_of_asked_eq_none ((Paused.asked_of_ok hrun).trans hs)
  | error stop after => exact shown_of_error hs hrun hq

/-- A sync comes to a pause within its flush, or in front of the sync
below. -/
theorem Syncs.shown {ino : UInt32} {result : Except Stop Unit} {t : Cache n × Paused σ}
    (h : Syncs (Paused.store below) ino c s result t) (hs : s.asked = none) : Shown t := by
  cases h with
  | stuck _ hflush => exact hflush.shown hs
  | flushed _ hflush => exact shown_next ((hflush.asked rfl).trans hs) nofun
  | passed => exact shown_next hs nofun

variable [Journal σ]

/-- A slot that is made ready has its block as long as the write of it
is pending. -/
theorem Vacates.shown {i : Fin n} {result : Except Stop Unit} {t : Cache n × Paused σ}
    (h : Vacates (Paused.store below) c i s result t) (hs : s.asked = none) : Shown t := by
  cases h with
  | free => exact shown_of_asked_eq_none hs
  | clean => exact shown_of_asked_eq_none hs
  | flushed _ _ hrun => exact shown_of_asked_eq_none ((Paused.asked_of_ok hrun).trans hs)
  | stuck hslot hdirty hrun =>
    -- The slot is emptied by the caller, after this write.
    exact shown_of_line ((Paused.asked_enter ..).trans hs) hslot hdirty hrun

/-- A slot that was made ready has come to no pause. -/
theorem Vacates.asked {i : Fin n} {t : Cache n × Paused σ}
    (h : Vacates (Paused.store below) c i s (.ok ()) t) : t.2.asked = s.asked := by
  cases h with
  | free => rfl
  | clean => rfl
  | flushed _ _ hrun => simpa using Paused.asked_of_ok hrun

/-- A line is taken in with a pause only where the old block of its slot
is written. -/
theorem TakesIn.shown {line : Line} {result : Except Stop Unit} {t : Cache n × Paused σ}
    (h : TakesIn (Paused.store below) line c s result t) (hs : s.asked = none) : Shown t := by
  cases h with
  | placed hvacates => exact shown_of_asked_eq_none (hvacates.asked.trans hs)
  | stuck hvacates => exact hvacates.shown hs

/-- A read comes to a pause in front of the read below, or where the
slot is made ready. -/
theorem Reads.shown {a : Address} {result : Except Stop Block} {t : Cache n × Paused σ}
    (h : Reads (Paused.store below) a c s result t) (hs : s.asked = none) : Shown t := by
  cases h with
  | hit => exact shown_of_asked_eq_none hs
  | unread _ hrun => exact shown_of_error ((Paused.asked_enter ..).trans hs) hrun nofun
  | taken _ hrun htake => exact htake.shown ((Paused.asked_of_ok hrun).trans hs)
  | stuck _ hrun htake => exact htake.shown ((Paused.asked_of_ok hrun).trans hs)

/-- A write to a cache that writes back comes to a pause only where the
slot is made ready. -/
theorem Writes.shown {a : Address} {data : Block} {result : Except Stop Unit}
    {t : Cache n × Paused σ} (h : Writes (Paused.store below) a data c s result t)
    (hpolicy : c.policy = .writeBack) (hs : s.asked = none) : Shown t := by
  -- The policy excludes that the block itself is written below.
  cases h with
  | refused hbelow =>
    rw [hpolicy] at hbelow
    cases hbelow
  | hit hbelow =>
    rw [hpolicy] at hbelow
    cases hbelow
    exact shown_of_asked_eq_none hs
  | miss hbelow _ htake =>
    rw [hpolicy] at hbelow
    cases hbelow
    exact htake.shown hs

/-- A resize comes to a pause only in front of the resize below. -/
theorem Resizes.shown {ino blocks : UInt32} {result : Except Stop UInt32} {t : Cache n × Paused σ}
    (h : Resizes (Paused.store below) ino blocks c s result t) (hs : s.asked = none) :
    Shown t := by
  cases h with
  | refused hrun => exact shown_of_error hs hrun nofun
  | resized hrun => exact shown_of_asked_eq_none ((Paused.asked_of_ok hrun).trans hs)

/-- A cache over a paused store goes the way that it goes over the observed
one. -/
theorem store_traces (below : Store σ) (q : Request) :
    Op.Traces (store (n := n) (Paused.store below) q) (store (Observed.store below) q) := by
  have hsteps : Relates (n := n) (Paused.store below) (Observed.store below)
      fun _ x y => Op.Traces x y :=
    { pure := .pure
      bind := .bind
      own := .own
      onRing := fun _ => .modifyOwn _
      onTally := fun _ => .modifyOwn _
      lower := .lower
      note := .note }
  exact hsteps.store q

/-- At the moment when a cache that writes back writes a block below, the
block is in a slot and changed. -/
theorem slot_of_moment {q : Request} {k : Nat} {s : σ} {a : Address} {data : Block}
    (hpolicy : c.policy = .writeBack)
    (h : Paused.moment (store (Paused.store below) q) c k s = some (c', .write a data)) :
    c'.ring.HasChanged a data := by
  -- A run that is cut at call `k` starts at no pause, and every call keeps what it shows.
  have hshown : Shown (Op.next (store (Paused.store below) q) (c, ⟨k, none, s⟩)) := by
    cases q with
    | capacity =>
      show Shown (Op.next (Op.lower (Paused.store below .capacity)) (c, ⟨k, none, s⟩))
      rw [Op.next_lower]
      exact shown_next rfl nofun
    | size ino =>
      show Shown (Op.next (Op.lower (Paused.store below (.size ino))) (c, ⟨k, none, s⟩))
      rw [Op.next_lower]
      exact shown_next rfl nofun
    | resize ino blocks => exact (resize_lands ino blocks : Resizes _ ino blocks c _ _ _).shown rfl
    | read a => exact (read_lands a : Reads _ a c _ _ _).shown rfl
    | write a data => exact (write_lands a data : Writes _ a data c _ _ _).shown hpolicy rfl
    | sync ino => exact (sync_lands ino : Syncs _ ino c _ _ _).shown rfl
  obtain ⟨asked, hasked, hmoment⟩ := Option.map_eq_some_iff.mp h
  cases hmoment
  exact hshown a data hasked

end BlockLayers.Cache
