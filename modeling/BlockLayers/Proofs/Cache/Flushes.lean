import BlockLayers.Proofs.Cache.Ways
import BlockLayers.Proofs.Observed
import BlockLayers.Proofs.Unsteady
import Mathlib.Data.List.Basic

/-!
# `BlockLayers.Proofs.Cache.Flushes`: two ways to flush

A sync writes the changed blocks of an inode below and gives up at the
first that fails. A cache that closes tries to write all of its changed
blocks below and gives up none. Both go through the slots in their order,
and both leave a block that is not written below in its slot, as it is
(`Tried`).

So a sync that fails can be made again, and goes on where it was: what it
has written is not written again, and the rest is.

Main statement: `flushes_lose_nothing`, for every state of a cache that
writes back and any failures of the store below.
-/

set_option autoImplicit false

namespace BlockLayers.Cache

variable {σ : Type} {n : Nat} {below : Store σ} {c c' : Cache n} {mine : UInt32 → Bool} {i : Fin n}
  {line : Line} {slots : List (Fin n)} {r : Ring n} {ino : UInt32}

/-! ### What is due -/

/-- A changed line of one of the inodes that are flushed. -/
def Line.owes (mine : UInt32 → Bool) (line : Line) : Bool := line.dirty && mine line.key.ino

/-- The lines in some slots that are due, with their slots and in the
order of these. -/
def Ring.dueIn (mine : UInt32 → Bool) (slots : List (Fin n)) (r : Ring n) : List (Fin n × Line) :=
  slots.filterMap fun i => ((Row.at_ r.slots i).filter (Line.owes mine)).map fun line => (i, line)

/-- All lines that are due. -/
abbrev Ring.due (mine : UInt32 → Bool) (r : Ring n) : List (Fin n × Line) :=
  r.dueIn mine (List.finRange n)

namespace Ring

/-- What is due in some slots are the changed lines in them that are
flushed. -/
theorem mem_dueIn : (i, line) ∈ r.dueIn mine slots ↔
    i ∈ slots ∧ Row.at_ r.slots i = some line ∧ line.owes mine = true := by
  simp only [dueIn, List.mem_filterMap, Option.map_eq_some_iff, Option.filter_eq_some_iff,
    Prod.mk.injEq]
  constructor
  · intro h
    obtain ⟨j, hj, found, hfound, rfl, rfl⟩ := h
    exact ⟨hj, hfound⟩
  · intro h
    exact ⟨i, h.1, line, h.2, rfl, rfl⟩

/-- A slot in front with a line that is due. -/
theorem dueIn_cons_of_owes (hslot : Row.at_ r.slots i = some line)
    (howes : line.owes mine = true) :
    r.dueIn mine (i :: slots) = (i, line) :: r.dueIn mine slots := by
  simp [dueIn, hslot, Option.filter, howes]

/-- A slot in front with nothing that is due. -/
theorem dueIn_cons_of_not (h : ∀ line, Row.at_ r.slots i = some line → line.owes mine = false) :
    r.dueIn mine (i :: slots) = r.dueIn mine slots := by
  cases hslot : Row.at_ r.slots i with
  | none => simp [dueIn, hslot]
  | some line => simp [dueIn, hslot, h line hslot]

/-- What is due in some slots does not hang on another slot. -/
theorem dueIn_put (hi : i ∉ slots) (slot : Option Line) :
    (r.put i slot).dueIn mine slots = r.dueIn mine slots := by
  apply List.filterMap_congr
  intro j hj
  have hne : j ≠ i := by
    rintro rfl
    exact hi hj
  rw [put, Row.at_put_of_ne _ _ hne]

/-- Where nothing is due no line is changed. -/
theorem clean_of_due_nil (h : r.due mine = []) (hslot : Row.at_ r.slots i = some line)
    (hmine : mine line.key.ino = true) : line.dirty = false := by
  rw [Bool.eq_false_iff]
  intro hdirty
  have hdue : (i, line) ∈ r.due mine :=
    mem_dueIn.mpr ⟨List.mem_finRange i, hslot, by simp [Line.owes, hdirty, hmine]⟩
  rw [h] at hdue
  cases hdue

end Ring

/-! ### What is written -/

/-- The lines of some slots were written below: they are no longer
changed, and nothing else of the cache is. -/
structure Wrote (done : List (Fin n × Line)) (c c' : Cache n) : Prop where
  policy : c'.policy = c.policy
  tally : c'.tally = c.tally
  hand : c'.ring.hand = c.ring.hand
  /-- A line that was written is kept. -/
  clean : ∀ i line, (i, line) ∈ done →
    Row.at_ c'.ring.slots i = some { line with dirty := false }
  /-- Every other slot is as it was. -/
  kept : ∀ i, (∀ line, (i, line) ∉ done) → Row.at_ c'.ring.slots i = Row.at_ c.ring.slots i

/-- Nothing was written. -/
theorem wrote_nil (c : Cache n) : Wrote [] c c where
  policy := rfl
  tally := rfl
  hand := rfl
  clean i line h := by simp at h
  kept i _ := rfl

/-- One more line was written, from a slot from which nothing was
written since. -/
theorem Wrote.cons {done : List (Fin n × Line)} (h : Wrote done (cleaned i line c) c')
    (hi : ∀ line, (i, line) ∉ done) : Wrote ((i, line) :: done) c c' where
  policy := h.policy
  tally := h.tally
  hand := h.hand
  clean j other hmem := by
    rcases List.mem_cons.mp hmem with heq | hmem
    · cases heq
      -- The lines that were written after this one are in other slots.
      rw [h.kept i hi]
      exact Row.at_put_self ..
    · exact h.clean j other hmem
  kept j hj := by
    have hne : j ≠ i := by
      rintro rfl
      exact hj line List.mem_cons_self
    rw [h.kept j fun other hmem => hj other (List.mem_cons_of_mem _ hmem)]
    exact Row.at_put_of_ne _ _ hne

/-! ### Attempts -/

/-- A line whose write was tried, and what that ended with. -/
abbrev Attempt (n : Nat) := (Fin n × Line) × Except Fault Unit

/-- A call that writes a line below. -/
def writeOf (entry : Fin n × Line) (result : Except Stop Unit) :
    (q : Request) × Except Stop q.Answer :=
  ⟨.write entry.2.key entry.2.data, result⟩

namespace Attempt

/-- The call below. -/
def call (attempt : Attempt n) : (q : Request) × Except Stop q.Answer :=
  writeOf attempt.1 (attempt.2.mapError Stop.fault)

/-- The line, if it was written. -/
def saved : Attempt n → Option (Fin n × Line)
  | (entry, .ok _) => some entry
  | (_, .error _) => none

/-- The line, if it was not. -/
def failed : Attempt n → Option (Fin n × Line)
  | (_, .ok _) => none
  | (entry, .error _) => some entry

/-- What is reported: only that a block is lost. -/
def report : Attempt n → Option Event
  | (_, .ok _) => none
  | (entry, .error fault) => some (.blockLost entry.2.key fault)

end Attempt

/-- A flush has tried the first of the lines that are due in some slots,
each once and in their order, and then has made the calls `others`. -/
structure Tried (mine : UInt32 → Bool) (slots : List (Fin n)) (attempts : List (Attempt n))
    (left : List (Fin n × Line)) (others : List ((q : Request) × Except Stop q.Answer))
    (t t' : Cache n × Observed σ) : Prop where
  before : t.1.ring.dueIn mine slots = attempts.map Prod.fst ++ left
  /-- What failed and what was not tried is still due. -/
  after : t'.1.ring.dueIn mine slots = attempts.filterMap Attempt.failed ++ left
  wrote : Wrote (attempts.filterMap Attempt.saved) t.1 t'.1
  calls : t'.2.calls = t.2.calls ++ attempts.map Attempt.call ++ others

/-- What is left of a flush and which call was its last: nothing, or the
call that held it up. -/
inductive Rest (holds : Stop → Prop) : Except Stop Unit → List (Fin n × Line) →
    List ((q : Request) × Except Stop q.Answer) → Prop where
  | nothing : Rest holds (.ok ()) [] []
  | heldUp {stop : Stop} (hstop : holds stop) (entry : Fin n × Line) (rest : List (Fin n × Line)) :
      Rest holds (.error stop) (entry :: rest) [writeOf entry (.error stop)]

namespace Tried

variable {attempts : List (Attempt n)} {left : List (Fin n × Line)}
  {others : List ((q : Request) × Except Stop q.Answer)} {t t' : Cache n × Observed σ}

/-- Without slots nothing is tried. -/
theorem nil (t : Cache n × Observed σ) : Tried mine [] [] [] [] t t :=
  ⟨rfl, rfl, wrote_nil t.1, by simp⟩

/-- A slot that is not gone through stays as it was. -/
theorem not_mem (h : Tried mine slots attempts left others t t') (hi : i ∉ slots) :
    ∀ line, (i, line) ∉ attempts.filterMap Attempt.saved := by
  intro line hmem
  obtain ⟨⟨entry, result⟩, hattempt, hsaved⟩ := List.mem_filterMap.mp hmem
  have hentry : entry = (i, line) := by
    cases result with
    | ok => exact Option.some.inj hsaved
    | error => cases hsaved
  -- What was saved was due before, and only the slots that are gone through are looked at for
  -- that.
  have hdue : (i, line) ∈ t.1.ring.dueIn mine slots := by
    rw [h.before, ← hentry]
    exact List.mem_append_left _ (List.mem_map_of_mem hattempt)
  exact hi (Ring.mem_dueIn.mp hdue).1

/-- The contents of a slot that is not gone through stay as they were.
-/
theorem untouched (h : Tried mine slots attempts left others t t') (hi : i ∉ slots) :
    Row.at_ t'.1.ring.slots i = Row.at_ t.1.ring.slots i :=
  h.wrote.kept i (h.not_mem hi)

/-- A slot in front that has nothing to flush. -/
theorem skip (h : Tried mine slots attempts left others t t') (hi : i ∉ slots)
    (hskip : ∀ line, Row.at_ t.1.ring.slots i = some line → line.owes mine = false) :
    Tried mine (i :: slots) attempts left others t t' where
  before := by rw [Ring.dueIn_cons_of_not hskip, h.before]
  after := by
    rw [Ring.dueIn_cons_of_not, h.after]
    rw [h.untouched hi]
    exact hskip
  wrote := h.wrote
  calls := h.calls

/-- A slot in front whose line is written. -/
theorem save {s s' : Observed σ}
    (h : Tried mine slots attempts left others (cleaned i line c, s') t') (hi : i ∉ slots)
    (hslot : Row.at_ c.ring.slots i = some line) (howes : line.owes mine = true)
    (hcalls : s'.calls = s.calls ++ [writeOf (i, line) (.ok ())]) :
    Tried mine (i :: slots) (((i, line), .ok ()) :: attempts) left others (c, s) t' where
  before := by
    have hrest : c.ring.dueIn mine slots = attempts.map Prod.fst ++ left :=
      (Ring.dueIn_put hi _).symm.trans h.before
    rw [Ring.dueIn_cons_of_owes hslot howes, hrest, List.map_cons, List.cons_append]
  after := by
    -- The line is in its slot still, and no longer changed.
    rw [Ring.dueIn_cons_of_not]
    · exact h.after
    · intro other hother
      rw [h.untouched hi] at hother
      cases (Row.at_put_self ..).symm.trans hother
      simp [Line.owes]
  wrote := h.wrote.cons (h.not_mem hi)
  calls := by
    rw [h.calls, hcalls, List.map_cons]
    simp [Attempt.call, Except.mapError]

/-- A slot in front whose line is not written. -/
theorem lose {s s' : Observed σ} {fault : Fault}
    (h : Tried mine slots attempts left others (c, s') t') (hi : i ∉ slots)
    (hslot : Row.at_ c.ring.slots i = some line) (howes : line.owes mine = true)
    (hcalls : s'.calls = s.calls ++ [writeOf (i, line) (.error (.fault fault))]) :
    Tried mine (i :: slots) (((i, line), .error fault) :: attempts) left others (c, s) t' where
  before := by
    rw [Ring.dueIn_cons_of_owes hslot howes, h.before, List.map_cons, List.cons_append]
  after := by
    rw [Ring.dueIn_cons_of_owes ((h.untouched hi).trans hslot) howes, h.after]
    rfl
  wrote := h.wrote
  calls := by
    rw [h.calls, hcalls, List.map_cons]
    simp [Attempt.call, Except.mapError]

/-- A slot whose line holds the flush up. -/
theorem stop {s s' : Observed σ} {stop : Stop} (slots : List (Fin n))
    (hslot : Row.at_ c.ring.slots i = some line) (howes : line.owes mine = true)
    (hcalls : s'.calls = s.calls ++ [writeOf (i, line) (.error stop)]) :
    Tried mine (i :: slots) [] ((i, line) :: c.ring.dueIn mine slots)
      [writeOf (i, line) (.error stop)] (c, s) (c, s') where
  before := Ring.dueIn_cons_of_owes hslot howes
  after := Ring.dueIn_cons_of_owes hslot howes
  wrote := wrote_nil c
  calls := by simpa using hcalls

end Tried

/-! ### A sync -/

/-- The attempts to write some lines, all of which succeeded. -/
def allSaved (done : List (Fin n × Line)) : List (Attempt n) := done.map fun entry => (entry, .ok ())

/-- The calls that wrote some lines. -/
def writesOf (done : List (Fin n × Line)) : List ((q : Request) × Except Stop q.Answer) :=
  done.map fun entry => writeOf entry (.ok ())

/-- The lines of these attempts. -/
theorem map_fst_allSaved (done : List (Fin n × Line)) : (allSaved done).map Prod.fst = done := by
  simp [allSaved, Function.comp_def]

/-- All of the lines were saved. -/
theorem saved_allSaved (done : List (Fin n × Line)) :
    (allSaved done).filterMap Attempt.saved = done := by
  simp [allSaved, List.filterMap_map, Function.comp_def, Attempt.saved]

/-- None of the attempts failed. -/
theorem failed_allSaved (done : List (Fin n × Line)) :
    (allSaved done).filterMap Attempt.failed = [] := by
  simp [allSaved, Attempt.failed]

/-- The calls of these attempts are writes that succeeded. -/
theorem call_allSaved (done : List (Fin n × Line)) :
    (allSaved done).map Attempt.call = writesOf done := by
  simp [allSaved, writesOf, Attempt.call, Except.mapError, Function.comp_def]

/-- The lines that a sync of an inode writes below. -/
abbrev ofInode (ino : UInt32) : UInt32 → Bool := fun i => decide (i = ino)

/-- A changed line of the inode is due. -/
theorem owes_of_changedAt (h : r.changedAt ino i line) : line.owes (ofInode ino) = true := by
  simp [Line.owes, h.2.1, h.2.2]

/-- A slot without a changed line of the inode has nothing that is due.
-/
theorem owes_eq_false (h : ∀ line, ¬ r.changedAt ino i line)
    (hslot : Row.at_ r.slots i = some line) : line.owes (ofInode ino) = false := by
  have hnot := h line
  simp only [Ring.changedAt, hslot, true_and] at hnot
  simpa [Line.owes] using hnot

/-- The way of a flush is to write the lines that are due, up to the first
that fails. -/
theorem Flushes.tried {result : Except Stop Unit} {t t' : Cache n × Observed σ}
    (h : Flushes (Observed.store below) ino slots t result t') (hnodup : slots.Nodup) :
    ∃ done left others, Tried (ofInode ino) slots (allSaved done) left others t t' ∧
      Rest (fun _ => True) result left others := by
  -- What the slots behind have tried is known, and every way puts its slot in front.
  induction h with
  | done => exact ⟨[], [], [], Tried.nil _, .nothing⟩
  | skipped hskip _ ih =>
    obtain ⟨hi, hrest⟩ := List.nodup_cons.mp hnodup
    obtain ⟨done, left, others, htried, hends⟩ := ih hrest
    exact ⟨done, left, others, htried.skip hi fun line => owes_eq_false hskip, hends⟩
  | @written i _ _ _ _ line _ _ hline hrun _ ih =>
    -- The slot does not come again, so what is tried later does not touch it.
    obtain ⟨hi, hrest⟩ := List.nodup_cons.mp hnodup
    obtain ⟨done, left, others, htried, hends⟩ := ih hrest
    exact ⟨(i, line) :: done, left, others, htried.save hi hline.1 (owes_of_changedAt hline)
      (Observed.run_of_ok hrun).2.1, hends⟩
  | @stuck i rest _ _ _ line stop hline hrun =>
    -- The flush stops here, and what the slots behind owe is left.
    exact ⟨[], _, _, Tried.stop rest hline.1 (owes_of_changedAt hline)
      (Observed.run_of_error hrun).2.1, .heldUp trivial (i, line) _⟩

/-- The writes of some lines succeed, and go on doing so. -/
def Healthy (below : Store σ) (good : σ → Prop) (entries : List (Fin n × Line)) : Prop :=
  ∀ entry ∈ entries, ∀ s, good s →
    ∃ s', below (.write entry.2.key entry.2.data) s = .ok () s' ∧ good s'

/-- Over a store that takes what is due, a flush is not held up. -/
theorem Flushes.healthy {good : σ → Prop} {result : Except Stop Unit} {t t' : Cache n × Observed σ}
    (h : Flushes (Observed.store below) ino slots t result t') (hnodup : slots.Nodup)
    (hgood : good t.2.inner)
    (hhealthy : Healthy below good (t.1.ring.dueIn (ofInode ino) slots)) : result = .ok () := by
  induction h with
  | done => rfl
  | skipped hskip _ ih =>
    rw [Ring.dueIn_cons_of_not fun line => owes_eq_false hskip] at hhealthy
    exact ih (List.nodup_cons.mp hnodup).2 hgood hhealthy
  | @written i slots c _ _ line _ _ hline hrun _ ih =>
    obtain ⟨hi, hrest⟩ := List.nodup_cons.mp hnodup
    rw [Ring.dueIn_cons_of_owes hline.1 (owes_of_changedAt hline)] at hhealthy
    obtain ⟨s', hwrite, hgood'⟩ := hhealthy _ List.mem_cons_self _ hgood
    cases (Observed.run_of_ok hrun).1.symm.trans hwrite
    -- The lines behind this one are due as they were.
    apply ih hrest hgood'
    intro entry hentry
    have hdue : entry ∈ c.ring.dueIn (ofInode ino) slots := Ring.dueIn_put hi _ ▸ hentry
    exact hhealthy entry (List.mem_cons_of_mem _ hdue)
  | stuck hline hrun =>
    rw [Ring.dueIn_cons_of_owes hline.1 (owes_of_changedAt hline)] at hhealthy
    -- The store takes the line, so it cannot have held the flush up.
    obtain ⟨s', hwrite, -⟩ := hhealthy _ List.mem_cons_self _ hgood
    cases (Observed.run_of_error hrun).1.symm.trans hwrite

/-- A sync has written all that was due, and is passed on. -/
structure Synced (ino : UInt32) (t t' : Cache n × Observed σ) (result : Except Stop Unit) :
    Prop where
  wrote : Wrote (t.1.ring.due (ofInode ino)) t.1 t'.1
  /-- Nothing of the inode is changed any more. -/
  clean : ∀ i line, Row.at_ t'.1.ring.slots i = some line → line.key.ino = ino → line.dirty = false
  calls : t'.2.calls = t.2.calls ++ writesOf (t.1.ring.due (ofInode ino)) ++ [⟨.sync ino, result⟩]

/-- A sync has written `done`, and the write of `entry` has failed. It is
not passed on. -/
structure HeldUp (ino : UInt32) (done : List (Fin n × Line)) (entry : Fin n × Line)
    (rest : List (Fin n × Line)) (stop : Stop) (t t' : Cache n × Observed σ) : Prop where
  before : t.1.ring.due (ofInode ino) = done ++ entry :: rest
  /-- The lines that were not written are in their slots and still due. -/
  after : t'.1.ring.due (ofInode ino) = entry :: rest
  wrote : Wrote done t.1 t'.1
  calls : t'.2.calls = t.2.calls ++ writesOf done ++ [writeOf entry (.error stop)]

/-- A flush that was not held up makes a sync that is passed on. -/
theorem Flushes.synced {t after : Observed σ}
    (h : Flushes (Observed.store below) ino (List.finRange n) (c, t) (.ok ()) (c', after)) :
    Synced ino (c, t) (c', Op.next (Observed.store below (.sync ino)) after)
      (Op.outcome (Observed.store below (.sync ino)) after) := by
  obtain ⟨done, left, others, htried, hends⟩ := h.tried (List.nodup_finRange n)
  cases hends
  -- All lines that were due were written, and none is left.
  have hdone : c.ring.due (ofInode ino) = done := by
    rw [Ring.due, htried.before, map_fst_allSaved, List.append_nil]
  have hafter : c'.ring.due (ofInode ino) = [] := by
    rw [Ring.due, htried.after, failed_allSaved, List.append_nil]
  refine ⟨?_, ?_, ?_⟩
  · rw [hdone]
    exact saved_allSaved done ▸ htried.wrote
  · intro i line hslot hino
    exact Ring.clean_of_due_nil hafter hslot (by simp [hino])
  · rw [Observed.calls_next, htried.calls, call_allSaved, hdone, List.append_nil]

/-- A sync of a cache that writes back is passed on after all of its
writes, or held up by one of them. -/
theorem Syncs.synced {t : Observed σ} {after : Cache n × Observed σ} {result : Except Stop Unit}
    (h : Syncs (Observed.store below) ino c t result after) (hpolicy : c.policy = .writeBack) :
    Synced ino (c, t) after result ∨ ∃ done entry rest stop,
      HeldUp ino done entry rest stop (c, t) after ∧ result = .error stop := by
  cases h with
  | stuck _ hflush =>
    obtain ⟨done, left, others, htried, hends⟩ := hflush.tried (List.nodup_finRange n)
    cases hends with
    | heldUp _ entry rest =>
      -- What was done lies before the line that failed, and what is due now starts with it.
      refine .inr ⟨done, entry, rest, _, ⟨?_, ?_, ?_, ?_⟩, rfl⟩
      · rw [Ring.due, htried.before, map_fst_allSaved]
      · rw [Ring.due, htried.after, failed_allSaved, List.nil_append]
      · exact saved_allSaved done ▸ htried.wrote
      · rw [htried.calls, call_allSaved]
  | flushed _ hflush => exact .inl hflush.synced
  | passed hthrough => cases hpolicy.symm.trans hthrough

/-- A sync over a store that takes what is due is not held up. -/
theorem Syncs.healthy {good : σ → Prop} {t : Observed σ} {after : Cache n × Observed σ}
    {result : Except Stop Unit} (h : Syncs (Observed.store below) ino c t result after)
    (hpolicy : c.policy = .writeBack) (hgood : good t.inner)
    (hhealthy : Healthy below good (c.ring.due (ofInode ino))) :
    Synced ino (c, t) after result := by
  cases h with
  | stuck _ hflush => cases hflush.healthy (List.nodup_finRange n) hgood hhealthy
  | flushed _ hflush => exact hflush.synced
  | passed hthrough => cases hpolicy.symm.trans hthrough

/-! ### The last flush -/

variable [Journal σ]

/-- The way of the last flush is to try every changed line and to report
those that are lost. Only an abort ends it before the last. -/
theorem Rescues.tried {result : Except Stop Unit} {t t' : Cache n × Observed σ}
    (h : Rescues (Observed.store below) slots t result t') (hnodup : slots.Nodup) :
    ∃ attempts left others, Tried (fun _ => true) slots attempts left others t t' ∧
      t'.2.events = t.2.events ++ attempts.filterMap Attempt.report ∧
      Rest (fun stop => ∃ abort, stop = .abort abort) result left others := by
  have howes : ∀ {line : Line}, line.dirty = true → line.owes (fun _ => true) = true :=
    fun hdirty => by simp [Line.owes, hdirty]
  -- As for a sync, but a line that is lost stays due and the flush goes on.
  induction h with
  | done => exact ⟨[], [], [], Tried.nil _, by simp, .nothing⟩
  | skipped hskip _ ih =>
    obtain ⟨hi, hrest⟩ := List.nodup_cons.mp hnodup
    obtain ⟨attempts, left, others, htried, hevents, hends⟩ := ih hrest
    refine ⟨attempts, left, others, htried.skip hi fun line hslot => ?_, hevents, hends⟩
    simp [Line.owes, hskip line hslot]
  | written hslot hdirty hrun _ ih =>
    obtain ⟨hi, hrest⟩ := List.nodup_cons.mp hnodup
    obtain ⟨attempts, left, others, htried, hevents, hends⟩ := ih hrest
    obtain ⟨-, hcalls, hquiet⟩ := Observed.run_of_ok hrun
    refine ⟨_, left, others, htried.save hi hslot (howes hdirty) hcalls, ?_, hends⟩
    rw [hevents, hquiet]
    rfl
  | lost hslot hdirty hrun _ ih =>
    obtain ⟨hi, hrest⟩ := List.nodup_cons.mp hnodup
    obtain ⟨attempts, left, others, htried, hevents, hends⟩ := ih hrest
    obtain ⟨-, hcalls, hquiet⟩ := Observed.run_of_error hrun
    -- The report of the lost block stands where its line stands among the attempts.
    refine ⟨_, left, others, htried.lose hi hslot (howes hdirty) hcalls, ?_, hends⟩
    rw [hevents]
    simp [Attempt.report, hquiet]
  | @aborted i rest _ _ _ line abort hslot hdirty hrun =>
    obtain ⟨-, hcalls, hquiet⟩ := Observed.run_of_error hrun
    exact ⟨[], _, _, Tried.stop rest hslot (howes hdirty) hcalls, by simpa using hquiet,
      .heldUp ⟨abort, rfl⟩ (i, line) _⟩

/-- A cache that writes back closes by going through all of its slots.
-/
theorem close_lands (hpolicy : c.policy = .writeBack) (s : σ) :
    Op.Lands (close below) (c, s) (Rescues below (List.finRange n) (c, s)) := by
  apply Op.Lands.own_seq
  rw [hpolicy]
  exact rescue_lands _ _

/-- The flushes of a cache that writes back, in any state and over a store
that fails as it likes.

A sync writes the changed lines of its inode below, each once and in the
order of the slots, and is passed on. Or it ends with the failure of one of
these writes: it is not passed on, the lines before that one are written,
and the cache is otherwise as it was, so that a sync made again over a store
that takes them writes just those that are left.

A cache that closes tries every changed line once and in the order of the
slots, whatever becomes of the others, and reports as lost the blocks whose
write fails. Only an abort of the store below cuts it short. -/
theorem flushes_lose_nothing (below : Store σ) (ring : Ring n) (tally : Tally) (t : Observed σ) :
    let start : Cache n × Observed σ := (⟨.writeBack, ring, tally⟩, t)
    (∀ ino,
      let sync := store (Observed.store below) (.sync ino)
      let after := Op.next sync start
      Synced ino start after (Op.outcome sync start) ∨
      ∃ done entry rest stop, HeldUp ino done entry rest stop start after ∧
        Op.outcome sync start = .error stop ∧
        ∀ (healthy : Store σ) (good : σ → Prop) (u : Observed σ), good u.inner →
          Healthy healthy good (entry :: rest) →
          let again := store (Observed.store healthy) (.sync ino)
          Synced ino (after.1, u) (Op.next again (after.1, u)) (Op.outcome again (after.1, u))) ∧
    let close := close (Observed.store below)
    let after := Op.next close start
    ∃ attempts, after.2.events = t.events ++ attempts.filterMap Attempt.report ∧
      (Tried (fun _ => true) (List.finRange n) attempts [] [] start after ∧
          Op.outcome close start = .ok () ∨
        ∃ entry rest abort, Tried (fun _ => true) (List.finRange n) attempts (entry :: rest)
          [writeOf entry (.error (.abort abort))] start after ∧
          Op.outcome close start = .error (.abort abort)) := by
  intro start
  constructor
  · intro ino sync after
    have hsync : Syncs (Observed.store below) ino start.1 t (Op.outcome sync start) after :=
      sync_lands ino
    rcases hsync.synced rfl with hsynced | ⟨done, entry, rest, stop, hheld, hstop⟩
    · exact .inl hsynced
    · refine .inr ⟨done, entry, rest, stop, hheld, hstop, ?_⟩
      intro healthy good u hgood hhealthy again
      -- The second sync starts from the cache that the first has left, over any store.
      have hagain : Syncs (Observed.store healthy) ino after.1 u
          (Op.outcome again (after.1, u)) (Op.next again (after.1, u)) := sync_lands ino
      exact hagain.healthy hheld.wrote.policy hgood (hheld.after ▸ hhealthy)
  · intro close after
    have hclose : Rescues (Observed.store below) (List.finRange n) start (Op.outcome close start)
        after := close_lands rfl t
    obtain ⟨attempts, left, others, htried, hevents, hends⟩ :=
      hclose.tried (List.nodup_finRange n)
    refine ⟨attempts, hevents, ?_⟩
    -- How the walk ended decides whether something is left of it.
    generalize Op.outcome close start = result at hends ⊢
    cases hends with
    | nothing => exact .inl ⟨htried, rfl⟩
    | heldUp habort entry rest =>
      obtain ⟨abort, rfl⟩ := habort
      exact .inr ⟨entry, rest, abort, htried, rfl⟩

/-- Three changed slots, the second of another inode, over a store that
fails its second call: the sync leaves the third. -/
example :
    let below := Unsteady.store (fun call => if call = 1 then some Fault.io else none) Memory.store
    let serve := store (n := 3) (Observed.store below)
    let t := Op.after serve
      [.write ⟨0, 0⟩ (Block.fill 1), .write ⟨1, 0⟩ (Block.fill 2), .write ⟨0, 1⟩ (Block.fill 3)]
      (empty .writeBack 3 (by decide), Observed.start (0, Memory.empty 2))
    Op.outcome (serve (.sync 0)) t = .error (.fault .io) ∧
      ((Op.next (serve (.sync 0)) t).1.ring.due fun _ => true).map Prod.fst = [1, 2] :=
  ⟨rfl, rfl⟩

end BlockLayers.Cache
