import BlockLayers.Probe
import BlockLayers.Proofs.Cache.Moments
import BlockLayers.Proofs.Cache.Shelf
import BlockLayers.Proofs.Unsteady
import Mathlib.Algebra.BigOperators.Group.Finset.Piecewise
import Mathlib.Algebra.Order.BigOperators.Group.Finset

/-!
# `BlockLayers.Proofs.Cache.Traffic`: the account of a cache and the calls below

A cache counts its reads and writes, and the store below sees some of them:
every read that misses, and the writes that the policy sends there. Both
are counted here over an observed store, whatever its calls end with
(`Traffic`).

Under the policy `writeBack` a block is written below long after the write
that changed it. What bounds these writes is a potential: the writes that
have succeeded below and the changed slots together. A write to the cache
adds one at most, and writing a slot below only moves one from the slots to
the store.

Main statement: `traffic_after`, for every list of requests.
-/

set_option autoImplicit false

namespace BlockLayers

/-! ### Calls below -/

namespace Observed

variable {σ : Type}

/-- The number of calls of a kind. -/
def made (kind : Request.Kind) (t : Observed σ) : Nat :=
  t.calls.countP fun call => decide (call.1.kind = kind)

/-- The number of calls of a kind that have succeeded. -/
def answered (kind : Request.Kind) (t : Observed σ) : Nat :=
  t.calls.countP fun call => decide (call.1.kind = kind) && call.2.isOk

variable {t t' : Observed σ} {q : Request} {result : Except Stop q.Answer}

/-- One more call is one more of its kind. -/
theorem made_append (h : t'.calls = t.calls ++ [⟨q, result⟩]) (kind : Request.Kind) :
    t'.made kind = t.made kind + if q.kind = kind then 1 else 0 := by
  rw [made, h, List.countP_append, List.countP_singleton]
  simp [made]

/-- One more call that has succeeded is one more of its kind. -/
theorem answered_append (h : t'.calls = t.calls ++ [⟨q, result⟩]) (kind : Request.Kind) :
    t'.answered kind = t.answered kind + if q.kind = kind ∧ result.isOk = true then 1 else 0 := by
  rw [answered, h, List.countP_append, List.countP_singleton]
  simp [answered]

end Observed

namespace Cache

variable {σ : Type} {n : Nat} {below : Store σ}

/-! ### Changed slots -/

namespace Shelf

/-- One for a slot with a changed block. -/
def weight (slot : Option Kept) : Nat := if slot.any Kept.dirty = true then 1 else 0

/-- The number of slots with a changed block. -/
def countDirty (K : Shelf n) : Nat :=
  (Finset.univ.filter fun i => (K i).any Kept.dirty = true).card

/-- The changed slots are counted one by one. -/
theorem countDirty_eq_sum (K : Shelf n) : K.countDirty = ∑ i, weight (K i) :=
  Finset.card_filter _ _

/-- The count after a change of one slot. -/
theorem countDirty_update (K : Shelf n) (i : Fin n) (slot : Option Kept) :
    countDirty (Function.update K i slot) + weight (K i) = K.countDirty + weight slot := by
  have hothers : ∑ j ∈ Finset.univ.erase i, weight (Function.update K i slot j) =
      ∑ j ∈ Finset.univ.erase i, weight (K j) := by
    apply Finset.sum_congr rfl
    intro j hj
    rw [Function.update_of_ne (Finset.ne_of_mem_erase hj)]
  -- The slot is taken out of both sums, and what is left of them is the same.
  have hnew := Finset.add_sum_erase Finset.univ (fun j => weight (Function.update K i slot j))
    (Finset.mem_univ i)
  have hold := Finset.add_sum_erase Finset.univ (fun j => weight (K j)) (Finset.mem_univ i)
  simp only [Function.update_self] at hnew
  rw [countDirty_eq_sum, countDirty_eq_sum]
  omega

/-- A slot is counted once at most. -/
theorem weight_le_countDirty (K : Shelf n) (i : Fin n) : weight (K i) ≤ K.countDirty := by
  rw [countDirty_eq_sum]
  exact Finset.single_le_sum (fun j _ => Nat.zero_le (weight (K j))) (Finset.mem_univ i)

/-- Lines that are dropped leave no more changed slots. -/
theorem countDirty_dropFrom (K : Shelf n) (ino start : UInt32) :
    (K.dropFrom ino start).countDirty ≤ K.countDirty := by
  apply Finset.card_le_card
  intro i hi
  simp only [Finset.mem_filter, Finset.mem_univ, true_and, Option.any_eq_true] at hi ⊢
  obtain ⟨x, hx, hdirty⟩ := hi
  exact ⟨x, (dropFrom_eq_some.mp hx).1, hdirty⟩

end Shelf

/-- The number of slots with a changed block. -/
abbrev Ring.countDirty (r : Ring n) : Nat := r.shelf.countDirty

/-- One for a changed line. -/
abbrev Line.weight (line : Line) : Nat := Shelf.weight (some line.kept)

/-- A line that is not changed does not count. -/
theorem weight_of_clean {line : Line} (h : line.dirty = false) : line.weight = 0 := by
  simp [Shelf.weight, Line.kept, h]

/-- A line counts for one at most. -/
theorem weight_le_one (line : Line) : line.weight ≤ 1 := by
  unfold Line.weight Shelf.weight
  split <;> simp

namespace Ring

variable {r : Ring n} {i : Fin n} {line : Line}

/-- A line that is put into a slot adds no more than itself. -/
theorem countDirty_put (r : Ring n) (i : Fin n) (line : Line) :
    (r.put i (some line)).countDirty ≤ r.countDirty + line.weight := by
  have h := r.shelf.countDirty_update i (some line.kept)
  rw [countDirty, shelf_put]
  exact Nat.le.intro h

/-- A changed line is replaced. -/
theorem countDirty_put_of_dirty (hslot : Row.at_ r.slots i = some line)
    (hdirty : line.dirty = true) (new : Line) :
    (r.put i (some new)).countDirty + 1 = r.countDirty + new.weight := by
  have hweight : Shelf.weight (r.shelf i) = 1 := by
    simp [Shelf.weight, shelf_eq hslot, Line.kept, hdirty]
  have h := r.shelf.countDirty_update i (some new.kept)
  rw [hweight] at h
  rw [countDirty, shelf_put]
  exact h

/-- A changed line is counted. -/
theorem countDirty_pos (hslot : Row.at_ r.slots i = some line) (hdirty : line.dirty = true) :
    0 < r.countDirty := by
  have h := r.shelf.weight_le_countDirty i
  simp only [Shelf.weight, shelf_eq hslot] at h
  simpa [Line.kept, hdirty, Nat.lt_iff_add_one_le] using h

end Ring

/-! ### The account -/

/-- The account of a cache after `R` reads and `W` writes, and what the
store below has seen. -/
structure Traffic (R W : Nat) (t : Cache n × Observed σ) : Prop where
  reads : t.1.tally.readHits + t.1.tally.readMisses = R
  writes : t.1.tally.writeHits + t.1.tally.writeMisses = W
  /-- Every miss is one read below. -/
  missed : t.2.made .read = t.1.tally.readMisses
  /-- A cache that writes through changes no slot. -/
  clean : t.1.policy = .writeThrough → t.1.ring.countDirty = 0
  /-- It makes one write below for every write. -/
  through : t.1.policy = .writeThrough → t.2.made .write = W
  /-- The potential: one for every write, at most. -/
  potential : t.2.answered .write + t.1.ring.countDirty ≤ W

namespace Traffic

variable {R W : Nat} {c : Cache n} {s s' : Observed σ} {i : Fin n} {line : Line}

/-- A new cache has seen no call and has no changed slot. -/
theorem start (policy : Policy) (hn : 0 < n) (s : σ) :
    Traffic 0 0 (empty policy n hn, Observed.start s) := by
  have hclean : (empty policy n hn).ring.countDirty = 0 := by
    simp [Ring.countDirty, Shelf.countDirty, empty, Ring.shelf_empty]
  refine ⟨rfl, rfl, rfl, fun _ => hclean, fun _ => rfl, ?_⟩
  rw [hclean]
  rfl

/-- A report is not counted. -/
theorem enter [Journal σ] (h : Traffic R W (c, s)) (event : Event) :
    Traffic R W (c, Journal.enter event s) :=
  ⟨h.reads, h.writes, h.missed, h.clean, h.through, h.potential⟩

/-- Moving the hand changes no slot but for its mark of use. -/
theorem victim (h : Traffic R W (c, s)) : Traffic R W (onRing Ring.victim c, s) := by
  have hsame : (onRing Ring.victim c).ring.countDirty = c.ring.countDirty :=
    congrArg Shelf.countDirty c.ring.shelf_victim
  refine ⟨h.reads, h.writes, h.missed, fun hthrough => hsame.trans (h.clean hthrough), h.through, ?_⟩
  rw [hsame]
  exact h.potential

/-- A call below that is no read and no write. -/
theorem call (h : Traffic R W (c, s)) {q : Request} {result : Except Stop q.Answer}
    (hcalls : s'.calls = s.calls ++ [⟨q, result⟩]) (hread : q.kind ≠ .read)
    (hwrite : q.kind ≠ .write) : Traffic R W (c, s') := by
  -- Neither kind that is counted has been asked.
  have hreads := Observed.made_append hcalls .read
  have hwrites := Observed.made_append hcalls .write
  have hanswered := Observed.answered_append hcalls .write
  simp only [hread, hwrite, if_false, false_and, Nat.add_zero] at hreads hwrites hanswered
  refine ⟨h.reads, h.writes, hreads.trans h.missed, h.clean,
    fun hthrough => hwrites.trans (h.through hthrough), ?_⟩
  rw [hanswered]
  exact h.potential

/-- A read that misses asks the store below. -/
theorem miss (h : Traffic R W (c, s)) {a : Address} {result : Except Stop Block}
    (hcalls : s'.calls = s.calls ++ [⟨.read a, result⟩]) :
    Traffic (R + 1) W (onTally (Tally.countRead false) c, s') := by
  have hmissed : s'.made .read = s.made .read + 1 := Observed.made_append hcalls .read
  have hwrites : s'.made .write = s.made .write := Observed.made_append hcalls .write
  have hanswered : s'.answered .write = s.answered .write := Observed.answered_append hcalls .write
  -- The miss and the read below are counted together. No slot changes yet.
  refine ⟨congrArg Nat.succ h.reads, h.writes, ?_, h.clean,
    fun hthrough => hwrites.trans (h.through hthrough), ?_⟩
  · rw [hmissed]
    exact congrArg Nat.succ h.missed
  · rw [hanswered]
    exact h.potential

/-- A write is counted. What the store below has seen until then leaves
room for one changed slot. -/
theorem counted (h : Traffic R W (c, s)) (hback : c.policy = .writeBack) (hit : Bool) :
    Traffic R (W + 1) (onTally (Tally.countWrite hit) c, s) := by
  have hpolicy : c.policy ≠ .writeThrough := by simp [hback]
  -- Only the count of the writes goes up, and with it the bound of the potential.
  refine ⟨?_, ?_, ?_, fun hthrough => (hpolicy hthrough).elim,
    fun hthrough => (hpolicy hthrough).elim, Nat.le_succ_of_le h.potential⟩
  · cases hit <;> exact h.reads
  · cases hit with
    | false => exact congrArg Nat.succ h.writes
    | true => exact (Nat.add_right_comm ..).trans (congrArg Nat.succ h.writes)
  · cases hit <;> exact h.missed

/-- A write is counted and sent below. -/
theorem sent (h : Traffic R W (c, s)) (hthrough : c.policy = .writeThrough) (hit : Bool)
    {a : Address} {data : Block} {result : Except Stop Unit}
    (hcalls : s'.calls = s.calls ++ [⟨.write a data, result⟩]) :
    Traffic R (W + 1) (onTally (Tally.countWrite hit) c, s') := by
  have hreads : s'.made .read = s.made .read := Observed.made_append hcalls .read
  have hwrites : s'.made .write = s.made .write + 1 := Observed.made_append hcalls .write
  -- The write below has succeeded or not, so it adds one at most.
  have hanswered : s'.answered .write ≤ s.answered .write + 1 := by
    rw [Observed.answered_append hcalls .write]
    split <;> omega
  refine ⟨?_, ?_, ?_, h.clean, fun _ => ?_, ?_⟩
  · cases hit <;> exact h.reads
  · cases hit with
    | false => exact congrArg Nat.succ h.writes
    | true => exact (Nat.add_right_comm ..).trans (congrArg Nat.succ h.writes)
  · cases hit <;> exact hreads.trans h.missed
  · rw [hwrites]
    exact congrArg Nat.succ (h.through hthrough)
  · -- What the write may have added to the potential is the write that was counted.
    have hbefore := h.potential
    show s'.answered .write + c.ring.countDirty ≤ W + 1
    dsimp only at hbefore
    omega

/-- A read that finds its line marks it, which does not count. -/
theorem found (h : Traffic R W (c, s)) (hslot : Row.at_ c.ring.slots i = some line) :
    Traffic (R + 1) W (onRing (Ring.put i (some { line with referenced := true }))
      (onTally (Tally.countRead true) c), s) := by
  -- What the slot has of its line, apart from the mark of use, is the same.
  have hshelf : (c.ring.put i (some { line with referenced := true })).shelf = c.ring.shelf := by
    rw [Ring.shelf_put, Function.update_eq_self_iff, Ring.shelf_eq hslot]
    rfl
  have hsame : (c.ring.put i (some { line with referenced := true })).countDirty =
      c.ring.countDirty := congrArg Shelf.countDirty hshelf
  refine ⟨?_, h.writes, h.missed, fun hthrough => hsame.trans (h.clean hthrough), h.through, ?_⟩
  · exact (Nat.add_right_comm ..).trans (congrArg Nat.succ h.reads)
  · exact hsame.symm ▸ h.potential

/-- A line is put where there is room for it in the potential. -/
theorem put (h : Traffic R W (c, s))
    (hroom : s.answered .write + c.ring.countDirty + line.weight ≤ W)
    (hclean : c.policy = .writeThrough → line.dirty = false) :
    Traffic R W (onRing (Ring.put i (some line)) c, s) := by
  have hcount : (onRing (Ring.put i (some line)) c).ring.countDirty ≤
      c.ring.countDirty + line.weight := c.ring.countDirty_put i line
  refine ⟨h.reads, h.writes, h.missed, fun hthrough => ?_, h.through, ?_⟩
  · have hno : c.ring.countDirty = 0 := h.clean hthrough
    -- Without changed slots before, and with a line that is not changed, there are none.
    rw [hno, weight_of_clean (hclean hthrough)] at hcount
    exact Nat.le_zero.mp hcount
  · dsimp only
    omega

/-- Lines are dropped. -/
theorem dropFrom (h : Traffic R W (c, s)) (ino start : UInt32) :
    Traffic R W (onRing (Ring.dropFrom ino start) c, s) := by
  have hcount : (onRing (Ring.dropFrom ino start) c).ring.countDirty ≤ c.ring.countDirty := by
    show (c.ring.dropFrom ino start).shelf.countDirty ≤ _
    rw [Ring.shelf_dropFrom]
    exact c.ring.shelf.countDirty_dropFrom ino start
  refine ⟨h.reads, h.writes, h.missed, fun hthrough => ?_, h.through, ?_⟩
  · have hno : c.ring.countDirty = 0 := h.clean hthrough
    exact Nat.le_zero.mp (hno ▸ hcount)
  · exact (Nat.add_le_add_left hcount _).trans h.potential

/-- A changed line is written below and replaced. -/
theorem flush (h : Traffic R W (c, s)) {new : Line} (hslot : Row.at_ c.ring.slots i = some line)
    (hdirty : line.dirty = true)
    (hcalls : s'.calls = s.calls ++ [⟨.write line.key line.data, .ok ()⟩])
    (hroom : s.answered .write + c.ring.countDirty + new.weight ≤ W) :
    Traffic R W (onRing (Ring.put i (some new)) c, s') := by
  have hreads : s'.made .read = s.made .read := Observed.made_append hcalls .read
  have hanswered : s'.answered .write = s.answered .write + 1 :=
    Observed.answered_append hcalls .write
  have hcount : (onRing (Ring.put i (some new)) c).ring.countDirty + 1 =
      c.ring.countDirty + new.weight := Ring.countDirty_put_of_dirty hslot hdirty new
  -- A cache that writes through has no changed line.
  have hback : c.policy ≠ .writeThrough := fun hthrough =>
    Nat.ne_of_gt (Ring.countDirty_pos hslot hdirty) (h.clean hthrough)
  refine ⟨h.reads, h.writes, hreads.trans h.missed, fun hthrough => (hback hthrough).elim,
    fun hthrough => (hback hthrough).elim, ?_⟩
  -- One write more has succeeded below, and one changed slot less is left for the new line.
  dsimp only
  omega

/-- A changed line cannot be written below. -/
theorem stuck (h : Traffic R W (c, s)) {stop : Stop}
    (hslot : Row.at_ c.ring.slots i = some line) (hdirty : line.dirty = true)
    (hcalls : s'.calls = s.calls ++ [⟨.write line.key line.data, .error stop⟩]) :
    Traffic R W (c, s') := by
  have hreads : s'.made .read = s.made .read := Observed.made_append hcalls .read
  have hanswered : s'.answered .write = s.answered .write := Observed.answered_append hcalls .write
  have hback : c.policy ≠ .writeThrough := fun hthrough =>
    Nat.ne_of_gt (Ring.countDirty_pos hslot hdirty) (h.clean hthrough)
  -- The failed write is not counted, and the line stays as it is.
  refine ⟨h.reads, h.writes, hreads.trans h.missed, fun hthrough => (hback hthrough).elim,
    fun hthrough => (hback hthrough).elim, ?_⟩
  rw [hanswered]
  exact h.potential

end Traffic

/-! ### Requests -/

variable {R W : Nat} {c : Cache n} {s : Observed σ} {a : Address}

/-- A write is counted, and what it leaves of the potential is enough for
its line. -/
theorem WritesBelow.traffic {data : Block} {result : Except Stop Unit} {s' : Observed σ}
    (hbelow : WritesBelow (Observed.store below) a data s c.policy result s')
    (h : Traffic R W (c, s)) (hit : Bool) :
    Traffic R (W + 1) (onTally (Tally.countWrite hit) c, s') ∧
      (result = .ok () → s'.answered .write + c.ring.countDirty +
        Line.weight ⟨a, data, true, c.policy = .writeBack⟩ ≤ W + 1) := by
  -- The policy says which of the ways is gone.
  generalize hpolicy : c.policy = policy at hbelow
  cases hbelow with
  | kept =>
    -- A write that stays in the cache may add a changed slot, and nothing below.
    refine ⟨h.counted hpolicy hit, fun _ => ?_⟩
    exact Nat.add_le_add h.potential (weight_le_one _)
  | passed hrun =>
    -- A write that was passed on leaves a line that is not changed.
    have hsent := h.sent hpolicy hit (Observed.run_of_ok hrun).2.1
    exact ⟨hsent, fun _ => hsent.potential⟩
  | refused hrun => exact ⟨h.sent hpolicy hit (Observed.run_of_error hrun).2.1, nofun⟩

/-- A flush moves the potential from the slots to the store below. -/
theorem Flushes.traffic {ino : UInt32} {slots : List (Fin n)} {result : Except Stop Unit}
    {t t' : Cache n × Observed σ} (hflush : Flushes (Observed.store below) ino slots t result t')
    (h : Traffic R W t) : Traffic R W t' := by
  induction hflush with
  | done => exact h
  | skipped _ _ ih => exact ih h
  | written hline hrun _ ih =>
    -- The line that is put back is not changed any more, so it needs no room.
    apply ih
    exact h.flush hline.1 hline.2.1 (Observed.run_of_ok hrun).2.1 h.potential
  | stuck hline hrun => exact h.stuck hline.1 hline.2.1 (Observed.run_of_error hrun).2.1

/-- A sync is a flush and a call that is not counted, or that call
alone. -/
theorem Syncs.traffic {ino : UInt32} {result : Except Stop Unit} {t : Cache n × Observed σ}
    (hsyncs : Syncs (Observed.store below) ino c s result t) (h : Traffic R W (c, s)) :
    Traffic R W t := by
  cases hsyncs with
  | stuck _ hflush => exact hflush.traffic h
  | flushed _ hflush => exact (hflush.traffic h).call (Observed.calls_next ..) nofun nofun
  | passed => exact h.call (Observed.calls_next ..) nofun nofun

section Journal

variable [Journal σ]

/-- A line is taken in where there is room for it in the potential. -/
theorem TakesIn.traffic {line : Line} {result : Except Stop Unit} {t : Cache n × Observed σ}
    (htake : TakesIn (Observed.store below) line c s result t) (h : Traffic R W (c, s))
    (hroom : s.answered .write + c.ring.countDirty + line.weight ≤ W)
    (hclean : c.policy = .writeThrough → line.dirty = false) : Traffic R W t := by
  have hsame : (onRing Ring.victim c).ring.countDirty = c.ring.countDirty :=
    congrArg Shelf.countDirty c.ring.shelf_victim
  rw [← hsame] at hroom
  -- The room for the line is known before its slot is. First the slot is made ready.
  cases htake with
  | placed hvacates =>
    cases hvacates with
    | free => exact h.victim.put hroom hclean
    | clean => exact (h.victim.enter _).put hroom hclean
    | flushed hslot hdirty hrun =>
      -- The victim gives up its place in the potential to the new line.
      have hcalls := (Observed.run_of_ok hrun).2.1
      exact ((h.victim.enter _).flush hslot hdirty hcalls hroom).enter _
  | stuck hvacates =>
    cases hvacates with
    | stuck hslot hdirty hrun =>
      exact (h.victim.enter _).stuck hslot hdirty (Observed.run_of_error hrun).2.1

/-- A read is counted once, as a hit or as a miss. -/
theorem Reads.traffic {result : Except Stop Block} {t : Cache n × Observed σ}
    (hreads : Reads (Observed.store below) a c s result t) (h : Traffic R W (c, s)) :
    Traffic (R + 1) W t := by
  cases hreads with
  | hit hfind => exact (h.found (Ring.at_of_find? hfind).1).enter _
  | unread _ hrun => exact (h.enter _).miss (Observed.run_of_error hrun).2.1
  | taken _ hrun htake =>
    -- What is read is taken in as a line that is not changed, so the room is there.
    have hmiss := (h.enter _).miss (Observed.run_of_ok hrun).2.1
    exact htake.traffic hmiss hmiss.potential fun _ => rfl
  | stuck _ hrun htake =>
    have hmiss := (h.enter _).miss (Observed.run_of_ok hrun).2.1
    exact htake.traffic hmiss hmiss.potential fun _ => rfl

/-- A write is counted once, whatever becomes of it. -/
theorem Writes.traffic {data : Block} {result : Except Stop Unit} {t : Cache n × Observed σ}
    (hwrites : Writes (Observed.store below) a data c s result t) (h : Traffic R W (c, s)) :
    Traffic R (W + 1) t := by
  have hclean : c.policy = .writeThrough → decide (c.policy = .writeBack) = false := by
    intro hthrough
    simp [hthrough]
  cases hwrites with
  | refused hbelow => exact (hbelow.traffic h _).1
  | hit hbelow hfind =>
    -- First the write is counted, which makes room for its line, and then the line is put.
    obtain ⟨hcounted, hroom⟩ := hbelow.traffic h true
    exact hcounted.put (hroom rfl) hclean
  | miss hbelow _ htake =>
    obtain ⟨hcounted, hroom⟩ := hbelow.traffic h false
    exact htake.traffic hcounted (hroom rfl) hclean

/-- A resize is not counted, and lines are dropped. -/
theorem Resizes.traffic {ino blocks : UInt32} {result : Except Stop UInt32}
    {t : Cache n × Observed σ}
    (hresizes : Resizes (Observed.store below) ino blocks c s result t) (h : Traffic R W (c, s)) :
    Traffic R W t := by
  cases hresizes with
  | refused hrun => exact h.call (Observed.run_of_error hrun).2.1 nofun nofun
  | resized hrun => exact ((h.call (Observed.run_of_ok hrun).2.1 nofun nofun).dropFrom _ _).enter _

/-- One request. -/
theorem store_traffic (below : Store σ) (q : Request) {t : Cache n × Observed σ} (h : Traffic R W t) :
    Traffic (R + if q.kind = .read then 1 else 0) (W + if q.kind = .write then 1 else 0)
      (Op.next (store (Observed.store below) q) t) := by
  obtain ⟨c, s⟩ := t
  cases q with
  | capacity =>
    show Traffic R W (Op.next (Op.lower (Observed.store below .capacity)) (c, s))
    rw [Op.next_lower]
    exact h.call (Observed.calls_next ..) nofun nofun
  | size ino =>
    show Traffic R W (Op.next (Op.lower (Observed.store below (.size ino))) (c, s))
    rw [Op.next_lower]
    exact h.call (Observed.calls_next ..) nofun nofun
  | resize ino blocks => exact (resize_lands ino blocks : Resizes _ ino blocks c s _ _).traffic h
  | read a => exact (read_lands a : Reads _ a c s _ _).traffic h
  | write a data => exact (write_lands a data : Writes _ a data c s _ _).traffic h
  | sync ino => exact (sync_lands ino : Syncs _ ino c s _ _).traffic h

/-- Any requests. -/
theorem Traffic.after (below : Store σ) (requests : List Request) {t : Cache n × Observed σ}
    (h : Traffic R W t) :
    Traffic (R + requests.countP fun q => decide (q.kind = .read))
      (W + requests.countP fun q => decide (q.kind = .write))
      (Op.after (store (Observed.store below)) requests t) := by
  -- The counts go up with the requests from the front of the list.
  induction requests generalizing R W t with
  | nil => exact h
  | cons q rest ih =>
    have hrest := ih (store_traffic below q h)
    rw [Nat.add_assoc, Nat.add_assoc] at hrest
    simp only [List.countP_cons, decide_eq_true_eq, Nat.add_comm _ (ite _ _ _)]
    exact hrest

/-- The number of requests of a kind. -/
def countKind (kind : Request.Kind) (requests : List Request) : Nat :=
  requests.countP fun q => decide (q.kind = kind)

/-- Fewer than `2 ^ 64` calls can be counted. -/
theorem addCounts_eq_ok {hits misses : Nat} {kind : Request.Kind} {requests : List Request}
    (h : hits + misses = countKind kind requests) (hlength : requests.length < 2 ^ 64) :
    Checked.addCounts hits misses = .ok (countKind kind requests) := by
  have hle : countKind kind requests ≤ requests.length := List.countP_le_length
  rw [Checked.addCounts, h]
  exact if_pos (Nat.lt_of_le_of_lt hle hlength)

/-- Every write below of a cache that writes back is, at its moment, that
of a block in a changed slot. -/
theorem store_shows (below : Store σ) (q : Request) {t : Cache n × Observed σ}
    (hpolicy : t.1.policy = .writeBack) :
    ∃ new, (Op.next (store (Observed.store below) q) t).2.calls = t.2.calls ++ new ∧
      ∀ k a data result, new[k]? = some ⟨.write a data, result⟩ →
        ∃ c, Paused.moment (store (Paused.store below) q) t.1 k t.2.inner =
          some (c, .write a data) ∧ c.ring.HasChanged a data := by
  obtain ⟨c, s⟩ := t
  -- Each call of the observed run is one at which the paused run can be stopped.
  obtain ⟨new, hnew, -⟩ := store_traces below q c 0 s
  refine ⟨new, hnew, ?_⟩
  intro k a data result hcall
  have hrequest := (store_traces below q).moment_request c k hnew
  rw [hcall] at hrequest
  obtain ⟨⟨c', q'⟩, hmoment, hwrite⟩ := Option.map_eq_some_iff.mp hrequest
  -- The run that is stopped there shows its slots.
  cases hwrite
  exact ⟨c', hmoment, slot_of_moment hpolicy hmoment⟩

/-- The account of a new cache after any requests, whatever its calls
below have ended with. Its counters are the numbers of reads and of writes,
and the store below has seen a read for every miss. Under `writeThrough` it
has seen all writes. Under `writeBack` the writes that have succeeded below
and the changed slots are no more than the writes, and whatever the next
request is, at the moment of every write below its block is in a changed
slot. -/
theorem traffic_after (policy : Policy) (hn : 0 < n) (below : Store σ) (s : σ)
    (requests : List Request) (hlength : requests.length < 2 ^ 64) :
    let t := Op.after (store (Observed.store below)) requests
      (empty policy n hn, Observed.start s)
    t.1.tally.reads = .ok (countKind .read requests) ∧
    t.1.tally.writes = .ok (countKind .write requests) ∧
    t.2.made .read = t.1.tally.readMisses ∧
    (policy = .writeThrough → t.2.made .write = countKind .write requests) ∧
    (policy = .writeBack →
      t.2.answered .write + t.1.ring.countDirty ≤ countKind .write requests ∧
      ∀ q, ∃ new, (Op.next (store (Observed.store below) q) t).2.calls = t.2.calls ++ new ∧
        ∀ k a data result, new[k]? = some ⟨.write a data, result⟩ →
          ∃ c, Paused.moment (store (Paused.store below) q) t.1 k t.2.inner =
            some (c, .write a data) ∧ c.ring.HasChanged a data) := by
  intro t
  have h : Traffic (countKind .read requests) (countKind .write requests) t := by
    have hafter := (Traffic.start policy hn s).after below requests
    rwa [Nat.zero_add, Nat.zero_add] at hafter
  -- No call changes the policy, so the halves for the two policies speak of the one that was
  -- given.
  have hpolicy : t.1.policy = policy :=
    Op.after_invariant (HasPolicy policy) (fun q => store_policy q) requests rfl
  refine ⟨addCounts_eq_ok h.reads hlength, addCounts_eq_ok h.writes hlength, h.missed, ?_, ?_⟩
  · intro hthrough
    exact h.through (hpolicy.trans hthrough)
  · intro hback
    exact ⟨h.potential, fun q => store_shows below q (hpolicy.trans hback)⟩

end Journal

/-- One slot over a store that fails its second call. The first block was
written below to make room for the second, and then cannot be read: of two
writes, one has succeeded below and one is in a changed slot. -/
theorem traffic_after_one_slot :
    let below := Unsteady.store (fun call => if call = 1 then some Fault.io else none) Memory.store
    let requests := [.write ⟨0, 0⟩ (Block.fill 1), .write ⟨0, 1⟩ (Block.fill 2), .read ⟨0, 0⟩]
    let t := Op.after (store (Observed.store below)) requests
      (empty .writeBack 1 Nat.one_pos, Observed.start (0, Memory.empty 1))
    requests.length < 2 ^ 64 ∧ t.2.answered .write = 1 ∧
      t.1.tally.reads = .ok 1 ∧ t.1.tally.writes = .ok 2 ∧ t.2.made .read = t.1.tally.readMisses ∧
      t.2.answered .write + t.1.ring.countDirty ≤ 2 := by
  intro below requests t
  have hlength : requests.length < 2 ^ 64 := by decide
  obtain ⟨hreads, hwrites, hmissed, -, hback⟩ :=
    traffic_after .writeBack Nat.one_pos below (0, Memory.empty 1) requests hlength
  exact ⟨hlength, rfl, hreads, hwrites, hmissed, (hback rfl).1⟩

end Cache

end BlockLayers
