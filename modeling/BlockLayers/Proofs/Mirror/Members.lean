import BlockLayers.Mirror
import BlockLayers.Proofs.Ends
import Mathlib.Logic.Function.Basic

/-!
# `BlockLayers.Proofs.Mirror.Members`: a mirror over states side by side

The members of a mirror share one state. Here every member has a state
of its own: `Members τ` is a state for each member, and `Members.at_ i`
runs an operation on the state of member `i`.

`Mirror.store_ends` says what a call of the mirror makes of each member,
whatever the members are. A member in use is passed over, or it answers,
or it fails and is given up, or it fails to read and stays in use
(`Mirror.Fate`); changes and syncs pass over none. An answer of the
mirror is one that a member in use gave, and a fault of the mirror means
that all members in use failed.

The call of a member may also be aborted, and so is the call of the
mirror then. That is the other alternative of `Mirror.Polls`, on which
the loops over the members are stated. `Mirror.store_unanimous` is the
case of members that all answer alike.
-/

set_option autoImplicit false

namespace BlockLayers

/-! ### States side by side -/

/-- A state for each member. -/
abbrev Members {n : Nat} (τ : Fin n → Type) := (i : Fin n) → τ i

namespace Members

variable {n : Nat} {τ : Fin n → Type} {α : Type}

/-- States side by side have no room for events. -/
instance : Journal (Members τ) := Journal.silent (Members τ)

/-- Run an operation on the state of one member. -/
def at_ (i : Fin n) (x : Op (τ i) α) : Op (Members τ) α := fun s =>
  match x (s i) with
  | .ok value after => .ok value (Function.update s i after)
  | .error stop after => .error stop (Function.update s i after)

/-- The members as stores, each on its own state. -/
def stores (member : (i : Fin n) → Store (τ i)) : Fin n → Store (Members τ) :=
  fun i q => at_ i (member i q)

end Members

/-- The requests that a mirror sends to every member in use. -/
def Request.spreads : Request → Bool
  | .resize _ _ => true
  | .write _ _ => true
  | .sync _ => true
  | _ => false

/-- The requests whose failure a mirror forgives. -/
def Request.reads : Request → Bool
  | .read _ => true
  | _ => false

/-- No request is both. -/
theorem Request.reads_eq_false {q : Request} (h : q.spreads = true) : q.reads = false := by
  cases q with
  | read => cases h
  | _ => rfl

namespace Mirror

variable {n : Nat} {τ : Fin n → Type} {α : Type}

/-- A member is in use as long as it was not given up. -/
theorem mem_inUse {m : Mirror n} {i : Fin n} : i ∈ m.inUse ↔ Row.at_ m.broken i = false := by
  simp [inUse]

/-- A member that is not in use was given up. -/
theorem broken_of_not_mem_inUse {m : Mirror n} {i : Fin n} (hi : i ∉ m.inUse) :
    Row.at_ m.broken i = true := by
  simpa [mem_inUse] using hi

/-- All members of a new mirror are in use. -/
theorem mem_inUse_fresh (i : Fin n) : i ∈ (fresh n).inUse :=
  mem_inUse.mpr (Row.at_fill false i)

/-- No member is asked twice. -/
theorem nodup_inUse (m : Mirror n) : m.inUse.Nodup := (List.nodup_finRange n).filter _

/-! ### What becomes of a member -/

/-- What a call can make of one member, which has a state and a flag.
Where `all` holds no member is passed over, and where `lenient` holds a
member that fails is not given up. -/
inductive Fate {τ : Type} (x : Op τ α) (all lenient : Prop) (before after : τ × Bool) : Prop
  | skipped (hall : ¬ all) (h : after = before)
  | answered (value : α) (h : x before.1 = .ok value after.1) (hflag : after.2 = before.2)
  | dropped (fault : Fault) (h : x before.1 = .error (.fault fault) after.1)
      (hflag : after.2 = true)
  | unread (hlenient : lenient) (fault : Fault) (h : x before.1 = .error (.fault fault) after.1)
      (hflag : after.2 = before.2)

/-- The state and the flag of one member. -/
def view (s : Mirror n × Members τ) (i : Fin n) : τ i × Bool := (s.2 i, Row.at_ s.1.broken i)

/-- A round over some of the members: each of them meets its fate, and
all others are left alone. -/
def Round (fate : (i : Fin n) → τ i × Bool → τ i × Bool → Prop) (members : List (Fin n))
    (before after : Mirror n × Members τ) : Prop :=
  ∀ i, (i ∈ members → fate i (view before i) (view after i)) ∧
    (i ∉ members → view after i = view before i)

/-- Some listed member answers with the value. -/
def Source (x : (i : Fin n) → Op (τ i) α) (s : Members τ) (members : List (Fin n)) (value : α) :
    Prop :=
  ∃ i ∈ members, ∃ after, x i (s i) = .ok value after

/-- Every listed member fails. -/
def AllFail (x : (i : Fin n) → Op (τ i) α) (s : Members τ) (members : List (Fin n)) : Prop :=
  ∀ i ∈ members, ∃ fault after, x i (s i) = .error (.fault fault) after

/-- Some listed member aborts. -/
def SomeAborts (x : (i : Fin n) → Op (τ i) α) (s : Members τ) (members : List (Fin n)) : Prop :=
  ∃ i ∈ members, ∃ abort after, x i (s i) = .error (.abort abort) after

namespace Round

variable {fate : (i : Fin n) → τ i × Bool → τ i × Bool → Prop} {i : Fin n}
  {rest : List (Fin n)} {before mid after : Mirror n × Members τ}

/-- A round over no member. -/
theorem nil : Round fate [] before before :=
  fun _ => ⟨fun h => (List.not_mem_nil h).elim, fun _ => rfl⟩

/-- A first member meets its fate, and the round goes on. -/
theorem cons (hfirst : fate i (view before i) (view mid i))
    (hothers : ∀ j, j ≠ i → view mid j = view before j) (hi : i ∉ rest)
    (h : Round fate rest mid after) : Round fate (i :: rest) before after := by
  intro j
  by_cases hj : j = i
  · subst hj
    refine ⟨fun _ => ?_, fun hnot => (hnot List.mem_cons_self).elim⟩
    -- The rest does not list the member again, so what the first turn made of it stays.
    rw [(h j).2 hi]
    exact hfirst
  · rw [List.mem_cons, or_iff_right hj, ← hothers j hj]
    exact h j

/-- A first member meets its fate, and the round ends early. -/
theorem stop (hskip : ∀ j v, fate j v v) (hfirst : fate i (view before i) (view mid i))
    (hothers : ∀ j, j ≠ i → view mid j = view before j) :
    Round fate (i :: rest) before mid := by
  intro j
  by_cases hj : j = i
  · subst hj
    exact ⟨fun _ => hfirst, fun hnot => (hnot List.mem_cons_self).elim⟩
  · rw [hothers j hj]
    exact ⟨fun _ => hskip j _, fun _ => rfl⟩

end Round

section Asking

variable (x : (i : Fin n) → Op (τ i) α) (m : Mirror n) (s : Members τ)

/-- Asking one member touches its own state only. -/
theorem ask_apply (i : Fin n) :
    Op.lower (Op.attempt (Members.at_ i (x i))) (m, s) = match x i (s i) with
      | .ok value after => .ok (.ok value) (m, Function.update s i after)
      | .error (.fault fault) after => .ok (.error fault) (m, Function.update s i after)
      | .error (.abort abort) after => .error (.abort abort) (m, Function.update s i after) := by
  cases hx : x i (s i) with
  | ok value after => simp only [Op.lower, Op.attempt, Members.at_, hx]
  | error stop after => cases stop <;> simp only [Op.lower, Op.attempt, Members.at_, hx]

/-- Giving a member up touches its flag only. -/
theorem drop_apply (i : Fin n) (fault : Fault) :
    drop i fault (m, s) = .ok () (m.giveUp i, s) := by
  unfold drop
  simp only [Op.bind_apply, Op.own, Op.modifyOwn]
  split <;> rfl

variable {x m s} {i : Fin n} {t : τ i}

/-- The asked member has its new state and its old flag. -/
theorem view_update_self : view (m, Function.update s i t) i = (t, Row.at_ m.broken i) := by
  simp [view]

/-- Other members keep state and flag. -/
theorem view_update_of_ne {j : Fin n} (h : j ≠ i) :
    view (m, Function.update s i t) j = view (m, s) j := by
  simp [view, Function.update_of_ne h]

/-- A member that was given up has its new state and a set flag. -/
theorem view_giveUp_self : view (m.giveUp i, Function.update s i t) i = (t, true) := by
  simp [view, giveUp, Row.at_put_self]

/-- Other members keep state and flag when a member is given up. -/
theorem view_giveUp_of_ne {j : Fin n} (h : j ≠ i) :
    view (m.giveUp i, Function.update s i t) j = view (m, s) j := by
  simp [view, giveUp, Row.at_put_of_ne _ _ h, Function.update_of_ne h]

end Asking

/-! ### Rounds over a list of members -/

/-- What comes of asking listed members, where `found` is the answer so
far: an abort that one of them caused, an answer that was there or that
one of them gave, or a fault where there was none and all of them
failed. -/
def Polls (x : (i : Fin n) → Op (τ i) α) (all lenient : Prop) (found : Option α)
    (poll : Op (Mirror n × Members τ) α) (members : List (Fin n)) (s : Mirror n × Members τ) :
    Prop :=
  SomeAborts x s.2 members ∧ (∃ abort after, poll s = .error (.abort abort) after) ∨
    Op.Ends poll s
      (fun value after => Round (fun i => Fate (x i) all lenient) members s after ∧
        (found = some value ∨ Source x s.2 members value))
      fun _ after => Round (fun i => Fate (x i) all lenient) members s after ∧
        found = none ∧ AllFail x s.2 members

section Polling

variable {x : (i : Fin n) → Op (τ i) α} {all lenient : Prop} {found found' : Option α}
  {poll poll' : Op (Mirror n × Members τ) α} {i : Fin n} {rest : List (Fin n)}
  {s s' : Mirror n × Members τ}

/-- The first member does not abort, and the rest are asked from the
state that it leaves. -/
theorem Polls.cons (hrun : poll s = poll' s')
    (hfirst : Fate (x i) all lenient (view s i) (view s' i))
    (hothers : ∀ j, j ≠ i → view s' j = view s j) (hi : i ∉ rest)
    (hfound : ∀ value, found' = some value →
      found = some value ∨ ∃ after, x i (s.2 i) = .ok value after)
    (hnone : found' = none →
      found = none ∧ ∃ fault after, x i (s.2 i) = .error (.fault fault) after)
    (h : Polls x all lenient found' poll' rest s') :
    Polls x all lenient found poll (i :: rest) s := by
  -- The first turn leaves the members that come later as they were.
  have hstate : ∀ j ∈ rest, s'.2 j = s.2 j := fun j hj =>
    congrArg Prod.fst (hothers j fun heq => hi (heq ▸ hj))
  rcases h with ⟨⟨j, hj, abort, after, hx⟩, habort⟩ | h
  · refine .inl ⟨⟨j, List.mem_cons_of_mem _ hj, abort, after, ?_⟩, hrun ▸ habort⟩
    rw [← hstate j hj]
    exact hx
  · refine .inr ?_
    rcases h.exists_run with
      ⟨value, after, hr, hround, hanswer⟩ | ⟨fault, after, hr, hround, hnot, hfail⟩
    · refine .of_ok (hrun.trans hr) ⟨hround.cons hfirst hothers hi, ?_⟩
      -- The answer was there before the rest was asked, or one of the rest gave it.
      rcases hanswer with hold | ⟨j, hj, t, hx⟩
      · rcases hfound value hold with hold | ⟨t, hx⟩
        · exact .inl hold
        · exact .inr ⟨i, List.mem_cons_self, t, hx⟩
      · exact .inr ⟨j, List.mem_cons_of_mem _ hj, t, hstate j hj ▸ hx⟩
    · refine .of_fault (hrun.trans hr)
        ⟨hround.cons hfirst hothers hi, (hnone hnot).1, fun j hj => ?_⟩
      rcases List.mem_cons.mp hj with rfl | hj
      · exact (hnone hnot).2
      · rw [← hstate j hj]
        exact hfail j hj

/-- The first member aborts, and with it the whole. -/
theorem Polls.abort {abort : Abort} {t : τ i} {after : Mirror n × Members τ}
    (hx : x i (s.2 i) = .error (.abort abort) t) (hrun : poll s = .error (.abort abort) after) :
    Polls x all lenient found poll (i :: rest) s :=
  .inl ⟨⟨i, List.mem_cons_self, abort, t, hx⟩, abort, after, hrun⟩

/-- The first member answers, and no other is asked. -/
theorem Polls.first {value : α} {t : τ i} (hall : ¬ all) (hx : x i (s.2 i) = .ok value t)
    (hrun : poll s = .ok value (s.1, Function.update s.2 i t)) :
    Polls x all lenient found poll (i :: rest) s := by
  refine .inr (.of_ok hrun ⟨.stop (fun _ _ => .skipped hall rfl) ?_ fun j hj => ?_,
    .inr ⟨i, List.mem_cons_self, t, hx⟩⟩)
  · rw [view_update_self]
    exact .answered value hx rfl
  · exact view_update_of_ne hj

/-- There was nobody to ask, and there is no answer. -/
theorem Polls.nil {fault : Fault} (hrun : poll s = .error (.fault fault) s) :
    Polls x all lenient none poll [] s :=
  .inr (.of_fault hrun ⟨.nil, rfl, fun _ hi => (List.not_mem_nil hi).elim⟩)

end Polling

variable (x : (i : Fin n) → Op (τ i) α)

/-- Every listed member is asked, and those that fail are given up. -/
theorem askAll_polls {members : List (Fin n)} (hnodup : members.Nodup) (found : Option α)
    (last : Option Fault) (m : Mirror n) (s : Members τ) :
    Polls x True False found (askAll (fun i => Members.at_ i (x i)) found last members) members
      (m, s) := by
  -- By induction on the members that are left, with the answer and the last fault so far
  -- generalized.
  induction members generalizing found last m s with
  | nil =>
    cases found with
    | none => exact .nil rfl
    | some value => exact .inr (.of_ok rfl ⟨.nil, .inl rfl⟩)
  | cons i rest ih =>
    obtain ⟨hi, hrest⟩ := List.nodup_cons.mp hnodup
    cases hx : x i (s i) with
    | ok value t =>
      have hrun : askAll (fun i => Members.at_ i (x i)) found last (i :: rest) (m, s) =
          askAll (fun i => Members.at_ i (x i)) (some value) last rest
            (m, Function.update s i t) := by
        simp only [askAll, Op.bind_apply, ask_apply, hx]
      refine .cons hrun (.answered value ?_ ?_) (fun j hj => view_update_of_ne hj) hi ?_ ?_
        (ih hrest (some value) last m _)
      · rw [view_update_self]
        exact hx
      · rw [view_update_self]
        rfl
      · rintro _ ⟨⟩
        exact .inr ⟨t, hx⟩
      · exact fun hnone => nomatch hnone
    | error stop t =>
      cases stop with
      | abort abort =>
        have hrun : askAll (fun i => Members.at_ i (x i)) found last (i :: rest) (m, s) =
            .error (.abort abort) (m, Function.update s i t) := by
          simp only [askAll, Op.bind_apply, ask_apply, hx]
        exact .abort hx hrun
      | fault fault =>
        have hrun : askAll (fun i => Members.at_ i (x i)) found last (i :: rest) (m, s) =
            askAll (fun i => Members.at_ i (x i)) found (some fault) rest
              (m.giveUp i, Function.update s i t) := by
          simp only [askAll, Op.bind_apply, ask_apply, hx, drop_apply]
        refine .cons hrun (.dropped fault ?_ ?_) (fun j hj => view_giveUp_of_ne hj) hi
          (fun _ hfound => .inl hfound) (fun hnone => ⟨hnone, fault, t, hx⟩)
          (ih hrest found (some fault) _ _)
        · rw [view_giveUp_self]
          exact hx
        · rw [view_giveUp_self]

/-- Listed members are asked up to the first that answers, and those
that fail are given up. -/
theorem askFirst_polls {members : List (Fin n)} (hnodup : members.Nodup) (last : Option Fault)
    (m : Mirror n) (s : Members τ) :
    Polls x False False none (askFirst (fun i => Members.at_ i (x i)) last members) members
      (m, s) := by
  -- The loop goes on after a fault only, so there is never an answer from before.
  induction members generalizing last m s with
  | nil => exact .nil rfl
  | cons i rest ih =>
    obtain ⟨hi, hrest⟩ := List.nodup_cons.mp hnodup
    cases hx : x i (s i) with
    | ok value t =>
      have hrun : askFirst (fun i => Members.at_ i (x i)) last (i :: rest) (m, s) =
          .ok value (m, Function.update s i t) := by
        simp only [askFirst, Op.bind_apply, ask_apply, hx]
        rfl
      exact .first id hx hrun
    | error stop t =>
      cases stop with
      | abort abort =>
        have hrun : askFirst (fun i => Members.at_ i (x i)) last (i :: rest) (m, s) =
            .error (.abort abort) (m, Function.update s i t) := by
          simp only [askFirst, Op.bind_apply, ask_apply, hx]
        exact .abort hx hrun
      | fault fault =>
        have hrun : askFirst (fun i => Members.at_ i (x i)) last (i :: rest) (m, s) =
            askFirst (fun i => Members.at_ i (x i)) (some fault) rest
              (m.giveUp i, Function.update s i t) := by
          simp only [askFirst, Op.bind_apply, ask_apply, hx, drop_apply]
        refine .cons hrun (.dropped fault ?_ ?_) (fun j hj => view_giveUp_of_ne hj) hi
          (fun _ hfound => .inl hfound) (fun hnone => ⟨hnone, fault, t, hx⟩)
          (ih hrest (some fault) _ _)
        · rw [view_giveUp_self]
          exact hx
        · rw [view_giveUp_self]

/-- Listed members are read up to the first that answers, and those that
fail stay in use. -/
theorem readFirst_polls (member : (i : Fin n) → Store (τ i)) (a : Address)
    {members : List (Fin n)} (hnodup : members.Nodup) (last : Option Fault) (m : Mirror n)
    (s : Members τ) :
    Polls (fun i => member i (.read a)) False True none
      (readFirst (Members.stores member) a last members) members (m, s) := by
  induction members generalizing last m s with
  | nil => exact .nil rfl
  | cons i rest ih =>
    obtain ⟨hi, hrest⟩ := List.nodup_cons.mp hnodup
    have hask := ask_apply (fun i => member i (.read a)) m s i
    cases hx : member i (.read a) (s i) with
    | ok value t =>
      have hrun : readFirst (Members.stores member) a last (i :: rest) (m, s) =
          .ok value (m, Function.update s i t) := by
        simp only [readFirst, Members.stores, Op.bind_apply, hask, hx]
        rfl
      exact .first id hx hrun
    | error stop t =>
      cases stop with
      | abort abort =>
        have hrun : readFirst (Members.stores member) a last (i :: rest) (m, s) =
            .error (.abort abort) (m, Function.update s i t) := by
          simp only [readFirst, Members.stores, Op.bind_apply, hask, hx]
        exact .abort hx hrun
      | fault fault =>
        have hrun : readFirst (Members.stores member) a last (i :: rest) (m, s) =
            readFirst (Members.stores member) a (some fault) rest
              (m, Function.update s i t) := by
          simp only [readFirst, Members.stores, Op.bind_apply, hask, hx]
          rfl
        refine .cons hrun (.unread trivial fault ?_ ?_) (fun j hj => view_update_of_ne hj) hi
          (fun _ hfound => .inl hfound) (fun hnone => ⟨hnone, fault, t, hx⟩)
          (ih hrest (some fault) _ _)
        · rw [view_update_self]
          exact hx
        · rw [view_update_self]
          rfl

/-! ### The calls of the mirror -/

/-- A round with all members in use, in which members may be passed over
or fail only as `all` and `lenient` say. -/
theorem Polls.mono {x : (i : Fin n) → Op (τ i) α} {all all' lenient lenient' : Prop}
    {poll : Op (Mirror n × Members τ) α} {members : List (Fin n)} {s : Mirror n × Members τ}
    (h : Polls x all lenient none poll members s) (hall : all' → all)
    (hlenient : lenient → lenient') : Polls x all' lenient' none poll members s := by
  have hfate : ∀ i b a, Fate (x i) all lenient b a → Fate (x i) all' lenient' b a := by
    rintro i b a (⟨hnot, h⟩ | ⟨value, h, hflag⟩ | ⟨fault, h, hflag⟩ | ⟨hl, fault, h, hflag⟩)
    · exact .skipped (fun h' => hnot (hall h')) h
    · exact .answered value h hflag
    · exact .dropped fault h hflag
    · exact .unread (hlenient hl) fault h hflag
  refine h.imp_right fun h => h.mono ?_ ?_
  · exact fun _ _ ⟨hround, hsource⟩ => ⟨fun i => ⟨fun hi => hfate i _ _ ((hround i).1 hi),
      (hround i).2⟩, hsource⟩
  · exact fun _ _ ⟨hround, hfail⟩ => ⟨fun i => ⟨fun hi => hfate i _ _ ((hround i).1 hi),
      (hround i).2⟩, hfail⟩

/-- A call of a mirror asks the members in use: all of them for a change
or a sync, and without giving them up for a read. -/
theorem store_polls (member : (i : Fin n) → Store (τ i)) (q : Request)
    (s : Mirror n × Members τ) :
    Polls (fun i => member i q) (q.spreads = true) (q.reads = true) none
      (store (Members.stores member) q) s.1.inUse s := by
  obtain ⟨m, s⟩ := s
  have hnodup := m.nodup_inUse
  cases q with
  | capacity =>
    exact (askFirst_polls (fun i => member i .capacity) hnodup none m s).mono nofun nofun
  | size ino =>
    exact (askFirst_polls (fun i => member i (.size ino)) hnodup none m s).mono nofun nofun
  | resize ino blocks =>
    exact (askAll_polls (fun i => member i (.resize ino blocks)) hnodup none none m s).mono
      (fun _ => trivial) nofun
  | read a => exact (readFirst_polls member a hnodup none m s).mono nofun fun _ => rfl
  | write a block =>
    exact (askAll_polls (fun i => member i (.write a block)) hnodup none none m s).mono
      (fun _ => trivial) nofun
  | sync ino =>
    exact (askAll_polls (fun i => member i (.sync ino)) hnodup none none m s).mono
      (fun _ => trivial) nofun

/-- What a call makes of the members. -/
def Called (member : (i : Fin n) → Store (τ i)) (q : Request)
    (before after : Mirror n × Members τ) : Prop :=
  Round (fun i => Fate (member i q) (q.spreads = true) (q.reads = true)) before.1.inUse before
    after

variable {member : (i : Fin n) → Store (τ i)} {q : Request} {s : Mirror n × Members τ}

/-- A call of a mirror whose members do not abort: its answer is one that
a member in use gave, and after a fault all of them failed. -/
theorem store_ends
    (h : ∀ i ∈ s.1.inUse, ∀ abort t, member i q (s.2 i) ≠ .error (.abort abort) t) :
    Op.Ends (store (Members.stores member) q) s
      (fun value after => Called member q s after ∧
        ∃ i ∈ s.1.inUse, ∃ t, member i q (s.2 i) = .ok value t)
      fun _ after => Called member q s after ∧
        ∀ i ∈ s.1.inUse, ∃ fault t, member i q (s.2 i) = .error (.fault fault) t := by
  rcases store_polls member q s with ⟨⟨i, hi, abort, t, hrun⟩, -⟩ | hends
  · exact (h i hi abort t hrun).elim
  · refine hends.mono ?_ fun _ _ ⟨hround, _, hfail⟩ => ⟨hround, hfail⟩
    rintro value after ⟨hround, hnone | hsource⟩
    · cases hnone
    · exact ⟨hround, hsource⟩

/-- A call that all members in use answer alike. The mirror answers it so
too, and no flag changes. A member that was passed over is as it was. -/
theorem store_unanimous {value : q.Answer} (hlive : s.1.inUse ≠ [])
    (h : ∀ i ∈ s.1.inUse, ∃ t, member i q (s.2 i) = .ok value t) :
    ∃ after, store (Members.stores member) q s = .ok value after ∧
      (∀ i, Row.at_ after.1.broken i = Row.at_ s.1.broken i) ∧
      ∀ i ∈ s.1.inUse, member i q (s.2 i) = .ok value (after.2 i) ∨
        q.spreads ≠ true ∧ after.2 i = s.2 i := by
  have habort : ∀ i ∈ s.1.inUse, ∀ abort t, member i q (s.2 i) ≠ .error (.abort abort) t := by
    intro i hi abort t hx
    obtain ⟨_, hanswer⟩ := h i hi
    cases hanswer.symm.trans hx
  have hends : Op.Ends (store (Members.stores member) q) s _ _ := store_ends habort
  rcases hends.exists_run with ⟨value', after, hrun, hcalled, i, hi, t, hx⟩ | ⟨_, _, -, -, hfail⟩
  · obtain ⟨_, hanswer⟩ := h i hi
    cases hanswer.symm.trans hx
    -- Nobody fails, so a member in use has answered or was passed over.
    have hview : ∀ j ∈ s.1.inUse, Row.at_ after.1.broken j = Row.at_ s.1.broken j ∧
        (member j q (s.2 j) = .ok value (after.2 j) ∨ q.spreads ≠ true ∧ after.2 j = s.2 j) := by
      intro j hj
      obtain ⟨t, hanswer⟩ := h j hj
      rcases (hcalled j).1 hj with ⟨hall, hview⟩ | ⟨_, hx, hflag⟩ | ⟨_, hx, -⟩ | ⟨-, _, hx, -⟩
      · exact ⟨congrArg Prod.snd hview, .inr ⟨hall, congrArg Prod.fst hview⟩⟩
      · cases hanswer.symm.trans hx
        exact ⟨hflag, .inl hanswer⟩
      · cases hanswer.symm.trans hx
      · cases hanswer.symm.trans hx
    refine ⟨after, hrun, fun j => ?_, fun j hj => (hview j hj).2⟩
    by_cases hj : j ∈ s.1.inUse
    · exact (hview j hj).1
    · exact congrArg Prod.snd ((hcalled j).2 hj)
  · -- A fault of the mirror would mean that every member failed.
    obtain ⟨i, hi⟩ := List.exists_mem_of_ne_nil _ hlive
    obtain ⟨_, hanswer⟩ := h i hi
    obtain ⟨_, _, hx⟩ := hfail i hi
    cases hanswer.symm.trans hx

end Mirror

end BlockLayers
