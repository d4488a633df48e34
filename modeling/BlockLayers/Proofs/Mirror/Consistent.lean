import BlockLayers.Proofs.Below
import BlockLayers.Proofs.Mirror.Members
import BlockLayers.Proofs.Run

/-!
# `BlockLayers.Proofs.Mirror.Consistent`: a mirror is like one store

The members are stores in memory that may be killed and revived at any
time. A step of a run is a call of the mirror or the switching of a
member (`Mirror.Step`). A call reaches its members one after the other,
so members may also be switched while a call is under way: `amid i`
lists what happens to member `i` just before the call reaches it.

The invariant is `Mirror.Agrees s p`: each member that was not given up
has the content of one plain store `p`. The plain store gets the changes
that the mirror answers with success, and no others (`acknowledge`). A
change that no member makes is one after which no member is in use.

Main statement: `consistent_after`, for every run. The members in use
have the content of the plain store, no answer of the mirror differs
from that of the plain store, and as long as the plain store succeeds
and one member is never killed, the mirror succeeds too.
-/

set_option autoImplicit false

namespace BlockLayers

/-! ### Switching a member off and on -/

/-- What can be done to a store in memory besides calling it. -/
inductive Switch where
  | kill
  | revive
  deriving DecidableEq

namespace Switch

/-- The store after it is switched. -/
def apply : Switch → Memory → Memory
  | .kill => Memory.kill
  | .revive => Memory.revive

/-- The store after it is switched a number of times. -/
def all (switches : List Switch) (m : Memory) : Memory :=
  switches.foldl (fun m switch => switch.apply m) m

/-- Switching changes no content. -/
theorem inodes_apply (switch : Switch) (m : Memory) : (switch.apply m).inodes = m.inodes := by
  cases switch <;> rfl

/-- Switching changes no content, however often. -/
theorem inodes_all (switches : List Switch) (m : Memory) :
    (all switches m).inodes = m.inodes := by
  induction switches generalizing m with
  | nil => rfl
  | cons switch rest ih => exact (ih (switch.apply m)).trans (inodes_apply switch m)

/-- A store that is never killed is not dead. -/
theorem dead_all {switches : List Switch} {m : Memory} (hkill : .kill ∉ switches)
    (h : m.dead = false) : (all switches m).dead = false := by
  -- By induction on the switches, each of which revives the store if it does not kill it.
  induction switches generalizing m with
  | nil => exact h
  | cons switch rest ih =>
    obtain ⟨hfirst, hrest⟩ := not_or.mp (List.mem_cons.not.mp hkill)
    cases switch with
    | kill => exact (hfirst rfl).elim
    | revive => exact ih hrest rfl

end Switch

namespace Mirror

variable {n : Nat}

/-! ### The steps of a run -/

/-- A member that is switched just before a call reaches it. -/
def troubled (amid : Fin n → List Switch) (i : Fin n) : Store Memory := fun q => do
  modify (Switch.all (amid i))
  Memory.store q

/-- What can happen to a mirror. -/
inductive Step (n : Nat) where
  /-- A call, and what happens to each member before the call reaches it. -/
  | call (q : Request) (amid : Fin n → List Switch)
  /-- A member is switched between two calls. -/
  | switch (i : Fin n) (turn : Switch)

namespace Step

/-- What a step is answered with. -/
@[reducible] def Answer : Step n → Type
  | .call q _ => q.Answer
  | .switch _ _ => Unit

/-- The step of a mirror over stores in memory. -/
def run : (c : Step n) → Op (Mirror n × Members fun _ : Fin n => Memory) c.Answer
  | .call q amid => Mirror.store (Members.stores (troubled amid)) q
  | .switch i turn => Op.lower (Members.at_ i (modify turn.apply))

/-- The step of a single store in memory, which is not switched. -/
def plain : (c : Step n) → Op Memory c.Answer
  | .call q _ => Memory.store q
  | .switch _ _ => pure ()

/-- The step kills a member. -/
def Kills (i : Fin n) : Step n → Prop
  | .call _ amid => .kill ∈ amid i
  | .switch j turn => j = i ∧ turn = .kill

end Step

/-- A plain store after a step of the mirror: it makes a change if the
mirror answered it with success. -/
def acknowledge (p : Memory) : ((c : Step n) × Except Stop c.Answer) → Memory
  | ⟨.call q _, .ok _⟩ => if q.changes then Op.next (Memory.store q) p else p
  | _ => p

/-! ### What a step keeps -/

/-- The members in use have the content of a plain store. -/
structure Agrees (s : Mirror n × Members fun _ : Fin n => Memory) (p : Memory) : Prop where
  alive : p.dead = false
  same : ∀ i, Row.at_ s.1.broken i = false → (s.2 i).inodes = p.inodes

/-- A member with the content of the plain store answers as that store
does, or fails. Then its content is the one that it had. -/
theorem troubled_ends {m p : Memory} (h : m.inodes = p.inodes) (hp : p.dead = false)
    (amid : Fin n → List Switch) (i : Fin n) (q : Request) :
    Op.Ends (troubled amid i q) m
      (fun value after => Op.outcome (Memory.store q) p = .ok value ∧
        after.inodes = (Op.next (Memory.store q) p).inodes)
      fun _ after => after.inodes = p.inodes := by
  -- Switching changes no content, so a member that is not dead by now is alike to the plain store.
  have hinodes := (Switch.inodes_all (amid i) m).trans h
  refine Op.Ends.modify_seq ?_
  by_cases hdead : (Switch.all (amid i) m).dead = true
  · exact .of_fault (Memory.store_dead hdead q) hinodes
  · have halike : Memory.Alike (Switch.all (amid i) m) p :=
      ⟨hinodes, (Bool.eq_false_iff.mpr hdead).trans hp.symm⟩
    refine (Memory.store_alike halike q).mono ?_ ?_
    · rintro value after ⟨after', hrun, hafter, -⟩
      refine ⟨by simp only [Op.outcome, hrun], ?_⟩
      simp only [Op.next, hrun]
      exact hafter.inodes
    · rintro fault after ⟨-, -, -, hafter⟩
      exact hafter.inodes.trans hinodes

/-- A member that is not dead and not killed answers what the plain store
answers. -/
theorem troubled_steady {m p : Memory} (h : m.inodes = p.inodes) (hp : p.dead = false)
    (hm : m.dead = false) {amid : Fin n → List Switch} {i : Fin n} (hkill : .kill ∉ amid i)
    {q : Request} {value : q.Answer} (hvalue : Op.outcome (Memory.store q) p = .ok value) :
    ∃ after, troubled amid i q m = .ok value after ∧ after.dead = false := by
  have hdead := Switch.dead_all hkill hm
  have halike : Memory.Alike (Switch.all (amid i) m) p :=
    ⟨(Switch.inodes_all (amid i) m).trans h, hdead.trans hp.symm⟩
  have hends := Memory.store_alike halike q
  show ∃ after, Memory.store q (Switch.all (amid i) m) = .ok value after ∧ after.dead = false
  unfold Op.outcome at hvalue
  rcases hends.exists_run with ⟨value', t, hrun, _, hplain, -, ht⟩ | ⟨fault, t, -, _, hplain, -⟩
  · rw [hplain] at hvalue
    cases hvalue
    exact ⟨t, hrun, ht.trans hdead⟩
  · rw [hplain] at hvalue
    cases hvalue

/-- The plain store is not dead after a request either. -/
theorem dead_next {p : Memory} (hp : p.dead = false) (q : Request) :
    (Op.next (Memory.store q) p).dead = false :=
  Op.Ends.next (fun after : Memory => after.dead = false)
    ((Memory.store_alike ⟨rfl, rfl⟩ q).mono (fun _ _ ⟨_, _, _, hdead⟩ => hdead.trans hp)
      fun _ _ ⟨_, _, _, hkept⟩ => hkept.dead.trans hp)

variable {s : Mirror n × Members fun _ : Fin n => Memory} {p : Memory} {q : Request}
  {amid : Fin n → List Switch}

/-- A member that is in use after a call was in use before. It answered,
or it has its old content and the request was no change. -/
theorem Agrees.unbroken (h : Agrees s p) {after : Mirror n × Members fun _ : Fin n => Memory}
    (hcalled : Called (troubled amid) q s after) {i : Fin n}
    (hi : Row.at_ after.1.broken i = false) :
    Row.at_ s.1.broken i = false ∧
      ((∃ value, troubled amid i q (s.2 i) = .ok value (after.2 i)) ∨
        (after.2 i).inodes = p.inodes ∧ q.changes = false) := by
  by_cases huse : i ∈ s.1.inUse
  · have hflag := mem_inUse.mp huse
    refine ⟨hflag, ?_⟩
    -- Of the fates of a member only that of being given up takes it out of use.
    rcases (hcalled i).1 huse with ⟨hall, hview⟩ | ⟨value, hrun, -⟩ | ⟨-, -, hdrop⟩ |
      ⟨hread, fault, hrun, -⟩
    · have hstate : after.2 i = s.2 i := congrArg Prod.fst hview
      refine .inr ⟨hstate ▸ h.same i hflag, ?_⟩
      cases q <;> first | rfl | exact (hall rfl).elim
    · exact .inl ⟨value, hrun⟩
    · have hdrop : Row.at_ after.1.broken i = true := hdrop
      rw [hi] at hdrop
      cases hdrop
    · refine .inr ⟨(troubled_ends (h.same i hflag) h.alive amid i q).bad_of hrun, ?_⟩
      cases q <;> first | rfl | cases hread
  · have hflag : Row.at_ after.1.broken i = Row.at_ s.1.broken i :=
      congrArg Prod.snd ((hcalled i).2 huse)
    rw [mem_inUse, ← hflag] at huse
    exact (huse hi).elim

/-- What a call makes of a mirror that agrees with a plain store. -/
theorem Agrees.called (h : Agrees s p) (q : Request) (amid : Fin n → List Switch) :
    Op.Ends (Mirror.store (Members.stores (troubled amid)) q) s
      (fun value after => Called (troubled amid) q s after ∧
        ∃ i ∈ s.1.inUse, ∃ t, troubled amid i q (s.2 i) = .ok value t)
      fun _ after => Called (troubled amid) q s after ∧
        ∀ i ∈ s.1.inUse, ∃ fault t, troubled amid i q (s.2 i) = .error (.fault fault) t :=
  store_ends fun i hi _ _ hrun =>
    (troubled_ends (h.same i (mem_inUse.mp hi)) h.alive amid i q).not_abort hrun

/-- A call that the mirror answers is answered alike by the plain store,
and the members in use have its content after the call. A call that ends
with a fault changes nothing that is in use. -/
theorem call_ends (h : Agrees s p) (q : Request) (amid : Fin n → List Switch) :
    Op.Ends (Mirror.store (Members.stores (troubled amid)) q) s
      (fun value after => Op.outcome (Memory.store q) p = .ok value ∧
        Agrees after (Op.next (Memory.store q) p))
      fun _ after => Agrees after p := by
  refine (h.called q amid).mono ?_ ?_
  · rintro value after ⟨hcalled, i, hi, t, hrun⟩
    have hvalue := (troubled_ends (h.same i (mem_inUse.mp hi)) h.alive amid i q).good_of hrun
    refine ⟨hvalue.1, dead_next h.alive q, fun j hj => ?_⟩
    -- A member that answered has changed as the plain store has, and one that was not asked had
    -- nothing to change.
    obtain ⟨hflag, ⟨value', hrun'⟩ | ⟨hkept, hq⟩⟩ := h.unbroken hcalled hj
    · exact ((troubled_ends (h.same j hflag) h.alive amid j q).good_of hrun').2
    · have hnext : Memory.Alike (Op.next (Memory.store q) p) p :=
        Op.Ends.next (Memory.Alike · p) (Memory.store_keeps hq)
      exact hkept.trans hnext.inodes.symm
  · rintro fault after ⟨hcalled, hfail⟩
    refine ⟨h.alive, fun j hj => ?_⟩
    obtain ⟨hflag, ⟨value', hrun'⟩ | ⟨hkept, -⟩⟩ := h.unbroken hcalled hj
    · -- A member that is still in use answered, but all of them failed.
      obtain ⟨fault', t, hrun⟩ := hfail j (mem_inUse.mpr hflag)
      cases hrun'.symm.trans hrun
    · exact hkept

/-- A member that can be relied on: it is in use and not dead. -/
structure Steady (s : Mirror n × Members fun _ : Fin n => Memory) (i : Fin n) : Prop where
  unbroken : Row.at_ s.1.broken i = false
  alive : (s.2 i).dead = false

/-- With a steady member that is not killed the mirror answers whatever
the plain store answers, and the member is steady after the call. -/
theorem call_steady (h : Agrees s p) {i : Fin n} (hi : Steady s i) (hkill : .kill ∉ amid i)
    {value : q.Answer} (hvalue : Op.outcome (Memory.store q) p = .ok value) :
    ∃ after, Mirror.store (Members.stores (troubled amid)) q s = .ok value after ∧
      Steady after i := by
  obtain ⟨t, hrun, ht⟩ :=
    troubled_steady (h.same i hi.unbroken) h.alive hi.alive hkill hvalue
  have huse := mem_inUse.mpr hi.unbroken
  -- A fault of the mirror would mean that the steady member failed too.
  rcases ((h.called q amid).and (call_ends h q amid)).exists_run with
    ⟨value', after, hafter, ⟨hcalled, -⟩, hvalue', -⟩ | ⟨fault, after, -, ⟨-, hfail⟩, -⟩
  · obtain rfl : value = value' := Except.ok.inj (hvalue.symm.trans hvalue')
    refine ⟨after, hafter, ?_⟩
    rcases (hcalled i).1 huse with ⟨-, hview⟩ | ⟨value', hrun', hflag⟩ | ⟨fault, hfault, -⟩ |
      ⟨-, fault, hfault, -⟩
    · exact ⟨(congrArg Prod.snd hview).trans hi.unbroken, by
        rw [show after.2 i = s.2 i from congrArg Prod.fst hview]
        exact hi.alive⟩
    · cases hrun.symm.trans hrun'
      exact ⟨hflag.trans hi.unbroken, ht⟩
    · cases hrun.symm.trans hfault
    · cases hrun.symm.trans hfault
  · obtain ⟨fault', t', hfault⟩ := hfail i huse
    cases hrun.symm.trans hfault

/-! ### A whole run -/

/-- A step of the mirror keeps the agreement with the plain store that
makes the acknowledged changes. -/
theorem agrees_next (c : Step n) (s : Mirror n × Members fun _ : Fin n => Memory) (p : Memory)
    (h : Agrees s p) :
    Agrees (Op.next c.run s) (acknowledge p ⟨c, Op.outcome c.run s⟩) := by
  cases c with
  | call q amid =>
    rcases (call_ends h q amid).exists_run with
      ⟨value, after, hrun, -, hafter⟩ | ⟨fault, after, hrun, hafter⟩
    · simp only [Step.run, Op.next, Op.outcome, hrun, acknowledge]
      split
      · exact hafter
      · -- A request that is no change is not made of the plain store, and would leave its content.
        rename_i hq
        have hnext : Memory.Alike (Op.next (Memory.store q) p) p :=
          Op.Ends.next (Memory.Alike · p) (Memory.store_keeps (Bool.eq_false_iff.mpr hq))
        exact ⟨h.alive, fun i hi => (hafter.same i hi).trans hnext.inodes⟩
    · simp only [Step.run, Op.next, Op.outcome, hrun, acknowledge]
      exact hafter
  | switch i turn =>
    refine ⟨h.alive, fun j hj => ?_⟩
    -- Switching one member changes neither flags nor content.
    show (Function.update s.2 i (turn.apply (s.2 i)) j).inodes = p.inodes
    by_cases hji : j = i
    · subst hji
      rw [Function.update_self, turn.inodes_apply]
      exact h.same j hj
    · rw [Function.update_of_ne hji]
      exact h.same j hj

/-- A step that does not kill a steady member, and that the plain store
answers. -/
theorem step_steady {i : Fin n} {c : Step n} (hkill : ¬ c.Kills i)
    (h : Agrees s p ∧ Steady s i) {value : c.Answer} (hvalue : Op.outcome c.plain p = .ok value) :
    Op.outcome c.run s = .ok value ∧
      Agrees (Op.next c.run s) (Op.next c.plain p) ∧ Steady (Op.next c.run s) i := by
  cases c with
  | call q amid =>
    obtain ⟨after, hrun, hsteady⟩ := call_steady h.1 h.2 hkill hvalue
    have hagrees := ((call_ends h.1 q amid).good_of hrun).2
    simp only [Step.run, Op.next, Op.outcome, hrun]
    exact ⟨trivial, hagrees, hsteady⟩
  | switch j turn =>
    refine ⟨hvalue, agrees_next (.switch j turn) s p h.1, h.2.unbroken, ?_⟩
    show (Function.update s.2 j (turn.apply (s.2 j)) i).dead = false
    by_cases hij : i = j
    · subst hij
      rw [Function.update_self]
      cases turn with
      | kill => exact (hkill ⟨rfl, rfl⟩).elim
      | revive => rfl
    · rw [Function.update_of_ne hij]
      exact h.2.alive

/-- A mirror over stores in memory that start with one content, after any
run of calls among which members are killed and revived, also while a
call is under way. The members in use have the content of a plain store
that made the acknowledged changes. What the mirror answers to a further
call is what the plain store answers. And if some member is never killed
and a plain store answers every call of the run, the mirror gives the
same answers. -/
theorem consistent_after (content : Plain) {start : Fin n → Memory}
    (hstart : ∀ i, (start i).inodes = content) (steps : List (Step n)) :
    let plain : Memory := ⟨content, false, 0⟩
    let s := Op.after Step.run steps (fresh n, start)
    let p := (Op.outcomes Step.run steps (fresh n, start)).foldl acknowledge plain
    (∀ i, Row.at_ s.1.broken i = false → (s.2 i).inodes = p.inodes) ∧
      (∀ q amid value, Op.outcome (Mirror.store (Members.stores (troubled amid)) q) s = .ok value →
        Op.outcome (Memory.store q) p = .ok value) ∧
      ∀ i, (start i).dead = false → (∀ c ∈ steps, ¬ c.Kills i) →
        (∀ result ∈ Op.outcomes Step.plain steps plain, ∃ value, result.2 = .ok value) →
        Op.outcomes Step.run steps (fresh n, start) = Op.outcomes Step.plain steps plain := by
  intro plain s p
  have hfresh : Agrees (fresh n, start) plain := ⟨rfl, fun i _ => hstart i⟩
  -- The run is the account of what it acknowledges, and the invariant is kept by each step.
  have hagrees : Agrees s p :=
    Op.outcomes_invariant Agrees acknowledge agrees_next steps hfresh
  refine ⟨hagrees.same, fun q amid value hvalue => ?_, fun i hi hkill hok => ?_⟩
  · rcases (call_ends hagrees q amid).outcome_next with ⟨value', houtcome, hplain, -⟩ |
      ⟨fault, houtcome, -⟩
    · cases hvalue.symm.trans houtcome
      exact hplain
    · cases hvalue.symm.trans houtcome
  · have hsteady : Steady (fresh n, start) i := ⟨Row.at_fill false i, hi⟩
    exact Op.outcomes_eq_of_ok
      (fun c hc s t value h hvalue => step_steady (hkill c hc) h hvalue) ⟨hfresh, hsteady⟩ hok

/-- A run with two members, the first of which is killed while an inode
grows, is revived, and is killed again while the inode is written. -/
def twoMembers : List (Step 2) :=
  [.call (.resize 0 2) fun i => if i = 0 then [.kill] else [], .switch 0 .revive,
    .call (.write ⟨0, 2⟩ Block.zero) fun i => if i = 0 then [.kill] else [],
    .call (.size 0) fun _ => [], .call (.sync 0) fun _ => []]

/-- The second member is never killed, so the run is answered throughout.
The first is given up in its first call. -/
theorem consistent_after_two_members :
    Op.outcomes Step.run twoMembers (fresh 2, fun _ => Memory.empty 1) =
        Op.outcomes Step.plain twoMembers ⟨#[#[]], false, 0⟩ ∧
      Row.at_ (Op.after Step.run twoMembers (fresh 2, fun _ => Memory.empty 1)).1.broken 0 =
        true ∧
      (∀ i, Row.at_ (Op.after Step.run twoMembers (fresh 2, fun _ => Memory.empty 1)).1.broken i =
          false →
        ((Op.after Step.run twoMembers (fresh 2, fun _ => Memory.empty 1)).2 i).inodes =
          ((Op.outcomes Step.run twoMembers (fresh 2, fun _ => Memory.empty 1)).foldl acknowledge
            ⟨#[#[]], false, 0⟩).inodes) := by
  have hstart : ∀ i : Fin 2, ((fun _ => Memory.empty 1 : Fin 2 → Memory) i).inodes = #[#[]] :=
    fun _ => rfl
  have h := consistent_after #[#[]] hstart twoMembers
  refine ⟨h.2.2 1 rfl ?_ ?_, by decide, h.1⟩
  · simp [twoMembers, Step.Kills]
  · unfold twoMembers
    simp only [Op.outcomes, List.forall_mem_cons]
    exact ⟨⟨_, rfl⟩, ⟨_, rfl⟩, ⟨_, rfl⟩, ⟨_, rfl⟩, ⟨_, rfl⟩,
      fun _ hnone => (List.not_mem_nil hnone).elim⟩

end Mirror

end BlockLayers
