import BlockLayers.Proofs.Below
import BlockLayers.Proofs.Mirror.Members
import BlockLayers.Proofs.Run

/-!
# `BlockLayers.Proofs.Mirror.Lockstep`: a mirror of healthy members

The members are stores in memory with one content, and none of them is
ever dead. Each then answers a call as a single such store answers it,
and so does the mirror: an answer is passed on, and a fault that all
members give is wrapped (`Mirror.echo`).

A mirror does not ask why a member fails. A request that a healthy
member rejects, since there is no such inode, is rejected by every
member, and with it the mirror gives all of them up, except when the
request is a read. From then on there is nobody to ask. The mirror thus
follows the single store up to the first rejected call that is no read,
and answers `noneLive` to all that comes after it (`Mirror.reflected`).

`Mirror.Refused` is what becomes of a call that all members in use
reject for the same reason: the fault, and a state for each member. The
invariant of a run is `Mirror.Lockstep s p`: all members are in use and
are alike to the single store `p`.

Main statement: `outcomes_eq_reflected`, for every number of members and
every list of calls.
-/

set_option autoImplicit false

namespace BlockLayers.Mirror

variable {n : Nat} {τ : Fin n → Type} {α : Type}

/-! ### A call that all members reject -/

/-- The member rejects the operation with the fault. It is given up, if
it is not `spared`. -/
def Rejects (x : (i : Fin n) → Op (τ i) α) (fault : Fault) (spared : Bool) (i : Fin n)
    (before after : τ i × Bool) : Prop :=
  x i before.1 = .error (.fault fault) after.1 ∧ after.2 = if spared then before.2 else true

/-- The listed members all reject the operation with the fault, and the
poll of them ends with it. -/
def Refused (x : (i : Fin n) → Op (τ i) α) (fault : Fault) (spared : Bool)
    (poll : Op (Mirror n × Members τ) α) (members : List (Fin n)) (s : Mirror n × Members τ) :
    Prop :=
  ∃ after, poll s = .error (.fault (.allFailed fault)) after ∧
    Round (Rejects x fault spared) members s after

section Polling

variable {x : (i : Fin n) → Op (τ i) α} {fault : Fault} {spared : Bool}
  {poll poll' : Op (Mirror n × Members τ) α} {i : Fin n} {rest : List (Fin n)}
  {s s' : Mirror n × Members τ}

/-- There is nobody left to ask. -/
theorem Refused.nil (hrun : poll s = .error (.fault (.allFailed fault)) s) :
    Refused x fault spared poll [] s := ⟨s, hrun, .nil⟩

/-- The first member rejects, and the rest are asked from the state that
it leaves. -/
theorem Refused.cons (hrun : poll s = poll' s')
    (hfirst : Rejects x fault spared i (view s i) (view s' i))
    (hothers : ∀ j, j ≠ i → view s' j = view s j) (hi : i ∉ rest)
    (h : Refused x fault spared poll' rest s') : Refused x fault spared poll (i :: rest) s := by
  obtain ⟨after, hafter, hround⟩ := h
  exact ⟨after, hrun.trans hafter, hround.cons hfirst hothers hi⟩

end Polling

section Rejecting

variable {x : (i : Fin n) → Op (τ i) α} {fault : Fault} {members : List (Fin n)}
  {last : Option Fault} {m : Mirror n} {s : Members τ}

/-- Members that were not asked yet reject after one more member was
asked. -/
theorem rejects_update {i : Fin n} {rest : List (Fin n)} {t : τ i}
    (h : ∀ j ∈ i :: rest, ∃ after, x j (s j) = .error (.fault fault) after) (hi : i ∉ rest) :
    ∀ j ∈ rest, ∃ after, x j (Function.update s i t j) = .error (.fault fault) after := by
  intro j hj
  have hne : j ≠ i := fun heq => hi (heq ▸ hj)
  rw [Function.update_of_ne hne]
  exact h j (List.mem_cons_of_mem _ hj)

/-- A poll that asks the listed members in turn as long as they reject.
They are given up, if they are not spared. -/
theorem refused_of_rejects {ask : Option Fault → List (Fin n) → Op (Mirror n × Members τ) α}
    (spared : Bool)
    (hnil : ∀ s, ask (some fault) [] s = .error (.fault (.allFailed fault)) s)
    (hcons : ∀ last i rest m s t, x i (s i) = .error (.fault fault) t →
      ask last (i :: rest) (m, s) =
        ask (some fault) rest (if spared then m else m.giveUp i, Function.update s i t))
    (hnodup : members.Nodup) (hlast : members = [] → last = some fault)
    (h : ∀ i ∈ members, ∃ after, x i (s i) = .error (.fault fault) after) :
    Refused x fault spared (ask last members) members (m, s) := by
  -- By induction on the members: each rejects, and leaves the later ones as they were.
  induction members generalizing last m s with
  | nil =>
    obtain rfl := hlast rfl
    exact .nil (hnil _)
  | cons i rest ih =>
    obtain ⟨hi, hrest⟩ := List.nodup_cons.mp hnodup
    obtain ⟨t, hx⟩ := h i List.mem_cons_self
    refine .cons (hcons last i rest m s t hx) ?_ (fun j hj => ?_) hi
      (ih hrest (fun _ => rfl) (rejects_update h hi))
    · cases spared with
      | true => exact view_update_self ▸ ⟨hx, rfl⟩
      | false => exact view_giveUp_self ▸ ⟨hx, rfl⟩
    · cases spared with
      | true => exact view_update_of_ne hj
      | false => exact view_giveUp_of_ne hj

/-- Every listed member is asked, rejects, and is given up. -/
theorem askAll_refused (hnodup : members.Nodup) (hlast : members = [] → last = some fault)
    (h : ∀ i ∈ members, ∃ after, x i (s i) = .error (.fault fault) after) :
    Refused x fault false (askAll (fun i => Members.at_ i (x i)) none last members) members
      (m, s) := by
  refine refused_of_rejects false (fun _ => rfl) ?_ hnodup hlast h
  intro last i rest m s t hx
  simp only [askAll, Op.bind_apply, ask_apply, hx, drop_apply]
  rfl

/-- The listed members are asked in turn, reject, and are given up. -/
theorem askFirst_refused (hnodup : members.Nodup) (hlast : members = [] → last = some fault)
    (h : ∀ i ∈ members, ∃ after, x i (s i) = .error (.fault fault) after) :
    Refused x fault false (askFirst (fun i => Members.at_ i (x i)) last members) members
      (m, s) := by
  refine refused_of_rejects false (fun _ => rfl) ?_ hnodup hlast h
  intro last i rest m s t hx
  simp only [askFirst, Op.bind_apply, ask_apply, hx, drop_apply]
  rfl

/-- The listed members are read in turn, reject, and stay in use. -/
theorem readFirst_refused {member : (i : Fin n) → Store (τ i)} {a : Address}
    (hnodup : members.Nodup) (hlast : members = [] → last = some fault)
    (h : ∀ i ∈ members, ∃ after, member i (.read a) (s i) = .error (.fault fault) after) :
    Refused (fun i => member i (.read a)) fault true
      (readFirst (Members.stores member) a last members) members (m, s) := by
  refine refused_of_rejects true (fun _ => rfl) ?_ hnodup hlast h
  intro last i rest m s t hx
  have hask := ask_apply (fun i => member i (.read a)) m s i
  simp only [readFirst, Members.stores, Op.bind_apply, hask, hx]
  rfl

end Rejecting

variable {member : (i : Fin n) → Store (τ i)} {q : Request} {s : Mirror n × Members τ}

/-- A call that every member in use rejects for the same reason. They
are all given up, unless the call is a read. -/
theorem store_refused {fault : Fault} (hlive : s.1.inUse ≠ [])
    (h : ∀ i ∈ s.1.inUse, ∃ after, member i q (s.2 i) = .error (.fault fault) after) :
    Refused (fun i => member i q) fault q.reads (store (Members.stores member) q) s.1.inUse s := by
  obtain ⟨m, s⟩ := s
  have hlast {last : Option Fault} : m.inUse = [] → last = some fault := fun hnil =>
    (hlive hnil).elim
  cases q with
  | capacity => exact askFirst_refused (x := fun i => member i .capacity) m.nodup_inUse hlast h
  | size ino => exact askFirst_refused (x := fun i => member i (.size ino)) m.nodup_inUse hlast h
  | resize ino blocks =>
    exact askAll_refused (x := fun i => member i (.resize ino blocks)) m.nodup_inUse hlast h
  | read a => exact readFirst_refused m.nodup_inUse hlast h
  | write a block =>
    exact askAll_refused (x := fun i => member i (.write a block)) m.nodup_inUse hlast h
  | sync ino => exact askAll_refused (x := fun i => member i (.sync ino)) m.nodup_inUse hlast h

/-- A mirror of which no member is in use. -/
theorem store_noneLive (h : s.1.inUse = []) :
    store (Members.stores member) q s = .error (.fault .noneLive) s := by
  obtain ⟨m, s⟩ := s
  have h : m.inUse = [] := h
  cases q <;> simp only [store, Op.bind_apply, Op.own, h] <;> rfl

/-! ### One call -/

/-- What a mirror makes of an answer that all of its members give. -/
def echo : Except Stop α → Except Stop α
  | .error (.fault fault) => .error (.fault (.allFailed fault))
  | answer => answer

/-- No member is left after a call that all members answer so. -/
def Exhausts (q : Request) (answer : Except Stop q.Answer) : Bool :=
  match answer with
  | .ok _ => false
  | .error _ => !q.reads

/-- The mirror has all of its members in use, and they are alike to a
single store that is not dead. -/
structure Lockstep (s : Mirror n × Members fun _ : Fin n => Memory) (p : Memory) : Prop where
  alive : p.dead = false
  unbroken : ∀ i, Row.at_ s.1.broken i = false
  alike : ∀ i, Memory.Alike (s.2 i) p

variable {s : Mirror n × Members fun _ : Fin n => Memory} {p : Memory}

/-- The mirror over stores in memory. -/
abbrev overMemory (n : Nat) : Store (Mirror n × Members fun _ : Fin n => Memory) :=
  Mirror.store (Members.stores fun _ => Memory.store)

namespace Lockstep

/-- Every member is asked. -/
theorem mem_inUse (h : Lockstep s p) (i : Fin n) : i ∈ s.1.inUse :=
  Mirror.mem_inUse.mpr (h.unbroken i)

/-- A member that answers a call is alike to the single store again. -/
theorem alike_of_ok (h : Lockstep s p) {value : q.Answer} {p' : Memory}
    (hp : Memory.store q p = .ok value p') (i : Fin n) :
    ∃ after, Memory.store q (s.2 i) = .ok value after ∧ Memory.Alike after p' := by
  have hends := Memory.store_alike (h.alike i) q
  rcases hends.exists_run with ⟨value', t, hrun, t', hplain, halike, -⟩ | ⟨_, _, -, _, hplain, -⟩
  · cases hp.symm.trans hplain
    exact ⟨t, hrun, halike⟩
  · cases hp.symm.trans hplain

/-- A member rejects what the single store rejects. -/
theorem alike_of_fault (h : Lockstep s p) {fault : Fault} {p' : Memory}
    (hp : Memory.store q p = .error (.fault fault) p') (i : Fin n) :
    ∃ after, Memory.store q (s.2 i) = .error (.fault fault) after ∧ Memory.Alike after p' := by
  have hends := Memory.store_alike (h.alike i) q
  rcases hends.exists_run with ⟨_, _, -, _, hplain, -⟩ | ⟨fault', t, hrun, t', hplain, halike, -⟩
  · cases hp.symm.trans hplain
  · cases hp.symm.trans hplain
    exact ⟨t, hrun, halike⟩

/-- A call that the single store answers. -/
theorem call_ok (hn : 0 < n) (h : Lockstep s p) {value : q.Answer} {p' : Memory}
    (hp : Memory.store q p = .ok value p') (halive : p'.dead = false) :
    ∃ after, overMemory n q s = .ok value after ∧ Lockstep after p' := by
  have hanswers := h.alike_of_ok hp
  have hlive : s.1.inUse ≠ [] := List.ne_nil_of_mem (h.mem_inUse ⟨0, hn⟩)
  obtain ⟨after, hrun, hflags, hmembers⟩ :=
    store_unanimous hlive fun i _ => (hanswers i).imp fun _ hanswer => hanswer.1
  refine ⟨after, hrun, halive, fun i => (hflags i).trans (h.unbroken i), fun i => ?_⟩
  rcases hmembers i (h.mem_inUse i) with hanswer | ⟨hspreads, hkept⟩
  · obtain ⟨_, hanswer', halike⟩ := hanswers i
    cases hanswer'.symm.trans hanswer
    exact halike
  · -- What a member that was passed over misses changes no content.
    have hchanges : q.changes = false := by cases q <;> first | rfl | exact (hspreads rfl).elim
    obtain ⟨hinodes, hdead⟩ := (Memory.store_keeps (m := p) hchanges).good_of hp
    rw [hkept]
    exact ⟨(h.alike i).inodes.trans hinodes.symm, (h.alike i).dead.trans hdead.symm⟩

/-- A call that the single store rejects. The members stay in use after
a read, and are all given up after any other call. -/
theorem call_fault (hn : 0 < n) (h : Lockstep s p) {fault : Fault} {p' : Memory}
    (hp : Memory.store q p = .error (.fault fault) p') (halive : p'.dead = false) :
    ∃ after, overMemory n q s = .error (.fault (.allFailed fault)) after ∧
      if q.reads then Lockstep after p' else after.1.inUse = [] := by
  have hlive : s.1.inUse ≠ [] := List.ne_nil_of_mem (h.mem_inUse ⟨0, hn⟩)
  have hrejects : ∀ i ∈ s.1.inUse, ∃ t, Memory.store q (s.2 i) = .error (.fault fault) t :=
    fun i _ => (h.alike_of_fault hp i).imp fun _ hrun => hrun.1
  have hrefused : Refused (fun _ => Memory.store q) fault q.reads (overMemory n q) s.1.inUse s :=
    store_refused hlive hrejects
  obtain ⟨after, hafter, hround⟩ := hrefused
  refine ⟨after, hafter, ?_⟩
  -- No member is left out of the round, so all flags end up the same.
  have hview : ∀ j, Row.at_ after.1.broken j = (if q.reads then false else true) ∧
      Memory.Alike (after.2 j) p' := by
    intro j
    obtain ⟨hrejected, hflag⟩ := (hround j).1 (h.mem_inUse j)
    obtain ⟨t, hrun, halike⟩ := h.alike_of_fault hp j
    cases hrun.symm.trans hrejected
    have hbefore : (view s j).2 = false := h.unbroken j
    rw [hbefore] at hflag
    exact ⟨hflag, halike⟩
  cases hreads : q.reads with
  | true =>
    rw [hreads] at hview
    exact ⟨halive, fun j => (hview j).1, fun j => (hview j).2⟩
  | false =>
    rw [hreads] at hview
    refine List.eq_nil_iff_forall_not_mem.mpr fun j hj => ?_
    have hflag : Row.at_ after.1.broken j = true := (hview j).1
    rw [Mirror.mem_inUse.mp hj] at hflag
    cases hflag

/-- A call is answered as the single store answers it. The members go on
in step with it, or none of them is left. -/
theorem call (hn : 0 < n) (h : Lockstep s p) (q : Request) :
    Op.outcome (overMemory n q) s = echo (Op.outcome (Memory.store q) p) ∧
      if Exhausts q (Op.outcome (Memory.store q) p) then
        (Op.next (overMemory n q) s).1.inUse = []
      else Lockstep (Op.next (overMemory n q) s) (Op.next (Memory.store q) p) := by
  have hself : Memory.Alike p p := ⟨rfl, rfl⟩
  -- The single store answers or rejects, and it is not dead after it either.
  rcases (Memory.store_alike hself q).exists_run with
    ⟨value, p', hp, _, -, -, hdead⟩ | ⟨fault, p', hp, _, -, -, hkept⟩
  · obtain ⟨after, hrun, hafter⟩ := h.call_ok hn hp (hdead.trans h.alive)
    simp only [Op.outcome, Op.next, hp, hrun]
    exact ⟨rfl, hafter⟩
  · obtain ⟨after, hrun, hafter⟩ := h.call_fault hn hp (hkept.dead.trans h.alive)
    simp only [Op.outcome, Op.next, hp, hrun]
    refine ⟨rfl, ?_⟩
    cases hreads : q.reads <;> simp only [Exhausts, hreads] at hafter ⊢ <;> exact hafter

end Lockstep

/-! ### A whole run -/

/-- What a mirror answers to a list of calls, from what each of its
members would answer. -/
def reflected : List ((q : Request) × Except Stop q.Answer) →
    List ((q : Request) × Except Stop q.Answer)
  | [] => []
  | ⟨q, answer⟩ :: rest =>
    ⟨q, echo answer⟩ :: if Exhausts q answer then
      rest.map fun result => ⟨result.1, .error (.fault .noneLive)⟩
    else reflected rest

/-- A mirror without members in use answers no call. -/
theorem outcomes_noneLive (calls : List Request) (h : s.1.inUse = []) (p : Memory) :
    Op.outcomes (overMemory n) calls s = (Op.outcomes Memory.store calls p).map
      fun result => ⟨result.1, .error (.fault .noneLive)⟩ := by
  -- A call that finds nobody changes nothing, so the next one finds nobody too.
  induction calls generalizing p with
  | nil => rfl
  | cons q rest ih =>
    have hrun : overMemory n q s = .error (.fault .noneLive) s := store_noneLive h
    simp only [Op.outcomes, List.map_cons, Op.outcome, Op.next, hrun]
    rw [ih]

/-- Members in step with a single store answer a list of calls as it
does, up to the first call by which they are all given up. -/
theorem Lockstep.outcomes (hn : 0 < n) (calls : List Request) (h : Lockstep s p) :
    Op.outcomes (overMemory n) calls s = reflected (Op.outcomes Memory.store calls p) := by
  -- A call keeps the members in step, or no member is left and nothing is asked of any again.
  induction calls generalizing s p with
  | nil => rfl
  | cons q rest ih =>
    obtain ⟨houtcome, hnext⟩ := h.call hn q
    simp only [Op.outcomes, reflected, houtcome]
    split at hnext
    · rename_i hexhausts
      rw [if_pos hexhausts, outcomes_noneLive rest hnext (Op.next (Memory.store q) p)]
    · rename_i hexhausts
      rw [if_neg hexhausts, ih hnext]

/-- A mirror of one or more stores in memory that are not dead and have
one content. It answers a call as a single such store does, with a fault
wrapped, up to and including the first call that is rejected and no
read. Every later call finds no member in use. -/
theorem outcomes_eq_reflected (hn : 0 < n) {start : Fin n → Memory} {single : Memory}
    (halive : single.dead = false) (hstart : ∀ i, Memory.Alike (start i) single)
    (calls : List Request) :
    Op.outcomes (overMemory n) calls (fresh n, start) =
      reflected (Op.outcomes Memory.store calls single) :=
  Lockstep.outcomes hn calls ⟨halive, fun _ => Row.at_fill false _, hstart⟩

/-- Two members reject a read, grow, and reject a sync. The rejected read
changes nothing. After the rejected sync no member is left. -/
theorem outcomes_eq_reflected_two :
    0 < 2 ∧ (Memory.empty 1).dead = false ∧
      (∀ i : Fin 2, Memory.Alike ((fun _ => Memory.empty 1) i) (Memory.empty 1)) ∧
      Op.outcomes (overMemory 2) [.read ⟨0, 0⟩, .resize 0 2, .sync 5, .size 0]
          (fresh 2, fun _ => Memory.empty 1) =
        [⟨.read ⟨0, 0⟩, .error (.fault (.allFailed (.pastEnd 0 0 0)))⟩, ⟨.resize 0 2, .ok 0⟩,
          ⟨.sync 5, .error (.fault (.allFailed (.noInode 5 1)))⟩,
          ⟨.size 0, .error (.fault .noneLive)⟩] := by
  have halike : ∀ i : Fin 2, Memory.Alike ((fun _ => Memory.empty 1) i) (Memory.empty 1) :=
    fun _ => ⟨rfl, rfl⟩
  refine ⟨by decide, rfl, halike, ?_⟩
  rw [outcomes_eq_reflected (by decide) rfl halike]
  rfl

/-- A mirror of healthy members does not go on like one of them: when all
of them have rejected a sync, it has given them up, and a single store
still answers. -/
theorem not_echoed_after_rejection :
    ¬ ∀ (n : Nat) (single : Memory) (calls : List Request), 0 < n → single.dead = false →
      Op.outcomes (overMemory n) calls (fresh n, fun _ => single) =
        (Op.outcomes Memory.store calls single).map fun result => ⟨result.1, echo result.2⟩ := by
  intro hechoed
  -- Two members reject the sync of an inode that they have not.
  have h := hechoed 2 (Memory.empty 1) [.sync 5, .size 0] (by decide) rfl
  have hlast := congrArg (fun results => results[1]?) h
  have hlast : some (⟨.size 0, .error (.fault .noneLive)⟩ : (q : Request) × Except Stop q.Answer) =
      some ⟨.size 0, .ok 0⟩ := hlast
  cases hlast

end BlockLayers.Mirror
