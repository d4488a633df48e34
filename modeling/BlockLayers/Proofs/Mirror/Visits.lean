import BlockLayers.Proofs.Agrees
import BlockLayers.Proofs.Mirror.Members

/-!
# `BlockLayers.Proofs.Mirror.Visits`: which members a call goes to

`Mirror.watched` puts a record behind the members of a mirror: every call
of a member is written down with what it ended with (`Visit`). The
members are any stores at all on one state, and a mirror over watched
members does what the mirror does (`store_watched`).

`Disciplined` is the rule for one call. The calls of the members are a
list of turns (`Turns`), and the rule ties that list to the flags before
and after and to what the mirror answers (`verdict`). The members in use
have their turns in order. A change or a sync goes to all of them, and
any other call to the first that does not fail and to nobody after it.

Main statement: `calls_disciplined`. Every call obeys the rule, and so a
member that was given up is never called again, however long the run.
-/

set_option autoImplicit false

namespace BlockLayers.Mirror

variable {σ α : Type} {n : Nat}

/-! ### The record -/

/-- A call of a member. -/
structure Visit (n : Nat) where
  /-- The member. -/
  member : Fin n
  /-- What it was asked. -/
  request : Request
  /-- What the call ended with. -/
  result : Except Stop request.Answer

/-- The members, with a record of their calls. -/
def watched (members : Fin n → Store σ) : Fin n → Store (List (Visit n) × σ) :=
  fun i q (visits, s) =>
    match members i q s with
    | .ok value after => .ok value (visits ++ [⟨i, q, .ok value⟩], after)
    | .error stop after => .error stop (visits ++ [⟨i, q, .error stop⟩], after)

section Watched

variable (members : Fin n → Store σ)

/-- A watched member ends as the member does. -/
theorem watched_agrees (i : Fin n) (q : Request) :
    Op.Agrees (fun t s => t.2 = s) (watched members i q) (members i q) := by
  rintro ⟨visits, s⟩ _ rfl
  simp only [Op.outcome, Op.next, watched]
  cases members i q s <;> exact ⟨rfl, rfl⟩

variable [Journal σ]

variable {τ : Type} [Journal τ] {R : σ → τ → Prop} {members' : Fin n → Store τ}

section Congr

variable (hnote : ∀ event s t, R s t → R (Journal.enter event s) (Journal.enter event t))
include hnote

/-- A report of a mirror is one of the state of its members. -/
theorem note_congr (event : Event) :
    Op.Agrees (Op.Beside (ω := Mirror n) R) (Op.note event) (Op.note event) :=
  .note fun _ _ h => ⟨h.1, hnote event _ _ h.2⟩

/-- Giving a member up asks nothing of the members. -/
theorem drop_congr (i : Fin n) (fault : Fault) :
    Op.Agrees (Op.Beside (ω := Mirror n) R) (drop i fault) (drop i fault) := by
  refine .bind .own fun m => .bind .modifyOwn fun _ => ?_
  split
  · exact .pure
  · exact note_congr hnote _

variable {x : Fin n → Op σ α} {y : Fin n → Op τ α} (h : ∀ i, Op.Agrees R (x i) (y i))
include h

/-- Members that end alike are all asked alike. -/
theorem askAll_congr (list : List (Fin n)) (found : Option α) (last : Option Fault) :
    Op.Agrees (Op.Beside R) (askAll x found last list) (askAll y found last list) := by
  -- By induction on the members that are left, with the last answer and the last fault
  -- generalized.
  induction list generalizing found last with
  | nil =>
    cases found with
    | none => exact .fail
    | some value => exact .pure
  | cons i rest ih =>
    refine .bind (.lower (h i).attempt) fun result => ?_
    cases result with
    | ok value => exact ih _ _
    | error fault => exact .bind (drop_congr hnote i fault) fun _ => ih _ _

/-- Members that end alike are asked alike up to the first that answers.
-/
theorem askFirst_congr (list : List (Fin n)) (last : Option Fault) :
    Op.Agrees (Op.Beside R) (askFirst x last list) (askFirst y last list) := by
  induction list generalizing last with
  | nil => exact .fail
  | cons i rest ih =>
    refine .bind (.lower (h i).attempt) fun result => ?_
    cases result with
    | ok value => exact .pure
    | error fault => exact .bind (drop_congr hnote i fault) fun _ => ih _

end Congr

section Congr

variable {members} (h : ∀ i q, Op.Agrees R (members i q) (members' i q))
  (hnote : ∀ event s t, R s t → R (Journal.enter event s) (Journal.enter event t))
include h hnote

/-- Members that end alike are read alike up to the first that answers.
-/
theorem readFirst_congr (a : Address) (list : List (Fin n)) (last : Option Fault) :
    Op.Agrees (Op.Beside R) (readFirst members a last list) (readFirst members' a last list) := by
  induction list generalizing last with
  | nil => exact .fail
  | cons i rest ih =>
    refine .bind (.lower (h i (.read a)).attempt) fun result => ?_
    cases result with
    | ok block => exact .pure
    | error fault => exact .bind (note_congr hnote _) fun _ => ih _

/-- A mirror over members that end alike ends alike. -/
theorem store_congr (q : Request) :
    Op.Agrees (Op.Beside R) (store members q) (store members' q) := by
  -- A request is one of three loops over the members in use, which both mirrors list alike.
  cases q with
  | capacity => exact .bind .own fun _ => askFirst_congr hnote (h · .capacity) _ _
  | size ino => exact .bind .own fun _ => askFirst_congr hnote (h · (.size ino)) _ _
  | resize ino blocks =>
    exact .bind .own fun _ => askAll_congr hnote (h · (.resize ino blocks)) _ _ _
  | read a => exact .bind .own fun _ => readFirst_congr h hnote a _ _
  | write a block => exact .bind .own fun _ => askAll_congr hnote (h · (.write a block)) _ _ _
  | sync ino => exact .bind .own fun _ => askAll_congr hnote (h · (.sync ino)) _ _ _

end Congr

/-- The record changes nothing of what the mirror does. -/
theorem store_watched (q : Request) :
    Op.Agrees (Op.Beside fun t s => t.2 = s) (store (watched members) q) (store members q) :=
  store_congr (watched_agrees members)
    (fun event _ _ h => congrArg (Journal.enter event) h) q

end Watched

/-! ### Turns -/

/-- The members that a call went to, in order, each with what it ended
with. -/
abbrev Turns (n : Nat) (α : Type) := List (Fin n × Except Stop α)

/-- The turn of a member as a visit. -/
def Visit.of (q : Request) (turn : Fin n × Except Stop q.Answer) : Visit n := ⟨turn.1, q, turn.2⟩

namespace Turns

/-- One more turn. -/
def add (turns : Turns n α) (i : Fin n) (result : Except Stop α) : Turns n α :=
  turns ++ [(i, result)]

/-- The answers among the turns. -/
def answers (turns : Turns n α) : List α := turns.filterMap fun turn => turn.2.toOption

/-- The faults among the turns. -/
def faults (turns : Turns n α) : List Fault :=
  turns.filterMap fun turn =>
    match turn.2 with
    | .error (.fault fault) => some fault
    | _ => none

/-- The aborts among the turns. -/
def aborts (turns : Turns n α) : List Abort :=
  turns.filterMap fun turn =>
    match turn.2 with
    | .error (.abort abort) => some abort
    | _ => none

/-- What a mirror answers after these turns: what the last member
answered that did answer, and otherwise that all failed, with the last
fault, or that there was nobody to call. An abort is passed on. -/
def verdict (turns : Turns n α) : Except Stop α :=
  match turns.aborts.getLast?, turns.answers.getLast?, turns.faults.getLast? with
  | some abort, _, _ => .error (.abort abort)
  | none, some value, _ => .ok value
  | none, none, some fault => .error (.fault (.allFailed fault))
  | none, none, none => .error (.fault .noneLive)

/-- The turn ended with a fault. -/
def Failed (turn : Fin n × Except Stop α) : Prop := ∃ fault, turn.2 = .error (.fault fault)

end Turns

/-- The rule for a call `q` of a mirror with the flags `before`, which
has made these turns, has left the flags `after` and has ended with
`result`. -/
structure Disciplined (q : Request) (before after : Mirror n) (turns : Turns n q.Answer)
    (result : Except Stop q.Answer) : Prop where
  /-- The members in use have their turns in order, each at most once. -/
  order : turns.map Prod.fst <+: before.inUse
  /-- A change or a sync that is not aborted goes to all of them. -/
  everyone : q.spreads = true → (∀ abort, result ≠ .error (.abort abort)) →
    turns.map Prod.fst = before.inUse
  /-- Any other call goes to the first that does not fail and to those
  before it, or to all of them if they all fail. -/
  first : q.spreads = false →
    (∃ failed turn, turns = failed ++ [turn] ∧ (∀ t ∈ failed, Turns.Failed t) ∧
        ¬ Turns.Failed turn) ∨
      turns.map Prod.fst = before.inUse ∧ ∀ t ∈ turns, Turns.Failed t
  /-- The mirror ends as the turns say. -/
  answer : result = turns.verdict
  /-- Afterwards those are given up that were before, and those that
  failed in a call that was no read. -/
  flags : ∀ i, Row.at_ after.broken i = true ↔ Row.at_ before.broken i = true ∨
    q.reads = false ∧ ∃ fault, (i, .error (.fault fault)) ∈ turns

namespace Turns

variable {turns : Turns n α} {i : Fin n}

/-- The turns with one more turn. -/
theorem mem_add {result : Except Stop α} {turn : Fin n × Except Stop α} :
    turn ∈ turns.add i result ↔ turn ∈ turns ∨ turn = (i, result) := by
  simp [add]

/-- The next member in a list has had its turn. -/
theorem map_fst_add_append (turns : Turns n α) (i : Fin n) (result : Except Stop α)
    (rest : List (Fin n)) :
    (turns.add i result).map Prod.fst ++ rest = turns.map Prod.fst ++ i :: rest := by
  simp [add]

/-- An answer comes behind those that were there. -/
theorem answers_add_ok (turns : Turns n α) (i : Fin n) (value : α) :
    (turns.add i (.ok value)).answers = turns.answers ++ [value] := List.filterMap_append

/-- A turn that stops brings no answer. -/
theorem answers_add_error (turns : Turns n α) (i : Fin n) (stop : Stop) :
    (turns.add i (.error stop)).answers = turns.answers := by
  simp [answers, add, Except.toOption]

/-- An answer is no fault. -/
theorem faults_add_ok (turns : Turns n α) (i : Fin n) (value : α) :
    (turns.add i (.ok value)).faults = turns.faults := by
  simp [faults, add]

/-- A fault comes behind those that were there. -/
theorem faults_add_fault (turns : Turns n α) (i : Fin n) (fault : Fault) :
    (turns.add i (.error (.fault fault))).faults = turns.faults ++ [fault] :=
  List.filterMap_append

/-- An answer is no abort. -/
theorem aborts_add_ok (turns : Turns n α) (i : Fin n) (value : α) :
    (turns.add i (.ok value)).aborts = turns.aborts := by
  simp [aborts, add]

/-- A fault is no abort. -/
theorem aborts_add_fault (turns : Turns n α) (i : Fin n) (fault : Fault) :
    (turns.add i (.error (.fault fault))).aborts = turns.aborts := by
  simp [aborts, add]

/-- An abort comes behind those that were there. -/
theorem aborts_add_abort (turns : Turns n α) (i : Fin n) (abort : Abort) :
    (turns.add i (.error (.abort abort))).aborts = turns.aborts ++ [abort] :=
  List.filterMap_append

/-- Where nothing is aborted, the last answer counts, and only without
one the last fault. -/
theorem verdict_of_settled (h : turns.aborts = []) :
    turns.verdict = match turns.answers.getLast? with
      | some value => .ok value
      | none => .error (.fault (exhausted turns.faults.getLast?)) := by
  unfold verdict
  rw [h]
  cases turns.answers.getLast? with
  | some value => rfl
  | none => cases turns.faults.getLast? <;> rfl

/-- The last answer counts. -/
theorem verdict_add_ok (h : turns.aborts = []) (i : Fin n) (value : α) :
    (turns.add i (.ok value)).verdict = .ok value := by
  rw [verdict_of_settled ((aborts_add_ok turns i value).trans h), answers_add_ok,
    List.getLast?_concat]

/-- An abort in the last turn is what the mirror ends with. -/
theorem verdict_add_abort (turns : Turns n α) (i : Fin n) (abort : Abort) :
    (turns.add i (.error (.abort abort))).verdict = .error (.abort abort) := by
  unfold verdict
  rw [aborts_add_abort, List.getLast?_concat]

/-- Turns that all failed have no answer among them. -/
theorem answers_eq_nil (h : ∀ t ∈ turns, Failed t) : turns.answers = [] := by
  refine List.filterMap_eq_nil_iff.mpr fun turn hturn => ?_
  obtain ⟨fault, hfault⟩ := h turn hturn
  rw [hfault]
  rfl

/-- One more turn that failed. -/
theorem failed_add (h : ∀ t ∈ turns, Failed t) (fault : Fault) :
    ∀ t ∈ turns.add i (.error (.fault fault)), Failed t := by
  intro t ht
  rcases mem_add.mp ht with hold | rfl
  · exact h t hold
  · exact ⟨fault, rfl⟩

end Turns

/-! ### A call under way -/

/-- A call has made these turns, none of them was aborted, and the flags
are what the turns make of them. -/
structure Underway (lenient : Bool) (before m : Mirror n) (turns : Turns n α) : Prop where
  settled : turns.aborts = []
  flags : ∀ i, Row.at_ m.broken i = true ↔ Row.at_ before.broken i = true ∨
    lenient = false ∧ ∃ fault, (i, .error (.fault fault)) ∈ turns

namespace Underway

variable {lenient : Bool} {before m : Mirror n} {turns : Turns n α} {i : Fin n}

/-- Before the first turn the flags are as they were. -/
theorem start (lenient : Bool) (m : Mirror n) : Underway lenient m m ([] : Turns n α) :=
  ⟨rfl, fun i => by simp⟩

/-- A member answers. -/
theorem answered (h : Underway lenient before m turns) (value : α) :
    Underway lenient before m (turns.add i (.ok value)) where
  settled := (Turns.aborts_add_ok turns i value).trans h.settled
  flags j := by simp [h.flags j, Turns.mem_add]

/-- A member fails and is given up. -/
theorem dropped (h : Underway false before m turns) (fault : Fault) :
    Underway false before (m.giveUp i) (turns.add i (.error (.fault fault))) where
  settled := (Turns.aborts_add_fault turns i fault).trans h.settled
  flags j := by
    -- The flag that is set now belongs to the turn that is added.
    rw [giveUp_eq_true, h.flags j]
    simp [Turns.mem_add, exists_or, or_left_comm, or_comm]

/-- A member fails to read and stays in use. -/
theorem unread (h : Underway true before m turns) (fault : Fault) :
    Underway true before m (turns.add i (.error (.fault fault))) where
  settled := (Turns.aborts_add_fault turns i fault).trans h.settled
  flags j := by simp [h.flags j]

end Underway

namespace Disciplined

variable {q : Request} {before m : Mirror n} {turns : Turns n q.Answer} {i : Fin n}
  {rest : List (Fin n)}

/-- A member is aborted, and the call with it. -/
theorem of_abort (h : Underway q.reads before m turns)
    (hlist : turns.map Prod.fst ++ i :: rest = before.inUse)
    (hfailed : q.spreads = false → ∀ t ∈ turns, Turns.Failed t) (abort : Abort) :
    Disciplined q before m (turns.add i (.error (.abort abort))) (.error (.abort abort)) where
  order := ⟨rest, (Turns.map_fst_add_append ..).trans hlist⟩
  everyone _ hno := (hno abort rfl).elim
  first hspreads := .inl ⟨turns, _, rfl, hfailed hspreads, fun ⟨_, hfault⟩ => nomatch hfault⟩
  answer := (Turns.verdict_add_abort turns i abort).symm
  flags j := by simp [h.flags j, Turns.mem_add]

/-- All members in use have had their turn. -/
theorem of_all (h : Underway q.reads before m turns) (hlist : turns.map Prod.fst = before.inUse)
    (hfailed : q.spreads = false → ∀ t ∈ turns, Turns.Failed t) :
    Disciplined q before m turns turns.verdict where
  order := hlist ▸ List.prefix_rfl
  everyone _ _ := hlist
  first hspreads := .inr ⟨hlist, hfailed hspreads⟩
  answer := rfl
  flags := h.flags

/-- A member answers after others have failed, and no other is called. -/
theorem of_first (h : Underway q.reads before m turns)
    (hlist : turns.map Prod.fst ++ i :: rest = before.inUse) (hspreads : q.spreads = false)
    (hfailed : ∀ t ∈ turns, Turns.Failed t) (value : q.Answer) :
    Disciplined q before m (turns.add i (.ok value)) (.ok value) where
  order := ⟨rest, (Turns.map_fst_add_append ..).trans hlist⟩
  everyone hyes := by
    rw [hspreads] at hyes
    cases hyes
  first _ := .inl ⟨turns, _, rfl, hfailed, fun ⟨_, hfault⟩ => nomatch hfault⟩
  answer := (Turns.verdict_add_ok h.settled i value).symm
  flags := (h.answered value).flags

end Disciplined

/-! ### The loops -/

/-- From a state of the mirror an operation adds turns to a record, by
which the whole call obeys the rule. -/
def Obeys (q : Request) (before : Mirror n) (log : List (Visit n))
    (poll : Op (Mirror n × List (Visit n) × σ) q.Answer) (s : Mirror n × List (Visit n) × σ) :
    Prop :=
  ∃ turns, (Op.next poll s).2.1 = log ++ turns.map (Visit.of q) ∧
    Disciplined q before (Op.next poll s).1 turns (Op.outcome poll s)

/-- The state of a mirror in a call that has made these turns. -/
abbrev amid (q : Request) (m : Mirror n) (log : List (Visit n)) (turns : Turns n q.Answer)
    (s : σ) : Mirror n × List (Visit n) × σ :=
  (m, log ++ turns.map (Visit.of q), s)

section Loops

variable {members : Fin n → Store σ} {q : Request} {m before : Mirror n} {s after : σ} {i : Fin n}
  {rest : List (Fin n)} {log : List (Visit n)} {turns : Turns n q.Answer}

section Turn

/-- One more turn is one more visit on the record. -/
theorem record_add (turns : Turns n q.Answer) (i : Fin n) (result : Except Stop q.Answer) :
    log ++ (turns.add i result).map (Visit.of q) =
      log ++ turns.map (Visit.of q) ++ [⟨i, q, result⟩] := by
  rw [Turns.add, List.map_append, ← List.append_assoc]
  rfl

/-- A member that is called answers, and the record has its turn. -/
theorem turn_ok {value : q.Answer} (h : members i q s = .ok value after) :
    Op.lower (watched members i q).attempt (amid q m log turns s) =
      .ok (.ok value) (amid q m log (turns.add i (.ok value)) after) := by
  simp only [amid, record_add, Op.lower, Op.attempt, watched, h]

/-- A member that is called fails. -/
theorem turn_fault {fault : Fault} (h : members i q s = .error (.fault fault) after) :
    Op.lower (watched members i q).attempt (amid q m log turns s) =
      .ok (.error fault) (amid q m log (turns.add i (.error (.fault fault))) after) := by
  simp only [amid, record_add, Op.lower, Op.attempt, watched, h]

/-- A member that is called is aborted. -/
theorem turn_abort {abort : Abort} (h : members i q s = .error (.abort abort) after) :
    Op.lower (watched members i q).attempt (amid q m log turns s) =
      .error (.abort abort) (amid q m log (turns.add i (.error (.abort abort))) after) := by
  simp only [amid, record_add, Op.lower, Op.attempt, watched, h]

end Turn

namespace Obeys

variable {poll poll' : Op (Mirror n × List (Visit n) × σ) q.Answer}
  {t t' : Mirror n × List (Visit n) × σ}

/-- An operation that ends with a value as the rule has it. -/
theorem of_ok {value : q.Answer} (hrun : poll t = .ok value (amid q m log turns after))
    (h : Disciplined q before m turns (.ok value)) : Obeys q before log poll t := by
  unfold Obeys Op.next Op.outcome
  rw [hrun]
  exact ⟨turns, rfl, h⟩

/-- An operation that stops as the rule has it. -/
theorem of_error {stop : Stop} (hrun : poll t = .error stop (amid q m log turns after))
    (h : Disciplined q before m turns (.error stop)) : Obeys q before log poll t := by
  unfold Obeys Op.next Op.outcome
  rw [hrun]
  exact ⟨turns, rfl, h⟩

/-- An operation that comes to another one. -/
theorem of_eq (hrun : poll t = poll' t') (h : Obeys q before log poll' t') :
    Obeys q before log poll t := by
  unfold Obeys Op.next Op.outcome at h ⊢
  rwa [hrun]

end Obeys

variable [Journal σ]

/-- Giving a member up touches its flag and no record. -/
theorem exists_drop (i : Fin n) (fault : Fault) (m : Mirror n) (log : List (Visit n)) (s : σ) :
    ∃ after, drop i fault (m, log, s) = .ok () (m.giveUp i, log, after) := by
  unfold drop
  simp only [Op.bind_apply, Op.own, Op.modifyOwn]
  split
  · exact ⟨_, rfl⟩
  · exact ⟨_, rfl⟩

/-- All the rest of the members are asked. -/
theorem askAll_obeys (hspreads : q.spreads = true) (h : Underway false before m turns)
    (hlist : turns.map Prod.fst ++ rest = before.inUse) (s : σ) :
    Obeys q before log
      (askAll (fun i => watched members i q) turns.answers.getLast? turns.faults.getLast? rest)
      (amid q m log turns s) := by
  have hreads := Request.reads_eq_false hspreads
  have hfailed : ∀ turns : Turns n q.Answer, q.spreads = false → ∀ t ∈ turns, Turns.Failed t := by
    intro _ hno
    rw [hspreads] at hno
    cases hno
  -- The loop carries the last answer and the last fault of the turns so far, so the turns are
  -- what the induction changes.
  induction rest generalizing turns m s with
  | nil =>
    rw [List.append_nil] at hlist
    have hall := Disciplined.of_all (hreads ▸ h) hlist (hfailed turns)
    rw [Turns.verdict_of_settled h.settled] at hall
    cases hlast : turns.answers.getLast? with
    | some value =>
      rw [hlast] at hall
      exact .of_ok rfl hall
    | none =>
      rw [hlast] at hall
      exact .of_error rfl hall
  | cons i rest ih =>
    have hmore : ∀ result, (turns.add i result).map Prod.fst ++ rest = before.inUse :=
      fun result => (Turns.map_fst_add_append turns i result rest).trans hlist
    cases hx : members i q s with
    | ok value after =>
      refine .of_eq ?_ (ih (h.answered value) (hmore (.ok value)) after)
      rw [askAll, Op.bind_of_ok (turn_ok hx), Turns.answers_add_ok, Turns.faults_add_ok,
        List.getLast?_concat]
    | error stop after =>
      cases stop with
      | abort abort =>
        exact .of_error (Op.bind_of_error (turn_abort hx) _)
          (.of_abort (hreads ▸ h) hlist (hfailed turns) abort)
      | fault fault =>
        -- The record has the turn before the flag is set.
        obtain ⟨after', hdrop⟩ := exists_drop i fault m
          (log ++ (turns.add i (.error (.fault fault))).map (Visit.of q)) after
        refine .of_eq ?_ (ih (h.dropped fault) (hmore (.error (.fault fault))) after')
        rw [askAll, Op.bind_of_ok (turn_fault hx), Turns.answers_add_error,
          Turns.faults_add_fault, List.getLast?_concat]
        exact Op.bind_of_ok hdrop _

/-- Members are asked up to the first that does not fail. -/
theorem askFirst_obeys (hspreads : q.spreads = false) (hreads : q.reads = false)
    (h : Underway false before m turns) (hfailed : ∀ t ∈ turns, Turns.Failed t)
    (hlist : turns.map Prod.fst ++ rest = before.inUse) (s : σ) :
    Obeys q before log (askFirst (fun i => watched members i q) turns.faults.getLast? rest)
      (amid q m log turns s) := by
  -- As all turns so far have failed, the loop carries their last fault only.
  induction rest generalizing turns m s with
  | nil =>
    rw [List.append_nil] at hlist
    -- Nobody has answered, so the mirror tells the last fault, or that there was nobody to call.
    have hall := Disciplined.of_all (hreads ▸ h) hlist fun _ => hfailed
    rw [Turns.verdict_of_settled h.settled, Turns.answers_eq_nil hfailed] at hall
    exact .of_error rfl hall
  | cons i rest ih =>
    have hmore : ∀ result, (turns.add i result).map Prod.fst ++ rest = before.inUse :=
      fun result => (Turns.map_fst_add_append turns i result rest).trans hlist
    cases hx : members i q s with
    | ok value after =>
      have hrun : askFirst (fun i => watched members i q) turns.faults.getLast? (i :: rest)
          (amid q m log turns s) = .ok value (amid q m log (turns.add i (.ok value)) after) := by
        rw [askFirst, Op.bind_of_ok (turn_ok hx)]
        rfl
      exact .of_ok hrun (.of_first (hreads ▸ h) hlist hspreads hfailed value)
    | error stop after =>
      cases stop with
      | abort abort =>
        exact .of_error (Op.bind_of_error (turn_abort hx) _)
          (.of_abort (hreads ▸ h) hlist (fun _ => hfailed) abort)
      | fault fault =>
        obtain ⟨after', hdrop⟩ := exists_drop i fault m
          (log ++ (turns.add i (.error (.fault fault))).map (Visit.of q)) after
        refine .of_eq ?_ (ih (h.dropped fault) (Turns.failed_add hfailed fault) (hmore _) after')
        rw [askFirst, Op.bind_of_ok (turn_fault hx), Turns.faults_add_fault,
          List.getLast?_concat]
        exact Op.bind_of_ok hdrop _

/-- Members are read up to the first that does not fail. -/
theorem readFirst_obeys {a : Address} {turns : Turns n Block}
    (h : Underway true before m turns) (hfailed : ∀ t ∈ turns, Turns.Failed t)
    (hlist : turns.map Prod.fst ++ rest = before.inUse) (s : σ) :
    Obeys (.read a) before log (readFirst (watched members) a turns.faults.getLast? rest)
      (amid (.read a) m log turns s) := by
  -- The flags stay through the loop, so only the turns and the state of the members are
  -- generalized.
  induction rest generalizing turns s with
  | nil =>
    rw [List.append_nil] at hlist
    have hall := Disciplined.of_all (q := .read a) h hlist fun _ => hfailed
    rw [Turns.verdict_of_settled h.settled, Turns.answers_eq_nil hfailed] at hall
    exact .of_error rfl hall
  | cons i rest ih =>
    have hmore : ∀ result, (turns.add i result).map Prod.fst ++ rest = before.inUse :=
      fun result => (Turns.map_fst_add_append turns i result rest).trans hlist
    cases hx : members i (.read a) s with
    | ok value after =>
      have hrun : readFirst (watched members) a turns.faults.getLast? (i :: rest)
          (amid (.read a) m log turns s) =
            .ok value (amid (.read a) m log (turns.add i (.ok value)) after) := by
        rw [readFirst, Op.bind_of_ok (turn_ok hx)]
        rfl
      exact .of_ok hrun (.of_first (q := .read a) h hlist rfl hfailed value)
    | error stop after =>
      cases stop with
      | abort abort =>
        exact .of_error (Op.bind_of_error (turn_abort hx) _)
          (.of_abort (q := .read a) h hlist (fun _ => hfailed) abort)
      | fault fault =>
        -- What the report makes of the state is of no concern to the record.
        refine .of_eq ?_ (ih (h.unread fault) (Turns.failed_add hfailed fault) (hmore _)
          (Journal.enter (.memberUnread a i fault) after))
        rw [readFirst, Op.bind_of_ok (turn_fault hx), Turns.faults_add_fault,
          List.getLast?_concat]
        rfl

end Loops

/-! ### Calls and runs -/

/-- A call of a mirror obeys the rule. -/
theorem store_obeys [Journal σ] (members : Fin n → Store σ) (q : Request) (m : Mirror n)
    (log : List (Visit n)) (s : σ) : Obeys q m log (store (watched members) q) (m, log, s) := by
  have hstart : (m, log, s) = amid q m log [] s := by simp [amid]
  rw [hstart]
  cases q with
  | capacity => exact askFirst_obeys rfl rfl (.start _ m) nofun rfl s
  | size ino => exact askFirst_obeys rfl rfl (.start _ m) nofun rfl s
  | resize ino blocks => exact askAll_obeys rfl (.start _ m) rfl s
  | read a => exact readFirst_obeys (.start _ m) nofun rfl s
  | write a block => exact askAll_obeys rfl (.start _ m) rfl s
  | sync ino => exact askAll_obeys rfl (.start _ m) rfl s

/-- A call adds to the record no visit of a member that was given up,
and takes no flag back. -/
theorem Obeys.step {q : Request} {m : Mirror n} {log : List (Visit n)}
    {poll : Op (Mirror n × List (Visit n) × σ) q.Answer} {s : Mirror n × List (Visit n) × σ}
    (h : Obeys q m log poll s) :
    ∃ later, (Op.next poll s).2.1 = log ++ later ∧
      ∀ i, Row.at_ m.broken i = true →
        Row.at_ (Op.next poll s).1.broken i = true ∧ ∀ visit ∈ later, visit.member ≠ i := by
  obtain ⟨turns, hlog, hrule⟩ := h
  refine ⟨turns.map (Visit.of q), hlog, fun i hi => ⟨(hrule.flags i).mpr (.inl hi), ?_⟩⟩
  intro visit hvisit heq
  obtain ⟨turn, hturn, rfl⟩ := List.mem_map.mp hvisit
  -- Turns are among the members in use, and this one is not.
  have hlive : turn.1 ∈ m.inUse := hrule.order.subset (List.mem_map_of_mem hturn)
  rw [mem_inUse, show turn.1 = i from heq, hi] at hlive
  cases hlive

/-- A run adds to the record no visit of a member that was given up
before it, and takes no flag back. -/
theorem after_spares [Journal σ] (members : Fin n → Store σ) (calls : List Request) (m : Mirror n)
    (log : List (Visit n)) (s : σ) :
    ∃ later, (Op.after (store (watched members)) calls (m, log, s)).2.1 = log ++ later ∧
      ∀ i, Row.at_ m.broken i = true →
        Row.at_ (Op.after (store (watched members)) calls (m, log, s)).1.broken i = true ∧
          ∀ visit ∈ later, visit.member ≠ i := by
  -- By induction on the calls, with the flags, the record and the state generalized.
  induction calls generalizing m log s with
  | nil => exact ⟨[], (List.append_nil log).symm, fun i hi => ⟨hi, nofun⟩⟩
  | cons q rest ih =>
    obtain ⟨first, hfirst, hspared⟩ := (store_obeys members q m log s).step
    rcases hnext : Op.next (store (watched members) q) (m, log, s) with ⟨m', log', s'⟩
    rw [hnext] at hfirst hspared
    obtain ⟨later, hlater, hspared'⟩ := ih m' log' s'
    refine ⟨first ++ later, ?_, fun i hi => ?_⟩
    · rw [Op.after, hnext, hlater, show log' = log ++ first from hfirst, List.append_assoc]
    · -- The first call leaves the flag set, so the rest of the run spares the member too.
      obtain ⟨hflag, hnot⟩ := hspared i hi
      obtain ⟨hflag', hnot'⟩ := hspared' i hflag
      rw [Op.after, hnext]
      refine ⟨hflag', fun visit hvisit => ?_⟩
      rcases List.mem_append.mp hvisit with h | h
      · exact hnot visit h
      · exact hnot' visit h

/-- The calls of the members of a mirror, whatever the members do and
whichever were given up. A run ends alike with the record or without it.
Every call obeys the rule: the turns that it adds to the record, the
flags, and what it ends with. And in a run of any length a member that
was given up stays so and is never called again. -/
theorem calls_disciplined [Journal σ] (members : Fin n → Store σ) (m : Mirror n)
    (log : List (Visit n)) (s : σ) :
    (∀ calls,
      Op.outcomes (store (watched members)) calls (m, log, s) =
        Op.outcomes (store members) calls (m, s) ∧
      (Op.after (store (watched members)) calls (m, log, s)).1 =
        (Op.after (store members) calls (m, s)).1) ∧
    (∀ q, ∃ turns,
      (Op.next (store (watched members) q) (m, log, s)).2.1 = log ++ turns.map (Visit.of q) ∧
      Disciplined q m (Op.next (store (watched members) q) (m, log, s)).1 turns
        (Op.outcome (store (watched members) q) (m, log, s))) ∧
    ∀ calls, ∃ later,
      (Op.after (store (watched members)) calls (m, log, s)).2.1 = log ++ later ∧
      ∀ i, Row.at_ m.broken i = true →
        Row.at_ (Op.after (store (watched members)) calls (m, log, s)).1.broken i = true ∧
          ∀ visit ∈ later, visit.member ≠ i := by
  have hstart : Op.Beside (fun t s => t.2 = s) (m, log, s) (m, s) := ⟨rfl, rfl⟩
  refine ⟨fun calls => ⟨?_, ?_⟩, fun q => store_obeys members q m log s,
    fun calls => after_spares members calls m log s⟩
  · exact Op.outcomes_eq (fun q => store_watched members q) calls hstart
  · exact (Op.Agrees.after (store_watched members) calls hstart).1

/-- A sync of three members on one store, the third of which was given
up and the first of which fails. The first two are called, the first is
given up, and no call of the run goes to the third. -/
theorem calls_disciplined_three :
    let members : Fin 3 → Store Memory :=
      fun i q => if i = 0 then Op.fail (.noInode 0 0) else Memory.store q
    let m : Mirror 3 := (fresh 3).giveUp 2
    let run := Op.after (store (watched members)) [.sync 0, .read ⟨0, 0⟩, .size 0]
      (m, [], Memory.empty 1)
    Row.at_ m.broken 2 = true ∧
      (∃ turns, Disciplined (.sync 0) m (m.giveUp 0) turns (.ok ()) ∧
        turns.map Prod.fst = [0, 1]) ∧
      run.2.1.map Visit.member = [0, 1, 1, 1] ∧
      Row.at_ run.1.broken 2 = true ∧ ∀ visit ∈ run.2.1, visit.member ≠ 2 := by
  intro members m run
  obtain ⟨-, hcall, hrun⟩ := calls_disciplined members m [] (Memory.empty 1)
  obtain ⟨turns, -, hrule⟩ := hcall (.sync 0)
  -- The run is computed, and the rule for the sync is the one of the first call.
  obtain ⟨later, hlater, hspared⟩ := hrun [.sync 0, .read ⟨0, 0⟩, .size 0]
  have hrule : Disciplined (.sync 0) m (m.giveUp 0) turns (.ok ()) := hrule
  have hlater : run.2.1 = later := hlater
  rw [hlater]
  refine ⟨rfl, ⟨turns, hrule, hrule.everyone rfl nofun⟩, ?_, hspared 2 rfl⟩
  rw [← hlater]
  rfl

end BlockLayers.Mirror
