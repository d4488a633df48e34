import BlockLayers.Proofs.Copy
import BlockLayers.Proofs.Mirror.Members
import BlockLayers.Proofs.Run

/-!
# `BlockLayers.Proofs.Mirror.Spread`: what a mirror has its members do

A change or a sync goes to every member in use, and members that fail
are given up. So a run of such requests is a run of them on each member
that is left in the end, whichever members were lost on the way and
whenever that was: a member that was lost would have failed in a run of
its own too. `Mirror.Spread x y` says so of the operation `y` of a
mirror, where `x i` is the same operation on member `i`.

The answers of the members to one request need not be the same, and the
mirror passes on one of them, so what follows a request may not depend
on its answer (`Spread.request_seq`).

Main statement: `copyIn_spread`, for the copy of a byte string.
-/

set_option autoImplicit false

namespace BlockLayers.Mirror

variable {n : Nat} {τ : Fin n → Type} {α β : Type}

/-! ### Requests to every member -/

section Called

variable {member : (i : Fin n) → Store (τ i)} {q : Request} {s after : Mirror n × Members τ}
  {i : Fin n}

/-- Members that are in use after a call were in use before it. -/
theorem Called.of_mem_inUse (h : Called member q s after) (hi : i ∈ after.1.inUse) :
    i ∈ s.1.inUse := by
  by_contra hnot
  exact hnot (mem_inUse.mpr ((congrArg Prod.snd ((h i).2 hnot)).symm.trans (mem_inUse.mp hi)))

/-- A member in use answers a request that goes to all of them, or it
fails and is given up. -/
theorem Called.fate (h : Called member q s after) (hspreads : q.spreads = true)
    (hi : i ∈ s.1.inUse) :
    (i ∈ after.1.inUse ∧ ∃ answer, member i q (s.2 i) = .ok answer (after.2 i)) ∨
      i ∉ after.1.inUse ∧ ∃ fault, member i q (s.2 i) = .error (.fault fault) (after.2 i) := by
  rcases (h i).1 hi with ⟨hall, -⟩ | ⟨answer, hanswer, hflag⟩ | ⟨fault, hfault, hflag⟩ | ⟨hreads, -⟩
  · -- No member is passed over, and none that fails stays in use.
    exact (hall hspreads).elim
  · exact .inl ⟨mem_inUse.mpr (hflag.trans (mem_inUse.mp hi)), answer, hanswer⟩
  · refine .inr ⟨fun hafter => ?_, fault, hfault⟩
    cases hflag.symm.trans (mem_inUse.mp hafter)
  · rw [Request.reads_eq_false hspreads] at hreads
    cases hreads

end Called

/-! ### Runs of such requests -/

/-- What has become of the members when the mirror answers: those that
are left have done the operation, with the same answer, and those that
were lost fail it. Some are left if there were some. -/
structure Done (x : (i : Fin n) → Op (τ i) α) (value : α) (s after : Mirror n × Members τ) :
    Prop where
  left : s.1.inUse ≠ [] → after.1.inUse ≠ []
  did : ∀ i ∈ after.1.inUse, i ∈ s.1.inUse ∧ x i (s.2 i) = .ok value (after.2 i)
  lost : ∀ i ∈ s.1.inUse, i ∉ after.1.inUse → ∃ fault t, x i (s.2 i) = .error (.fault fault) t

section Done

variable {x : (i : Fin n) → Op (τ i) α} {f : (i : Fin n) → α → Op (τ i) β} {value : α}
  {s mid : Mirror n × Members τ} {i : Fin n}

/-- A member that is left goes on with a second operation. -/
theorem Done.bind_of_mem (h : Done x value s mid) (hi : i ∈ mid.1.inUse) :
    (x i >>= f i) (s.2 i) = f i value (mid.2 i) :=
  Op.bind_of_ok (h.did i hi).2 _

/-- A member that was lost does not come to it. -/
theorem Done.bind_of_lost (h : Done x value s mid) (hi : i ∈ s.1.inUse) (hnot : i ∉ mid.1.inUse) :
    ∃ fault t, (x i >>= f i) (s.2 i) = .error (.fault fault) t := by
  obtain ⟨fault, t, hfault⟩ := h.lost i hi hnot
  exact ⟨fault, t, Op.bind_of_error hfault _⟩

end Done

/-- What an operation of a mirror makes of the members. Where it fails,
none is left and all of them fail it, and where it is aborted, one of
them is. -/
def Spread (x : (i : Fin n) → Op (τ i) α) (y : Op (Mirror n × Members τ) α) : Prop :=
  ∀ s, match y s with
    | .ok value after => Done x value s after
    | .error (.fault _) after => after.1.inUse = [] ∧ AllFail x s.2 s.1.inUse
    | .error (.abort _) _ => s.1.inUse ≠ [] → SomeAborts x s.2 s.1.inUse

namespace Spread

variable {x : (i : Fin n) → Op (τ i) α} {y : Op (Mirror n × Members τ) α}
  {s after : Mirror n × Members τ}

/-- What an answer of the mirror says of the members. -/
theorem done (h : Spread x y) {value : α} (hrun : y s = .ok value after) :
    Done x value s after := by
  have hs := h s
  rwa [hrun] at hs

/-- What a fault of the mirror says of the members. -/
theorem exhausted (h : Spread x y) {fault : Fault} (hrun : y s = .error (.fault fault) after) :
    after.1.inUse = [] ∧ AllFail x s.2 s.1.inUse := by
  have hs := h s
  rwa [hrun] at hs

/-- What an abort of the mirror says of the members. -/
theorem aborted (h : Spread x y) {abort : Abort} (hrun : y s = .error (.abort abort) after)
    (hlive : s.1.inUse ≠ []) : SomeAborts x s.2 s.1.inUse := by
  have hs := h s
  rw [hrun] at hs
  exact hs hlive

/-- A value is given by all members. -/
theorem pure {value : α} :
    Spread (fun i => (Pure.pure value : Op (τ i) α)) (Pure.pure value) :=
  fun _ => ⟨id, fun _ hi => ⟨hi, rfl⟩, fun _ hi hnot => (hnot hi).elim⟩

/-- A checked computation is the same for all. -/
theorem lift {result : Except Abort α} :
    Spread (fun i => (liftM result : Op (τ i) α)) (liftM result) := by
  intro s
  cases result with
  | ok value => exact pure s
  | error abort =>
    intro hlive
    obtain ⟨i, hi⟩ := List.exists_mem_of_ne_nil _ hlive
    exact ⟨i, hi, abort, s.2 i, rfl⟩

/-- Two operations in turn. -/
theorem bind {f : (i : Fin n) → α → Op (τ i) β} {g : α → Op (Mirror n × Members τ) β}
    (h : Spread x y) (hf : ∀ value, Spread (fun i => f i value) (g value)) :
    Spread (fun i => x i >>= f i) (y >>= g) := by
  intro s
  rw [Op.bind_apply]
  cases hy : y s with
  | error stop mid =>
    cases stop with
    | fault fault =>
      obtain ⟨hnone, hfail⟩ := h.exhausted hy
      refine ⟨hnone, fun i hi => ?_⟩
      obtain ⟨fault, t, hfault⟩ := hfail i hi
      exact ⟨fault, t, Op.bind_of_error hfault _⟩
    | abort abort =>
      intro hlive
      obtain ⟨i, hi, abort, t, habort⟩ := h.aborted hy hlive
      exact ⟨i, hi, abort, t, Op.bind_of_error habort _⟩
  | ok value mid =>
    have hx := h.done hy
    dsimp only
    cases hrun : g value mid with
    | ok value' after =>
      have hg := (hf value).done hrun
      refine ⟨hg.left ∘ hx.left, fun i hi => ?_, fun i hi hnot => ?_⟩
      · -- A member that is left after both was left after the first.
        obtain ⟨hmid, hdid⟩ := hg.did i hi
        exact ⟨(hx.did i hmid).1, (hx.bind_of_mem hmid).trans hdid⟩
      · -- A member was lost in the second operation, or it did not come to it.
        by_cases hmid : i ∈ mid.1.inUse
        · obtain ⟨fault, t, hfault⟩ := hg.lost i hmid hnot
          exact ⟨fault, t, (hx.bind_of_mem hmid).trans hfault⟩
        · exact hx.bind_of_lost hi hmid
    | error stop after =>
      cases stop with
      | fault fault =>
        obtain ⟨hnone, hrest⟩ := (hf value).exhausted hrun
        refine ⟨hnone, fun i hi => ?_⟩
        by_cases hmid : i ∈ mid.1.inUse
        · obtain ⟨fault, t, hfault⟩ := hrest i hmid
          exact ⟨fault, t, (hx.bind_of_mem hmid).trans hfault⟩
        · exact hx.bind_of_lost hi hmid
      | abort abort =>
        intro hlive
        obtain ⟨i, hmid, abort, t, habort⟩ := (hf value).aborted hrun (hx.left hlive)
        exact ⟨i, (hx.did i hmid).1, abort, t, (hx.bind_of_mem hmid).trans habort⟩

/-- A request that goes to all members in use, without its answer. -/
theorem request {member : (i : Fin n) → Store (τ i)} {q : Request} (hspreads : q.spreads = true) :
    Spread (fun i => member i q >>= fun _ => Pure.pure ())
      (store (Members.stores member) q >>= fun _ => Pure.pure ()) := by
  intro s
  -- The mirror answers, all members fail, or one of them is aborted.
  have hpolls := store_polls member q s
  rw [Op.bind_apply]
  cases hrun : store (Members.stores member) q s with
  | error stop after =>
    cases stop with
    | abort abort =>
      intro _
      rcases hpolls with ⟨⟨i, hi, abort, t, habort⟩, -⟩ | hends
      · exact ⟨i, hi, abort, t, Op.bind_of_error habort _⟩
      · exact (hends.not_abort hrun).elim
    | fault fault =>
      rcases hpolls with ⟨-, abort, t, habort⟩ | hends
      · cases hrun.symm.trans habort
      obtain ⟨hcalled, -, hfail⟩ := hends.bad_of hrun
      -- A member that is left would have answered, and none did.
      refine ⟨List.eq_nil_iff_forall_not_mem.mpr fun i hi => ?_, fun i hi => ?_⟩
      · have hbefore := Called.of_mem_inUse hcalled hi
        obtain ⟨fault, t, hfault⟩ := hfail i hbefore
        rcases Called.fate hcalled hspreads hbefore with ⟨-, _, hanswer⟩ | ⟨hnot, -⟩
        · cases hfault.symm.trans hanswer
        · exact hnot hi
      · obtain ⟨fault, t, hfault⟩ := hfail i hi
        exact ⟨fault, t, Op.bind_of_error hfault _⟩
  | ok value after =>
    rcases hpolls with ⟨-, abort, t, habort⟩ | hends
    · cases hrun.symm.trans habort
    obtain ⟨hcalled, hsource⟩ := hends.good_of hrun
    refine ⟨fun _ => ?_, fun i hi => ?_, fun i hi hnot => ?_⟩
    · -- The member that gave the answer is left.
      obtain ⟨i, hi, t, hanswer⟩ := hsource.resolve_left nofun
      rcases Called.fate hcalled hspreads hi with ⟨hafter, -⟩ | ⟨-, fault, hfault⟩
      · exact List.ne_nil_of_mem hafter
      · cases hanswer.symm.trans hfault
    · have hbefore := Called.of_mem_inUse hcalled hi
      rcases Called.fate hcalled hspreads hbefore with ⟨-, answer, hanswer⟩ | ⟨hnot, -⟩
      · exact ⟨hbefore, Op.bind_of_ok hanswer _⟩
      · exact (hnot hi).elim
    · rcases Called.fate hcalled hspreads hi with ⟨hafter, -⟩ | ⟨-, fault, hfault⟩
      · exact (hnot hafter).elim
      · exact ⟨fault, _, Op.bind_of_error hfault _⟩

/-- A request that goes to all members in use, and what follows it
whatever they answer. -/
theorem request_seq {member : (i : Fin n) → Store (τ i)} {q : Request}
    (hspreads : q.spreads = true) (h : Spread x y) :
    Spread (fun i => member i q >>= fun _ => x i)
      (store (Members.stores member) q >>= fun _ => y) := by
  have hrequest : Spread (fun i => member i q >>= fun _ => Pure.pure ()) _ := request hspreads
  simpa only [bind_assoc, pure_bind] using hrequest.bind fun _ => h

end Spread

/-! ### A copy -/

variable {member : (i : Fin n) → Store (τ i)} {ino : UInt32}

/-- The pieces are written one after the other, each to every member in
use. -/
theorem writePieces_spread (pieces : List (List UInt8)) (number : UInt32) :
    Spread (fun i => writePieces (member i) ino pieces number)
      (writePieces (store (Members.stores member)) ino pieces number) := by
  -- The number of the next block is checked alike by the mirror and by each member.
  induction pieces generalizing number with
  | nil => exact .pure
  | cons piece rest ih => exact .request_seq rfl (.bind .lift ih)

/-- A copy into a mirror is a copy into each member that is left. -/
theorem copyIn_spread (bytes : List UInt8) :
    Spread (fun i => copyIn (member i) ino bytes)
      (copyIn (store (Members.stores member)) ino bytes) :=
  .request_seq rfl (.bind (writePieces_spread _ _) fun _ => .request_seq rfl .pure)

end BlockLayers.Mirror
