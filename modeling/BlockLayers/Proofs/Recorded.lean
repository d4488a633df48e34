import BlockLayers.Proofs.Below
import BlockLayers.Proofs.Concludes

/-!
# `BlockLayers.Proofs.Recorded`: a store with a record of its calls

`Recorded.store below` answers its calls from the store `below` and
writes each of them down, with whether it was answered. It shows what a
layer asked of the store below it, and in what it was not to blame.

`Lists` is the contract of a store whose calls succeed, with a list of the
requests that it was asked; a record is such a list (`Lists.recorded`).

Main statements: `Recorded.discloses`, `Recorded.legible`, `Recorded.takes`,
`Recorded.permits` and `Recorded.medium`. A contract of the store below still holds, and the
requests on the record are among those that it is about.
-/

set_option autoImplicit false

namespace BlockLayers

/-- A call that was made of a store. -/
structure Exchange where
  /-- The request. -/
  request : Request
  /-- Whether it ended with a value. -/
  answered : Bool
  deriving DecidableEq

namespace Recorded

variable {σ : Type} {below : Store σ}

/-- The store `below` with a record of its calls. -/
def store (below : Store σ) : Store (List Exchange × σ) := fun q (record, s) =>
  match below q s with
  | .ok value after => .ok value (record ++ [⟨q, true⟩], after)
  | .error stop after => .error stop (record ++ [⟨q, false⟩], after)

/-- A call ends as it does below, and is on the record. -/
theorem store_apply (q : Request) (record : List Exchange) (s : σ) :
    store below q (record, s) = match below q s with
      | .ok value after => .ok value (record ++ [⟨q, true⟩], after)
      | .error stop after => .error stop (record ++ [⟨q, false⟩], after) := rfl

/-- Every request on the record is one that may be `asked`. -/
def Asked (asked : Request → Prop) (record : List Exchange) : Prop :=
  ∀ call ∈ record, asked call.request

/-- Nothing is on an empty record. -/
theorem asked_nil (asked : Request → Prop) : Asked asked [] := by simp [Asked]

/-- One more call that may be asked is on the record. -/
theorem Asked.append {asked : Request → Prop} {record : List Exchange} (h : Asked asked record)
    {q : Request} (hq : asked q) (answered : Bool) : Asked asked (record ++ [⟨q, answered⟩]) := by
  intro call hcall
  rcases List.mem_append.mp hcall with hold | hnew
  · exact h call hold
  · rw [List.mem_singleton.mp hnew]
    exact hq

/-- No call on the record was a change. -/
def Unchanging (record : List Exchange) : Prop :=
  ∀ call ∈ record, call.request.changes = false

/-- One more call that is no change is on the record. -/
theorem Unchanging.append {record : List Exchange} (h : Unchanging record) {q : Request}
    (hq : q.changes = false) (answered : Bool) : Unchanging (record ++ [⟨q, answered⟩]) :=
  (show Asked (fun q => q.changes = false) record from h).append hq answered

/-- A call on the record was not answered. -/
def Denied (record : List Exchange) : Prop := ∃ call ∈ record, call.answered = false

/-- A call that was not answered stands on the record. -/
theorem denied_append (record : List Exchange) (q : Request) :
    Denied (record ++ [⟨q, false⟩]) := ⟨⟨q, false⟩, by simp, rfl⟩

/-- A call is written down and answered as it is below, or written down
as one that was not answered. -/
theorem store_concludes (record : List Exchange) {q : Request} {s : σ}
    {good : q.Answer → σ → Prop}
    (h : ∀ value after, below q s = .ok value after → good value after) :
    Op.Concludes (store below q) (record, s)
      (fun value after => after.1 = record ++ [⟨q, true⟩] ∧ good value after.2)
      (fun _ after => Denied after.1) True := by
  cases hrun : below q s with
  | ok value after => exact .of_ok (by rw [store_apply, hrun]) ⟨rfl, h value after hrun⟩
  | error stop after =>
    cases stop with
    | fault fault => exact .of_fault (by rw [store_apply, hrun]) (denied_append record q)
    | abort => exact .of_abort (by rw [store_apply, hrun]) trivial

/-! ### Contracts -/

/-- A request that may be asked ends as it does below. -/
theorem store_ends {asked : Request → Prop} {q : Request} (hq : asked q) {t : List Exchange × σ}
    (h : Asked asked t.1) {good : q.Answer → σ → Prop} {bad : Fault → σ → Prop}
    (hends : Op.Ends (below q) t.2 good bad) :
    Op.Ends (store below q) t (fun answer after => Asked asked after.1 ∧ good answer after.2)
      (fun fault after => Asked asked after.1 ∧ bad fault after.2) := by
  obtain ⟨record, s⟩ := t
  -- The record grows in both ends, and what it says of the request is the same.
  rcases hends.exists_run with ⟨_, _, hrun, hgood⟩ | ⟨_, _, hrun, hbad⟩
  · exact .of_ok (by rw [store_apply, hrun]) ⟨h.append hq true, hgood⟩
  · exact .of_fault (by rw [store_apply, hrun]) ⟨h.append hq false, hbad⟩

variable [Journal σ] {asked : Request → Prop} {ino : UInt32} {size : Nat} {may : Nat → Prop}
  {blame : Fault → σ → Prop} {holds : σ → (Nat → Block) → Prop}

/-- The places that can be read can be read with a record. -/
theorem discloses {shown : Nat → Prop} (h : Discloses below ino shown blame holds)
    (hread : ∀ n : UInt32, shown n.toNat → asked (.read ⟨ino, n⟩)) :
    Discloses (store below) ino shown (fun fault t => blame fault t.2)
      (fun t image => Asked asked t.1 ∧ holds t.2 image) where
  read ht hn := (store_ends (hread _ hn) ht.1 (h.read ht.2 hn)).mono
    (fun _ _ ⟨hasked, hblock, hkept⟩ => ⟨hblock, hasked, hkept⟩)
    fun _ _ ⟨hasked, hkept, hblame⟩ => ⟨⟨hasked, hkept⟩, hblame⟩
  note event ht := ⟨ht.1, h.note event ht.2⟩

/-- A medium that can be read can be read with a record. -/
theorem legible (h : Legible below ino size blame holds) (hsize : asked (.size ino))
    (hread : ∀ n : UInt32, n.toNat < size → asked (.read ⟨ino, n⟩)) :
    Legible (store below) ino size (fun fault t => blame fault t.2)
      (fun t image => Asked asked t.1 ∧ holds t.2 image) where
  toDiscloses := discloses h.toDiscloses hread
  size ht := (store_ends hsize ht.1 (h.size ht.2)).mono
    (fun _ _ ⟨hasked, hcount, hkept⟩ => ⟨hcount, hasked, hkept⟩)
    fun _ _ ⟨hasked, hkept, hblame⟩ => ⟨⟨hasked, hkept⟩, hblame⟩

omit [Journal σ] in
/-- The places that can be written can be written with a record. -/
theorem takes (h : Takes below ino may blame holds)
    (hwrite : ∀ (n : UInt32) block, may n.toNat → asked (.write ⟨ino, n⟩ block)) :
    Takes (store below) ino may (fun fault t => blame fault t.2)
      (fun t image => Asked asked t.1 ∧ holds t.2 image) where
  write block ht hn := (store_ends (hwrite _ block hn) ht.1 (h.write block ht.2 hn)).mono
    (fun _ _ hgood => hgood) fun _ _ ⟨hasked, hkept, hblame⟩ => ⟨⟨hasked, hkept⟩, hblame⟩

/-- A medium that keeps what is written to some places keeps it with a
record. -/
theorem permits (h : Permits below ino size may blame holds) (hsize : asked (.size ino))
    (hread : ∀ n : UInt32, n.toNat < size → asked (.read ⟨ino, n⟩))
    (hwrite : ∀ (n : UInt32) block, may n.toNat → asked (.write ⟨ino, n⟩ block)) :
    Permits (store below) ino size may (fun fault t => blame fault t.2)
      (fun t image => Asked asked t.1 ∧ holds t.2 image) where
  toLegible := legible h.toLegible hsize hread
  write := (takes h.takes hwrite).write

/-- A medium that keeps what is written to some places is written to
there only. -/
theorem permits_writes (h : Permits below ino size may blame holds) :
    Permits (store below) ino size may (fun fault t => blame fault t.2)
      (fun t image => Asked (Request.Writes ino may) t.1 ∧ holds t.2 image) :=
  permits h (.of_not_changes rfl ino may) (fun _ _ => .of_not_changes rfl ino may)
    fun n block hn _ => ⟨n, block, rfl, hn⟩

/-- A medium keeps its blocks with a record. -/
theorem medium (h : Medium below ino size blame holds) (hsize : asked (.size ino))
    (hread : ∀ n : UInt32, n.toNat < size → asked (.read ⟨ino, n⟩))
    (hwrite : ∀ (n : UInt32) block, n.toNat < size → asked (.write ⟨ino, n⟩ block))
    (hsync : asked (.sync ino)) :
    Medium (store below) ino size (fun fault t => blame fault t.2)
      (fun t image => Asked asked t.1 ∧ holds t.2 image) where
  toPermits := permits h.toPermits hsize hread hwrite
  sync ht := (store_ends hsync ht.1 (h.sync ht.2)).mono (fun _ _ hgood => hgood)
    fun _ _ ⟨hasked, hkept, hblame⟩ => ⟨⟨hasked, hkept⟩, hblame⟩

end Recorded

/-! ### Stores with a list of their requests -/

/-- A store that answers every read and keeps every write of the places
that are `shown`, with a list of the requests that it was asked. -/
structure Lists {σ : Type} [Journal σ] (below : Store σ) (ino : UInt32) (shown : Nat → Prop)
    (kept : σ → (Nat → Block) → List Request → Prop) : Prop where
  /-- A block that is read is the one that is there. -/
  read : ∀ {s : σ} {image : Nat → Block} {log : List Request} {n : UInt32}, kept s image log →
    shown n.toNat → Op.Ends (below (.read ⟨ino, n⟩)) s
      (fun block after => block = image n.toNat ∧ kept after image (log ++ [.read ⟨ino, n⟩]))
      fun _ _ => False
  /-- A block is written. -/
  write : ∀ {s : σ} {image : Nat → Block} {log : List Request} {n : UInt32} (block : Block),
    kept s image log → shown n.toNat → Op.Ends (below (.write ⟨ino, n⟩ block)) s
      (fun _ after =>
        kept after (Function.update image n.toNat block) (log ++ [.write ⟨ino, n⟩ block]))
      fun _ _ => False
  /-- A report changes no content. -/
  note : ∀ {s : σ} {image : Nat → Block} {log : List Request} (event : Event), kept s image log →
    kept (Journal.enter event s) image log

section Lists

variable {σ : Type} [Journal σ] {below : Store σ} {ino : UInt32} {shown : Nat → Prop}
  {holds : σ → (Nat → Block) → Prop}

/-- A store whose calls succeed, whatever it was asked. -/
theorem Lists.plain (hD : Discloses below ino shown (fun _ _ => False) holds)
    (hT : Takes below ino shown (fun _ _ => False) holds) :
    Lists below ino shown fun s image _ => holds s image where
  read hs hn := (hD.read hs hn).mono (fun _ _ hgood => hgood) fun _ _ hbad => hbad.2
  write block hs hn := (hT.write block hs hn).mono (fun _ _ hgood => hgood)
    fun _ _ hbad => hbad.2
  note event hs := hD.note event hs

/-- The record of a store whose calls succeed lists its requests. -/
theorem Lists.recorded (hD : Discloses below ino shown (fun _ _ => False) holds)
    (hT : Takes below ino shown (fun _ _ => False) holds) :
    Lists (Recorded.store below) ino shown
      fun t image log => t.1.map Exchange.request = log ∧ holds t.2 image where
  read := by
    rintro ⟨record, s⟩ image _ n ⟨rfl, hs⟩ hn
    -- The store below raises no fault, so the call ends with a value.
    obtain ⟨_, _, hrun, hblock, hafter⟩ := (hD.read hs hn).ok fun _ _ hbad => hbad.2
    refine .of_ok (by rw [Recorded.store_apply, hrun]) ⟨hblock, ?_, hafter⟩
    rw [List.map_append]
    rfl
  write := by
    rintro ⟨record, s⟩ image _ n block ⟨rfl, hs⟩ hn
    obtain ⟨_, _, hrun, hafter⟩ := (hT.write block hs hn).ok fun _ _ hbad => hbad.2
    refine .of_ok (by rw [Recorded.store_apply, hrun]) ⟨?_, hafter⟩
    rw [List.map_append]
    rfl
  note event ht := ⟨ht.1, hD.note event ht.2⟩

end Lists

end BlockLayers
