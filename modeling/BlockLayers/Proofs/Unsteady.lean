import BlockLayers.Proofs.Below
import BlockLayers.Proofs.Run

/-!
# `BlockLayers.Proofs.Unsteady`: a store whose calls may fail

`Unsteady.store schedule below` answers its calls from the store
`below`, except those that the schedule picks: call number `k` fails
with the fault `schedule k`, if there is one, and does not reach the
store below. The schedule is any function of the call number, so a
statement for every schedule is one about every pattern of failures,
a store that is dead for some time among them.

Main statements: `Unsteady.backing` and `Unsteady.medium`. A contract of
the store below still holds, where a fault may also be one that the
schedule picked (`Unsteady.Failed`). `Unsteady.memory_medium` is the
second for a store in memory, from any number of calls on.
-/

set_option autoImplicit false

namespace BlockLayers.Unsteady

variable {σ : Type} {schedule : Nat → Option Fault} {below : Store σ}

/-- The store `below`, some of whose calls fail. The state counts the
calls. -/
def store (schedule : Nat → Option Fault) (below : Store σ) : Store (Nat × σ) := fun q => do
  let call ← Op.own
  Op.modifyOwn Nat.succ
  match schedule call with
  | some fault => Op.fail fault
  | none => Op.lower (below q)

/-- The last call was made after the first `start`, and failed: as the
schedule says, or for a reason of the store below. -/
def Failed (schedule : Nat → Option Fault) (start : Nat) (reason : Fault → σ → Prop)
    (fault : Fault) (s : Nat × σ) : Prop :=
  start < s.1 ∧ (schedule (s.1 - 1) = some fault ∨ reason fault s.2)

/-- A call either fails as scheduled and leaves the store below alone,
or ends as it does there. What holds of the store below before the call
and after its own faults holds after every fault. -/
theorem store_ends {q : Request} {start : Nat} {s : Nat × σ} {good : q.Answer → σ → Prop}
    {kept : σ → Prop} {bad : Fault → σ → Prop} (hs : start ≤ s.1 ∧ kept s.2)
    (h : Op.Ends (below q) s.2 good fun fault after => kept after ∧ bad fault after) :
    Op.Ends (store schedule below q) s
      (fun answer after => start ≤ after.1 ∧ good answer after.2)
      (fun fault after => (start ≤ after.1 ∧ kept after.2) ∧
        Failed schedule start bad fault after) := by
  obtain ⟨calls, s⟩ := s
  obtain ⟨hstart, hkept⟩ := hs
  refine Op.Ends.own_seq (Op.Ends.modifyOwn_seq ?_)
  split
  · -- The call is one that the schedule picks, and the store below is not asked.
    rename_i fault hcall
    exact Op.Ends.fail ⟨⟨Nat.le_succ_of_le hstart, hkept⟩, Nat.lt_succ_of_le hstart,
      .inl (by simpa using hcall)⟩
  · exact Op.Ends.lower (h.mono (fun _ _ hgood => ⟨Nat.le_succ_of_le hstart, hgood⟩)
      fun _ _ ⟨hafter, hbad⟩ =>
        ⟨⟨Nat.le_succ_of_le hstart, hafter⟩, Nat.lt_succ_of_le hstart, .inr hbad⟩)

/-- A call that succeeds is one that the store below answered. -/
theorem of_store_ok {q : Request} {s after : Nat × σ} {value : q.Answer}
    (h : store schedule below q s = .ok value after) : below q s.2 = .ok value after.2 := by
  obtain ⟨calls, s⟩ := s
  obtain ⟨_, _, ⟨⟩, h⟩ := Op.exists_of_bind_ok h
  obtain ⟨_, _, ⟨⟩, h⟩ := Op.exists_of_bind_ok h
  cases hcall : schedule calls with
  | some fault =>
    rw [hcall] at h
    cases h
  | none =>
    rw [hcall] at h
    exact (Op.of_lower_ok h).1

/-- What every call of the store below keeps is kept. -/
theorem store_preserves {q : Request} {kept : σ → Prop} (h : Op.Preserves (below q) kept) :
    Op.Preserves (store schedule below q) (fun s => kept s.2) := by
  refine .bind .own fun call => .bind .modifyOwn fun _ => ?_
  cases schedule call with
  | some fault => exact .fail
  | none => exact .lower h

variable [Journal σ]

/-- What the store below keeps of all inodes is kept. -/
theorem backing {allowed : UInt32 → Prop} {lost : Plain → Address → Fault → σ → Prop}
    {refused : Plain → UInt32 → Fault → σ → Prop} {holds : (UInt32 → Prop) → σ → Plain → Prop}
    (h : Backing below allowed lost refused holds) (start : Nat) :
    Backing (store schedule below) allowed
      (fun p a => Failed schedule start (lost p a))
      (fun p ino => Failed schedule start (refused p ino))
      (fun settled s p => start ≤ s.1 ∧ holds settled s.2 p) where
  read a hs := (store_ends hs (h.read a hs.2)).mono
    (fun _ _ ⟨hcalls, hkept, hblock⟩ => ⟨⟨hcalls, hkept⟩, hblock⟩) fun _ _ hbad => hbad
  write a block hs ha hfree := (store_ends hs (h.write a block hs.2 ha hfree)).mono
    (fun _ _ ⟨hcalls, hkept, hino⟩ => ⟨⟨hcalls, hkept⟩, hino⟩) fun _ _ hbad => hbad
  resize ino blocks hs ha hfree := (store_ends hs (h.resize ino blocks hs.2 ha hfree)).mono
    (fun _ _ ⟨hcalls, hkept, hino⟩ => ⟨⟨hcalls, hkept⟩, hino⟩) fun _ _ hbad => hbad
  sync ino hs ha := store_ends hs (h.sync ino hs.2 ha)
  size ino hs := (store_ends hs ((h.size ino hs.2).mono (fun _ _ hgood => hgood)
    fun _ _ hbad => ⟨hbad, hbad⟩)).mono (fun _ _ hgood => hgood) fun _ _ hbad => hbad.1
  capacity hs := (store_ends hs ((h.capacity hs.2).mono (fun _ _ hgood => hgood)
    fun _ _ hbad => ⟨hbad, hbad⟩)).mono (fun _ _ hgood => hgood) fun _ _ hbad => hbad.1
  note event hs := ⟨hs.1, h.note event hs.2⟩

/-- What the store below keeps of one inode is kept. -/
theorem medium {blame : Fault → σ → Prop} {ino : UInt32} {size : Nat}
    {holds : σ → (Nat → Block) → Prop}
    (h : Medium below ino size blame holds) (start : Nat) :
    Medium (store schedule below) ino size (Failed schedule start blame)
      (fun s image => start ≤ s.1 ∧ holds s.2 image) where
  read hs hn := (store_ends hs (h.read hs.2 hn)).mono
    (fun _ _ ⟨hcalls, hblock, hkept⟩ => ⟨hblock, hcalls, hkept⟩) fun _ _ hbad => hbad
  write block hs hn := store_ends hs (h.write block hs.2 hn)
  size hs := (store_ends hs (h.size hs.2)).mono
    (fun _ _ ⟨hcalls, hcount, hkept⟩ => ⟨hcount, hcalls, hkept⟩) fun _ _ hbad => hbad
  sync hs := store_ends hs (h.sync hs.2)
  note event hs := ⟨hs.1, h.note event hs.2⟩

/-- A store in memory some of whose calls fail keeps its blocks. -/
theorem memory_medium (schedule : Nat → Option Fault) (ino : UInt32) (size : Nat) :
    Medium (store schedule Memory.store) ino size (Failed schedule 0 fun _ _ => False)
      (fun s => Memory.Carries ino size s.2) := by
  -- Every number of calls is one to start from.
  have hM : Medium (store schedule Memory.store) ino size _ _ := medium (Memory.medium ino size) 0
  simpa only [Nat.zero_le, true_and] using hM

end BlockLayers.Unsteady
