import BlockLayers.Proofs.Run

/-!
# `BlockLayers.Proofs.Observed`: a store under observation

`Observed.store below` answers its calls from the store `below` and keeps
each of them with what it ended with, and the events that were reported
to it. Nothing is asked of the store below, so what is proved of a layer
over an observed store holds whatever the calls below end with.

Main statements: `run_of_ok` and `run_of_error`, what is kept of a call.
-/

set_option autoImplicit false

namespace BlockLayers

/-- A store and what was seen of it. -/
structure Observed (σ : Type) where
  /-- The calls, with what they ended with. -/
  calls : List ((q : Request) × Except Stop q.Answer)
  /-- The events. -/
  events : List Event
  /-- The store itself. -/
  inner : σ

namespace Observed

variable {σ : Type} {below : Store σ}

/-- The store before the first call. -/
def start (s : σ) : Observed σ := ⟨[], [], s⟩

/-- The store `below` under observation. -/
def store (below : Store σ) : Store (Observed σ) := fun q t =>
  match below q t.inner with
  | .ok value after => .ok value ⟨t.calls ++ [⟨q, .ok value⟩], t.events, after⟩
  | .error stop after => .error stop ⟨t.calls ++ [⟨q, .error stop⟩], t.events, after⟩

instance [Journal σ] : Journal (Observed σ) where
  keeps := fun t level => Journal.keeps t.inner level
  enter := fun event t => ⟨t.calls, t.events ++ [event], Journal.enter event t.inner⟩

/-- A report is kept. -/
@[simp] theorem events_enter [Journal σ] (event : Event) (t : Observed σ) :
    (Journal.enter event t).events = t.events ++ [event] := rfl

/-- What is kept of a call that ends with a value. -/
theorem run_of_ok {q : Request} {t t' : Observed σ} {value : q.Answer}
    (h : store below q t = .ok value t') :
    below q t.inner = .ok value t'.inner ∧ t'.calls = t.calls ++ [⟨q, .ok value⟩] ∧
      t'.events = t.events := by
  unfold store at h
  split at h
  · cases h
    exact ⟨‹_›, rfl, rfl⟩
  · cases h

/-- What is kept of a call that stops. -/
theorem run_of_error {q : Request} {t t' : Observed σ} {stop : Stop}
    (h : store below q t = .error stop t') :
    below q t.inner = .error stop t'.inner ∧ t'.calls = t.calls ++ [⟨q, .error stop⟩] ∧
      t'.events = t.events := by
  unfold store at h
  split at h
  · cases h
  · cases h
    exact ⟨‹_›, rfl, rfl⟩

/-- Every call is kept, whatever it ends with. -/
theorem calls_next (q : Request) (t : Observed σ) :
    (Op.next (store below q) t).calls = t.calls ++ [⟨q, Op.outcome (store below q) t⟩] := by
  unfold Op.next Op.outcome
  -- What is kept is what the call ended with, and nothing else is asked of the store below.
  cases hrun : store below q t with
  | ok value after => exact (run_of_ok hrun).2.1
  | error stop after => exact (run_of_error hrun).2.1

end Observed

end BlockLayers
