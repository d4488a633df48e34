import BlockLayers.Probe
import BlockLayers.Proofs.Below

/-!
# `BlockLayers.Proofs.Watched`: a store behind a probe

A probe without limits lets every request through that is no write, so
a layer over it reads what it would read from the store below. The
record of the probe then tells which requests the layer made.

Main statement: `Probe.legible`. A medium behind a probe is read as it
is without, and what was recorded is no change.
-/

set_option autoImplicit false

namespace BlockLayers.Probe

variable {σ : Type} {below : Store σ}

/-- The probe refuses nothing, and has seen no change. -/
structure Untouched (p : Probe) : Prop where
  limits : p.limits = []
  badReads : p.badReads = []
  seen : ∀ q ∈ p.seen, q.changes = false

/-- A new probe refuses nothing and has seen nothing. -/
theorem fresh_untouched : fresh.Untouched := ⟨rfl, rfl, by simp [fresh]⟩

/-- A request that is no change is let through and recorded. -/
theorem Untouched.judge {p : Probe} (h : p.Untouched) {q : Request} (hq : q.changes = false) :
    (p.judge q).1 = true ∧ (p.judge q).2.Untouched := by
  obtain ⟨calls, seen, limits, badReads, badWrites⟩ := p
  obtain ⟨rfl, rfl, hseen⟩ := h
  -- Without limits and bad reads only a write could be refused, and this is none.
  have hjudge : Probe.judge q ⟨calls, seen, [], [], badWrites⟩ =
      (true, ⟨calls + 1, seen.push q, [], [], badWrites⟩) := by
    cases q <;> first | rfl | cases hq
  rw [hjudge]
  refine ⟨rfl, rfl, rfl, fun other hother => ?_⟩
  -- What was seen is the requests from before and this one.
  rcases Array.mem_push.mp hother with hold | rfl
  · exact hseen other hold
  · exact hq

/-- A request that is no change ends as it does below, and is
recorded. -/
theorem store_ends {q : Request} (hq : q.changes = false) {p : Probe} (h : p.Untouched) {s : σ}
    {good : q.Answer → σ → Prop} {bad : Fault → σ → Prop} (hends : Op.Ends (below q) s good bad) :
    Op.Ends (store below q) (p, s) (fun answer after => after.1.Untouched ∧ good answer after.2)
      (fun fault after => after.1.Untouched ∧ bad fault after.2) := by
  obtain ⟨hpasses, hafter⟩ := h.judge hq
  unfold Op.Ends
  rw [store_apply, if_pos hpasses]
  exact Op.Ends.lower (hends.mono (fun _ _ hgood => ⟨hafter, hgood⟩)
    fun _ _ hbad => ⟨hafter, hbad⟩)

variable [Journal σ]

/-- A medium that can be read can be read through a probe. -/
theorem legible {ino : UInt32} {size : Nat} {blame : Fault → σ → Prop}
    {holds : σ → (Nat → Block) → Prop} (h : Legible below ino size blame holds) :
    Legible (store below) ino size (fun fault s => blame fault s.2)
      (fun s image => s.1.Untouched ∧ holds s.2 image) where
  read hs hn := (store_ends rfl hs.1 (h.read hs.2 hn)).mono
    (fun _ _ ⟨hprobe, hblock, hkept⟩ => ⟨hblock, hprobe, hkept⟩)
    fun _ _ ⟨hprobe, hkept, hblame⟩ => ⟨⟨hprobe, hkept⟩, hblame⟩
  size hs := (store_ends rfl hs.1 (h.size hs.2)).mono
    (fun _ _ ⟨hprobe, hcount, hkept⟩ => ⟨hcount, hprobe, hkept⟩)
    fun _ _ ⟨hprobe, hkept, hblame⟩ => ⟨⟨hprobe, hkept⟩, hblame⟩
  note event hs := ⟨hs.1, h.note event hs.2⟩

end BlockLayers.Probe
