import BlockLayers.Proofs.Fat.Refinement
import BlockLayers.Proofs.Watched

/-!
# `BlockLayers.Proofs.Fat.Exact`: what a count says of any medium

A medium with any content is counted, on a store whose reads succeed. No
request of the count is a change, and it is not aborted as long as the
sizes that its superblock tells are words.

Main statement: `occupancy_exact`. The count ends with numbers exactly
when the tables are in order (`Chains.Whole`), the numbers are then
those of the chains, and in every other case the medium is corrupted.
-/

set_option autoImplicit false

namespace BlockLayers.Fat

/-- How a superblock divides a medium of `size` blocks. -/
def Superblock.plan (sb : Superblock) (size : Nat) : Plan where
  recordBlocks := sb.recordBlocks
  tableBlocks := sb.tableBlocks
  entries := UInt32.ofNat (size - (1 + sb.recordBlocks.toNat + sb.tableBlocks.toNat))

/-- The numbers that a count should end with: the medium is as long as
its tables and its entries, the tables are in order, and the numbers are
those of the free chain and of the blocks that the records tell. -/
structure Occupancy.Of (counted : Occupancy) (sb : Superblock) (size : Nat)
    (image : Nat → Block) : Prop where
  total_eq : 1 + sb.recordBlocks.toNat + sb.tableBlocks.toNat + counted.total.toNat = size
  chains : ∃ a : Chains, a.Whole (sb.plan size) ((sb.plan size).catalog image) ∧
    counted.free.toNat = a.free.length ∧
    counted.used.toNat =
      ((sb.plan size).catalog image).usedBelow (64 * sb.recordBlocks.toNat)

/-- A superblock whose tables are not longer than the medium divides
it. -/
theorem Superblock.plan_spans {sb : Superblock} {size : Nat} (hformatted : sb.recordBlocks ≠ 0)
    (hplaces : 128 * sb.tableBlocks.toNat < 4294967296) (hsize : size < 4294967296)
    (hlong : 1 + sb.recordBlocks.toNat + sb.tableBlocks.toNat ≤ size) :
    (sb.plan size).Spans size := by
  have hpos : sb.recordBlocks.toNat ≠ 0 := fun h => hformatted (UInt32.toNat_inj.mp h)
  refine ⟨Nat.pos_of_ne_zero hpos, hplaces, ?_, hsize⟩
  -- What is left behind the tables is a word, as the whole medium is.
  have hentries : (sb.plan size).entries.toNat =
      size - (1 + sb.recordBlocks.toNat + sb.tableBlocks.toNat) :=
    UInt32.toNat_ofNat_of_lt' (show _ < 4294967296 by omega)
  have hfrom : (sb.plan size).dataFrom = 1 + sb.recordBlocks.toNat + sb.tableBlocks.toNat := rfl
  omega

/-- There is only one free chain, so the numbers are determined. -/
theorem Occupancy.Of.unique {counted other : Occupancy} {sb : Superblock} {size : Nat}
    {image : Nat → Block} (h : counted.Of sb size image) (h' : other.Of sb size image)
    (spans : (sb.plan size).Spans size) (hfiles : 64 * sb.recordBlocks.toNat < 4294967296) :
    counted = other := by
  obtain ⟨total, free, used⟩ := counted
  obtain ⟨total', free', used'⟩ := other
  obtain ⟨htotal, a, ha, hfree, hused⟩ := h
  obtain ⟨htotal', a', ha', hfree', hused'⟩ := h'
  -- Both chains end with the end mark and start with the head of the superblock.
  have hsame : a.free = a'.free :=
    ((Chains.whole_iff hfiles).mp ha).1.free_eq ((Chains.whole_iff hfiles).mp ha').1 spans
  dsimp only at *
  have h₁ : total = total' := UInt32.toNat_inj.mp (by omega)
  have h₂ : free = free' := UInt32.toNat_inj.mp (by rw [hfree, hfree', hsame])
  have h₃ : used = used' := UInt32.toNat_inj.mp (by rw [hused, hused'])
  rw [h₁, h₂, h₃]

/-- The numbers of tables in order are words. -/
theorem Chains.Whole.numbers {sb : Superblock} {size : Nat} {image : Nat → Block} {a : Chains}
    (h : a.Whole (sb.plan size) ((sb.plan size).catalog image))
    (spans : (sb.plan size).Spans size) (hfiles : 64 * sb.recordBlocks.toNat < 4294967296) :
    Occupancy.Of ⟨(sb.plan size).entries, UInt32.ofNat a.free.length, UInt32.ofNat
      (((sb.plan size).catalog image).usedBelow (64 * sb.recordBlocks.toNat))⟩ sb size image := by
  obtain ⟨htidy, hlength⟩ := (Chains.whole_iff hfiles).mp h
  have hcount := htidy.length_upTo
  have hlt := (sb.plan size).entries.toNat_lt
  have hrecords : (sb.plan size).recordBlocks = sb.recordBlocks := rfl
  rw [hrecords] at hcount hlength
  refine ⟨spans.size_eq, a, h, UInt32.toNat_ofNat_of_lt' ?_, UInt32.toNat_ofNat_of_lt' ?_⟩
  · show a.free.length < 4294967296
    omega
  · show _ < 4294967296
    omega

namespace Volume

variable {σ : Type} [Journal σ] {below : Store σ} {v : Volume} {size : Nat}
  {blame : Fault → σ → Prop} {holds : σ → (Nat → Block) → Prop} {image : Nat → Block} {s : σ}

/-- A medium that ends before its tables do is corrupted. -/
theorem occupancy_truncated (hL : Legible below v.medium size blame holds) (hpos : 0 < size)
    {sb : Superblock} (hsb : sb = Superblock.decode (image 0)) (hformatted : sb.recordBlocks ≠ 0)
    (hstart : 1 + sb.recordBlocks.toNat + sb.tableBlocks.toNat < 4294967296)
    (hshort : size < 1 + sb.recordBlocks.toNat + sb.tableBlocks.toNat) (hs : holds s image) :
    Op.Ends (v.occupancy below) s (fun _ _ => False) (Condemned blame holds image True) := by
  subst hsb
  refine (superblock_read hL.toDiscloses hpos hformatted hs).bind
    (fun _ _ hbad => ⟨hbad.1, .inl hbad.2⟩) ?_
  rintro _ s₁ ⟨rfl, hs₁⟩
  refine (hL.size hs₁).bind (fun _ _ hbad => ⟨hbad.1, .inl hbad.2⟩) ?_
  rintro blocks s₂ ⟨hblocks, hs₂⟩
  obtain ⟨start, hdata, hdataNat⟩ := Plan.exists_dataStart
    (show ((Superblock.decode (image 0)).plan size).dataFrom < 4294967296 from hstart) rfl rfl
  refine Op.Ends.lift_seq hdata (Op.Ends.guard (fun _ => ⟨hs₂, .inr ⟨⟨_, rfl⟩, trivial⟩⟩)
    fun hlong => ?_)
  rw [UInt32.lt_iff_toNat_lt, hdataNat, hblocks] at hlong
  exact (hlong hshort).elim

/-- The count of a medium ends with the numbers that it should end with,
or with the fault that there are none. -/
theorem occupancy_decides (hL : Legible below v.medium size (fun _ _ => False) holds)
    (hs : holds s image) (hpos : 0 < size) {sb : Superblock}
    (hsb : sb = Superblock.decode (image 0)) (hformatted : sb.recordBlocks ≠ 0)
    (hfiles : 64 * sb.recordBlocks.toNat < 4294967296)
    (hstart : 1 + sb.recordBlocks.toNat + sb.tableBlocks.toNat < 4294967296)
    (hplaces : 128 * sb.tableBlocks.toNat < 4294967296) :
    Op.Ends (v.occupancy below) s
      (fun counted after => (∀ other, other.Of sb size image ↔ other = counted) ∧ holds after image)
      (fun fault after => (∃ damage, fault = .corrupted damage) ∧
        (∀ other, ¬ Occupancy.Of other sb size image) ∧ holds after image) := by
  obtain ⟨count, -, -, hcount, -⟩ := (hL.size hs).ok fun _ _ hno => hno.2
  have hsize : size < 4294967296 := hcount ▸ count.toNat_lt
  -- A medium that is shorter than its tables is refused before any chain is followed.
  by_cases hlong : 1 + sb.recordBlocks.toNat + sb.tableBlocks.toNat ≤ size
  · have spans := Superblock.plan_spans hformatted hplaces hsize hlong
    refine (occupancy_checks hL spans hfiles (hsb ▸ rfl) (hsb ▸ rfl) hs).mono ?_ ?_
    · rintro _ after ⟨⟨a, hwhole, rfl⟩, hkept⟩
      have hnumbers := hwhole.numbers spans hfiles
      exact ⟨fun other => ⟨fun h => h.unique hnumbers spans hfiles, fun h => h ▸ hnumbers⟩, hkept⟩
    · rintro fault after ⟨hkept, hno | ⟨hdamage, hno⟩⟩
      · exact hno.elim
      · exact ⟨hdamage, fun other ⟨_, a, hwhole, _⟩ => hno a hwhole, hkept⟩
  · refine (occupancy_truncated hL hpos hsb hformatted hstart (Nat.not_le.mp hlong) hs).mono
      (fun _ _ hno => hno.elim) ?_
    rintro fault after ⟨hkept, hno | ⟨hdamage, -⟩⟩
    · exact hno.elim
    · exact ⟨hdamage, fun other ⟨htotal, _⟩ => by omega, hkept⟩

/-- A medium with any content, on a store whose reads succeed, where the
sizes that the superblock tells are words. The count ends with numbers
exactly when the medium has them: it is as long as its tables and its
entries together, and the tables are in order. In every other case it is
corrupted. No request that the count makes is a change. -/
theorem occupancy_exact (hL : Legible below v.medium size (fun _ _ => False) holds)
    (hs : holds s image) (hpos : 0 < size) {sb : Superblock}
    (hsb : sb = Superblock.decode (image 0)) (hformatted : sb.recordBlocks ≠ 0)
    (hfiles : 64 * sb.recordBlocks.toNat < 4294967296)
    (hstart : 1 + sb.recordBlocks.toNat + sb.tableBlocks.toNat < 4294967296)
    (hplaces : 128 * sb.tableBlocks.toNat < 4294967296) :
    (∀ counted, Op.outcome (v.occupancy (Probe.store below)) (Probe.fresh, s) = .ok counted ↔
        counted.Of sb size image) ∧
      ((∀ counted, ¬ Occupancy.Of counted sb size image) →
        ∃ damage, Op.outcome (v.occupancy (Probe.store below)) (Probe.fresh, s) =
          .error (.fault (.corrupted damage))) ∧
      ∀ q ∈ (Op.next (v.occupancy (Probe.store below)) (Probe.fresh, s)).1.seen,
        q.changes = false := by
  have hends : Op.Ends (v.occupancy (Probe.store below)) (Probe.fresh, s) _ _ :=
    occupancy_decides (Probe.legible hL) ⟨Probe.fresh_untouched, hs⟩ hpos hsb hformatted hfiles
      hstart hplaces
  -- The count either tells the one number there is, or there is none.
  rcases hends.outcome_next with ⟨counted, houtcome, hof, hprobe, -⟩ |
    ⟨_, houtcome, ⟨damage, rfl⟩, hno, hprobe, -⟩
  · refine ⟨fun other => ?_, fun hno => (hno counted ((hof counted).mpr rfl)).elim, hprobe.seen⟩
    rw [houtcome, Except.ok.injEq, hof other, eq_comm]
  · refine ⟨fun other => ?_, fun _ => ⟨damage, houtcome⟩, hprobe.seen⟩
    rw [houtcome]
    exact ⟨nofun, fun h => (hno other h).elim⟩

/-- A new medium of four blocks has one entry, which is free. -/
theorem occupancy_exact_zeros :
    ∃ m', (⟨0⟩ : Volume).format Memory.store 1 (Memory.zeros 4) = .ok () m' ∧
      Op.outcome ((⟨0⟩ : Volume).occupancy (Probe.store Memory.store)) (Probe.fresh, m') =
        .ok ⟨1, 1, 0⟩ ∧
      ∀ q ∈ (Op.next ((⟨0⟩ : Volume).occupancy (Probe.store Memory.store))
        (Probe.fresh, m')).1.seen, q.changes = false := by
  obtain ⟨m', data, hformat, image, hcarries, hm⟩ := format_zeros_keeps
  have hsb : (⟨1, 1, ⟨0⟩⟩ : Superblock) = Superblock.decode (image 0) :=
    (congrArg Catalog.superblock hm).symm
  have hplan : (⟨1, 1, ⟨0⟩⟩ : Superblock).plan 4 = ⟨1, 1, 1⟩ := by decide
  have fits : (⟨1, 1, 1⟩ : Plan).Fits 4 :=
    ⟨⟨⟨by decide, by decide, by decide, by decide⟩, by decide, by decide⟩, by decide⟩
  have hwhole : (freshChains ⟨1, 1, 1⟩).Whole ⟨1, 1, 1⟩ (Plan.catalog ⟨1, 1, 1⟩ image) := by
    rw [hm]
    exact (fresh_matches _ data).whole_chains fits.toUsable (fresh_sound fits.toDivides data)
  obtain ⟨hcount, -, hseen⟩ := occupancy_exact (Memory.medium 0 4).toLegible hcarries (by decide)
    hsb (by decide) (by decide) (by decide) (by decide)
  refine ⟨m', hformat, (hcount _).mpr ⟨rfl, freshChains ⟨1, 1, 1⟩, ?_, rfl, ?_⟩, hseen⟩
  · rw [hplan]
    exact hwhole
  · rw [hplan, hm, ← (fresh_matches _ data).usedBelow_eq (fresh_sound fits.toDivides data),
      FileMap.usedBelow_empty]
    rfl

end Volume

end BlockLayers.Fat
