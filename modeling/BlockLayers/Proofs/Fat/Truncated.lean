import BlockLayers.Proofs.Fat.Refused
import BlockLayers.Proofs.Fat.Release
import BlockLayers.Proofs.Fat.Turned

/-!
# `BlockLayers.Proofs.Fat.Truncated`: the chains that a file can give back

A file is resized to nothing on a medium with any blocks. The links of
its chain are turned around in the cursor, as many as the file has
blocks, and the chain has to end there; nothing is written before that
is known. What the turns arrive at is `Turned.turn`, so the files that
give back their chains are those of `Turned.finishes_iff`.

Main statement: `Volume.truncates`. A chain that has as many entries as
the file has blocks is accepted, and becomes the head of the free chain
in reverse. So is a chain that runs in a circle and has the right count,
and then the free chain runs in a circle too (`Volume.resize_circling`).
Every other chain is refused, and nothing is written.
-/

set_option autoImplicit false

namespace BlockLayers.Fat

namespace Catalog

/-- The chain of a file before any of its links is turned around. -/
def chain (m : Catalog) (ino : UInt32) : Turned where
  rest := (m.record ino).head
  head := m.superblock.freeHead
  links := m.link

/-- The tables after a file has given back its chain. -/
def gaveBack (m : Catalog) (ino : UInt32) (t : Turned) : Catalog where
  superblock := { m.superblock with freeHead := t.head }
  record := Function.update m.record ino Record.empty
  link := t.links
  data := m.data

end Catalog

namespace Volume

variable {σ : Type} [Journal σ] {below : Store σ} {v : Volume} {p : Plan} {size : Nat}
  {quiet holds : σ → (Nat → Block) → Prop} {image : Nat → Block} {ino : UInt32} {c : Cursor}
  {medium : UInt32} {s : σ}

/-! ### Turning the links around -/

/-- The cursor turns around the links that it sees, those included that
it has turned before. -/
theorem turnAround_turns (hD : Discloses below medium (· < p.dataFrom) (fun _ _ => False) quiet)
    (spans : p.Spans size) (left : Nat) {t : Turned}
    (hreads : Cursor.Reads medium p quiet image t.links (c, s)) :
    Op.Ends (turnAround below left t.rest t.head) (c, s)
      (fun ends after => ∃ t', t.turn p left = some t' ∧ ends = (t'.rest, t'.head) ∧
        Cursor.Reads medium p quiet image t'.links after)
      (fun fault after => t.turn p left = none ∧ (∃ damage, fault = .corrupted damage) ∧
        quiet after.2 image) := by
  induction left generalizing t c s with
  | zero => exact Op.Ends.pure ⟨t, rfl, rfl, hreads⟩
  | succ left ih =>
    unfold turnAround
    dsimp only
    by_cases hentry : p.HasEntry t.rest
    · rw [spans.isEnd_eq_false hentry, Turned.turn, if_pos hentry]
      refine (Cursor.next_ends hD spans hreads hentry).bind (fun _ _ hbad => hbad.2.elim) ?_
      rintro _ ⟨c₁, s₁⟩ ⟨rfl, hreads₁⟩
      refine (Cursor.setNext_ends hD spans hreads₁ t.head hentry).bind
        (fun _ _ hbad => hbad.2.elim) ?_
      rintro _ ⟨c₂, s₂⟩ hreads₂
      exact ih (t := ⟨t.links t.rest, t.rest, Function.update t.links t.rest t.head⟩) hreads₂
    · rw [Turned.turn, if_neg hentry]
      split
      · exact Op.Ends.fail_seq ⟨rfl, ⟨_, rfl⟩, hreads.2⟩
      · refine (Cursor.next_refused hD hreads hentry).bind ?_ fun _ _ hno => hno.elim
        rintro _ after ⟨rfl, hafter⟩
        exact ⟨rfl, ⟨_, rfl⟩, hafter⟩

/-- A file gives back its chain if the turns arrive at the end. Until
that is known nothing is written, and the store below is `quiet`. -/
theorem free_turns (hD : Discloses below v.medium (· < p.dataFrom) (fun _ _ => False) quiet)
    (hT : Takes below v.medium (· < p.dataFrom) (fun _ _ => False) holds)
    (hloud : ∀ s image, quiet s image → holds s image) (spans : p.Spans size) {l : Located}
    (hl : l.Of p (p.catalog image) ino) (hfile : p.HasFile ino)
    (hreads : Cursor.Reads v.medium p quiet image (p.catalog image).link (c, s)) :
    Op.Ends (v.free below l) (c, s)
      (fun _ after => ∃ t, ((p.catalog image).chain ino).turn p l.record.blocks.toNat = some t ∧
        t.rest = Link.endMark ∧ Keeps p holds ((p.catalog image).gaveBack ino t) after.2)
      (fun fault after => ¬ ((p.catalog image).chain ino).Finishes p l.record.blocks.toNat ∧
        (∃ damage, fault = .corrupted damage) ∧ quiet after.2 image) := by
  have hturns := turnAround_turns hD spans l.record.blocks.toNat
    (t := (p.catalog image).chain ino) hreads
  rw [Catalog.chain, ← hl.record_eq, ← hl.superblock_eq] at hturns ⊢
  refine hturns.bind ?_ ?_
  · rintro fault after ⟨hnone, hbad⟩
    refine ⟨?_, hbad⟩
    rintro ⟨t, hsome, -⟩
    rw [hnone] at hsome
    cases hsome
  rintro _ ⟨c₁, s₁⟩ ⟨t, hturn, rfl, hreads₁⟩
  refine (checkEnded_ends hD _ hreads₁).bind ?_ ?_
  · rintro fault after ⟨hafter, hrest, rfl⟩
    refine ⟨?_, ⟨_, rfl⟩, hafter⟩
    rintro ⟨t', hturn', hend⟩
    rw [hturn, Option.some.injEq] at hturn'
    exact hrest (hturn' ▸ hend)
  rintro _ _ ⟨rfl, hend⟩
  -- The chain is accepted. What is left are writes, of which none fails.
  refine Op.Ends.note_seq ?_
  have hsees₁ : Sees v.medium p holds (p.catalog image) t.links (c₁, Journal.enter _ s₁) :=
    ⟨image, rfl, hreads₁.1, hloud _ _ (hD.note (.chainFreed l.record.head l.record.blocks)
      hreads₁.2)⟩
  refine (writeRecord_ends hT hl hfile rfl Record.empty hsees₁).bind
    (fun _ _ hbad => hbad.2.elim) ?_
  rintro _ ⟨c₂, s₂⟩ hsees₂
  refine (flush_ends hT spans hsees₂).bind (fun _ _ hbad => hbad.1.elim) ?_
  rintro _ ⟨c₃, s₃⟩ hsees₃
  refine (writeSuperblock_ends hT _ hsees₃).mono ?_ fun _ _ hbad => hbad.2.elim
  intro _ after hafter
  refine ⟨t, hturn, hend, ?_⟩
  rw [Catalog.gaveBack, ← hl.superblock_eq]
  exact hafter.keeps

/-- A file is resized to nothing if it can give back its chain. -/
theorem resize_turns (hD : Discloses below v.medium (· < p.dataFrom) (fun _ _ => False) quiet)
    (hT : Takes below v.medium (· < p.dataFrom) (fun _ _ => False) holds)
    (hloud : ∀ s image, quiet s image → holds s image) (spans : p.Spans size)
    (hfiles : 64 * p.recordBlocks.toNat < 4294967296) (told : p.ToldBy image)
    (hfile : p.HasFile ino) (hblocks : ((p.catalog image).record ino).blocks ≠ 0)
    (hs : quiet s image) :
    Op.Ends (v.store below (.resize ino 0)) s
      (fun before after => before = ((p.catalog image).record ino).blocks ∧
        ∃ t, ((p.catalog image).chain ino).turn p ((p.catalog image).record ino).blocks.toNat =
          some t ∧ t.rest = Link.endMark ∧ Keeps p holds ((p.catalog image).gaveBack ino t) after)
      (fun fault after => ¬ ((p.catalog image).chain ino).Finishes p
          ((p.catalog image).record ino).blocks.toNat ∧
        (∃ damage, fault = .corrupted damage) ∧ quiet after image) := by
  refine (locate_ends hD spans hfiles told.recordBlocks_eq hs ino).bind ?_ ?_
  · rintro _ _ ⟨-, hno | ⟨hno, -⟩⟩
    · exact hno.elim
    · exact (hno hfile).elim
  rintro l s₁ ⟨-, hl, hs₁⟩
  rw [← hl.record_eq] at hblocks ⊢
  dsimp only
  rw [if_neg (Ne.symm hblocks), if_neg (UInt32.not_lt.mpr (UInt32.zero_le)),
    if_neg (UInt32.lt_irrefl 0)]
  have hsuperblock : l.superblock = Superblock.decode (image 0) := hl.superblock_eq
  obtain ⟨c, hopen, hshows⟩ := Cursor.open_shows spans (hsuperblock ▸ told.recordBlocks_eq)
    (hsuperblock ▸ told.tableBlocks_eq)
  refine Op.Ends.lift_seq hopen (Op.Ends.withOwn_seq
    (free_turns hD hT hloud spans hl hfile ⟨hshows, hs₁⟩) (fun _ _ hbad => hbad) ?_)
  rintro _ _ hgood
  exact Op.Ends.pure ⟨rfl, hgood⟩

/-! ### Media with any content -/

/-- The chain of a file has as many entries as the file has blocks, all of
them different and in the table, and then ends. -/
def Whole (p : Plan) (m : Catalog) (ino : UInt32) (entries : List Link) : Prop :=
  p.Trail m.link (m.record ino).head entries Link.endMark ∧
    entries.length = (m.record ino).blocks.toNat

/-- The chain of a file runs in a circle, and the file has as many blocks
as it takes to go around it and on to the end of the free chain. -/
def Circling (p : Plan) (m : Catalog) (ino : UInt32) : Prop :=
  ∃ lead knot loop free, (m.chain ino).Circles p lead knot loop free ∧
    Turned.circuit lead loop free = (m.record ino).blocks.toNat

/-- What becomes of a file with blocks that is resized to nothing, on a
medium with any content and a store whose calls succeed. -/
structure Truncates (v : Volume) (below : Store σ) (p : Plan) (holds : σ → (Nat → Block) → Prop)
    (image : Nat → Block) (ino : UInt32) (s : σ) : Prop where
  /-- The file is resized if its chain is whole, or circling. -/
  accepts_iff : (∃ before, Op.outcome (v.store below (.resize ino 0)) s = .ok before) ↔
    (∃ entries, Whole p (p.catalog image) ino entries) ∨ Circling p (p.catalog image) ino
  /-- A whole chain comes before the free chain, in reverse. -/
  returns : ∀ entries, Whole p (p.catalog image) ino entries → ∃ after t,
    v.store below (.resize ino 0) s = .ok ((p.catalog image).record ino).blocks after ∧
      Keeps p holds ((p.catalog image).gaveBack ino t) after ∧
      ∀ free stop, Path (p.catalog image).link (p.catalog image).superblock.freeHead free stop →
        (∀ entry ∈ free, entry ∉ entries) → Path t.links t.head (entries.reverse ++ free) stop
  /-- After a circling chain was given back the free chain has no end. -/
  circles : Circling p (p.catalog image) ino → ∃ after t,
    v.store below (.resize ino 0) s = .ok ((p.catalog image).record ino).blocks after ∧
      Keeps p holds ((p.catalog image).gaveBack ino t) after ∧
      ∀ entries, ¬ Path t.links t.head entries Link.endMark
  /-- Every other chain is refused, and nothing is written. -/
  refuses : (∀ entries, ¬ Whole p (p.catalog image) ino entries) →
    ¬ Circling p (p.catalog image) ino → ∃ damage record after,
      v.store (Recorded.store below) (.resize ino 0) ([], s) =
          .error (.fault (.corrupted damage)) (record, after) ∧
        Recorded.Unchanging record ∧ holds after image

/-- A file with blocks is resized to nothing if the turned links of its
chain lead to the end, which they do for two reasons. -/
theorem truncates (hD : Discloses below v.medium (· < p.dataFrom) (fun _ _ => False) holds)
    (hT : Takes below v.medium (· < p.dataFrom) (fun _ _ => False) holds) (spans : p.Spans size)
    (hfiles : 64 * p.recordBlocks.toNat < 4294967296) (told : p.ToldBy image)
    (hfile : p.HasFile ino) (hblocks : ((p.catalog image).record ino).blocks ≠ 0)
    (hs : holds s image) : v.Truncates below p holds image ino s := by
  have hends := resize_turns hD hT (fun _ _ h => h) spans hfiles told hfile hblocks hs
  have hfinishes := Turned.finishes_iff spans.places_lt
    ((p.catalog image).record ino).blocks.toNat ((p.catalog image).chain ino)
  -- Turns that arrive at the end are what an accepted file is known by.
  have haccepted : ∀ t, ((p.catalog image).chain ino).turn p
      ((p.catalog image).record ino).blocks.toNat = some t → t.rest = Link.endMark →
      ∃ after, v.store below (.resize ino 0) s = .ok ((p.catalog image).record ino).blocks after ∧
        Keeps p holds ((p.catalog image).gaveBack ino t) after := by
    intro t hturn hend
    obtain ⟨_, after, hrun, rfl, t', hturn', -, hkeeps⟩ :=
      hends.ok fun _ _ hbad => hbad.1 ⟨t, hturn, hend⟩
    rw [hturn, Option.some.injEq] at hturn'
    exact ⟨after, hrun, hturn' ▸ hkeeps⟩
  constructor
  case accepts_iff =>
    refine Iff.trans ⟨?_, ?_⟩ hfinishes
    · rintro ⟨before, hbefore⟩
      obtain ⟨-, t, hturn, hend, -⟩ := hends.good_of (Op.apply_of_outcome_ok hbefore)
      exact ⟨t, hturn, hend⟩
    · rintro ⟨t, hturn, hend⟩
      obtain ⟨after, hrun, -⟩ := haccepted t hturn hend
      exact ⟨_, by rw [Op.outcome, hrun]⟩
  case returns =>
    rintro entries ⟨htrail, hlength⟩
    obtain ⟨t, hturn, hend, hback, hsame⟩ :=
      Turned.turn_trail (t := (p.catalog image).chain ino) htrail 0
    rw [hlength] at hturn
    obtain ⟨after, hrun, hkeeps⟩ := haccepted t hturn hend
    refine ⟨after, t, hrun, hkeeps, fun free stop hfree hapart => ?_⟩
    -- No link of the old free chain is turned, up to where it meets the chain of the file.
    exact path_append.mpr ⟨_, hback, hfree.congr fun entry hentry =>
      (hsame entry (hapart entry hentry)).symm⟩
  case circles =>
    rintro ⟨lead, knot, loop, free, hcircles, hcircuit⟩
    obtain ⟨t, hturn, hend, hendless⟩ := hcircles.turn_circuit spans.places_lt
    rw [hcircuit] at hturn
    obtain ⟨after, hrun, hkeeps⟩ := haccepted t hturn hend
    exact ⟨after, t, hrun, hkeeps, hendless⟩
  case refuses =>
    intro hwhole hcircling
    -- Up to the last turn the record holds no change, and from there on it may hold any.
    have hquiet : Discloses (Recorded.store below) v.medium (· < p.dataFrom) (fun _ _ => False)
        fun t image => Recorded.Asked (fun q => q.changes = false) t.1 ∧ holds t.2 image :=
      Recorded.discloses hD fun _ _ => rfl
    have hloud : Takes (Recorded.store below) v.medium (· < p.dataFrom) (fun _ _ => False)
        fun t image => Recorded.Asked (fun _ => True) t.1 ∧ holds t.2 image :=
      Recorded.takes hT fun _ _ _ => trivial
    have hrecorded := resize_turns hquiet hloud (fun _ _ h => ⟨fun _ _ => trivial, h.2⟩) spans
      hfiles told hfile hblocks (s := ([], s)) ⟨Recorded.asked_nil _, hs⟩
    rcases hrecorded.exists_run with
      ⟨_, _, -, -, t, hturn, hend, -⟩ | ⟨_, ⟨record, after⟩, hrun, -, ⟨damage, rfl⟩, hafter⟩
    · rcases hfinishes.mp ⟨t, hturn, hend⟩ with ⟨entries, hentries⟩ | hno
      · exact (hwhole entries hentries).elim
      · exact (hcircling hno).elim
    · exact ⟨damage, record, after, hrun, hafter⟩

/-- The file of a medium of five blocks whose chain leads from entry 1 to
entry 0. It is given back, and the free chain is the other way around. -/
theorem truncates_crafted :
    let m := crafted Link.endMark ⟨⟨1⟩, 2⟩ Link.endMark
    let plan : Plan := ⟨1, 1, 2⟩
    Discloses Memory.store 0 (· < plan.dataFrom) (fun _ _ => False) (Memory.Carries 0 5) ∧
      Takes Memory.store 0 (· < plan.dataFrom) (fun _ _ => False) (Memory.Carries 0 5) ∧
      plan.Spans 5 ∧ 64 * (1 : UInt32).toNat < 4294967296 ∧ plan.ToldBy (m.image 0) ∧
      plan.HasFile 0 ∧ ((plan.catalog (m.image 0)).record 0).blocks ≠ 0 ∧
      Memory.Carries 0 5 m (m.image 0) ∧
      (⟨0⟩ : Volume).Truncates Memory.store plan (Memory.Carries 0 5) (m.image 0) 0 m ∧
      Whole plan (plan.catalog (m.image 0)) 0 [⟨1⟩, ⟨0⟩] ∧
      ∃ after t, (⟨0⟩ : Volume).store Memory.store (.resize 0 0) m = .ok 2 after ∧
        Keeps plan (Memory.Carries 0 5) ((plan.catalog (m.image 0)).gaveBack 0 t) after ∧
        Path t.links t.head [⟨0⟩, ⟨1⟩] Link.endMark := by
  intro m plan
  have spans : plan.Spans 5 := ⟨by decide, by decide, by decide, by decide⟩
  have hM := Memory.medium 0 5
  have hD := spans.tables hM.toLegible
  have hT := hM.takes.restrict spans.tables_lt
  have told : plan.ToldBy (m.image 0) := ⟨by decide +kernel, by decide +kernel⟩
  have hrecord : (plan.catalog (m.image 0)).record 0 = ⟨⟨1⟩, 2⟩ := by decide +kernel
  have hblocks : ((plan.catalog (m.image 0)).record 0).blocks ≠ 0 := by
    rw [hrecord]
    decide
  have hs := carries_crafted Link.endMark ⟨⟨1⟩, 2⟩ Link.endMark
  have htruncates : (⟨0⟩ : Volume).Truncates Memory.store plan (Memory.Carries 0 5) (m.image 0) 0
      m :=
    truncates hD hT spans (by decide) told (by decide) hblocks hs
  have hwhole : Whole plan (plan.catalog (m.image 0)) 0 [⟨1⟩, ⟨0⟩] := by
    have hfirst : (plan.catalog (m.image 0)).link ⟨1⟩ = ⟨0⟩ := by decide +kernel
    have hlast : (plan.catalog (m.image 0)).link ⟨0⟩ = Link.endMark := by decide +kernel
    rw [Whole, hrecord]
    exact ⟨⟨⟨rfl, hfirst, hlast⟩, by decide, by decide⟩, rfl⟩
  -- The free chain of the medium is empty, so the chain of the file becomes all of it.
  obtain ⟨after, t, hrun, hkeeps, hpath⟩ := htruncates.returns _ hwhole
  rw [hrecord] at hrun
  have hfree : (plan.catalog (m.image 0)).superblock.freeHead = Link.endMark := by decide +kernel
  exact ⟨hD, hT, spans, by decide, told, by decide, hblocks, hs, htruncates, hwhole, after, t, hrun,
    hkeeps, hpath [] Link.endMark hfree nofun⟩

/-- A file of two blocks whose first entry leads to itself has no chain
that ends, and is resized to nothing. The free chain then is that entry,
and it leads to itself. -/
theorem resize_circling :
    (∀ entries, ¬ Whole ⟨1, 1, 2⟩ ((⟨1, 1, 2⟩ : Plan).catalog
        ((crafted Link.endMark ⟨⟨0⟩, 2⟩ ⟨0⟩).image 0)) 0 entries) ∧
      Op.outcome ((⟨0⟩ : Volume).store Memory.store (.resize 0 0))
        (crafted Link.endMark ⟨⟨0⟩, 2⟩ ⟨0⟩) = .ok 2 ∧
      ((⟨1, 1, 2⟩ : Plan).catalog ((Op.next ((⟨0⟩ : Volume).store Memory.store (.resize 0 0))
        (crafted Link.endMark ⟨⟨0⟩, 2⟩ ⟨0⟩)).image 0)).superblock.freeHead = ⟨0⟩ ∧
      ((⟨1, 1, 2⟩ : Plan).catalog ((Op.next ((⟨0⟩ : Volume).store Memory.store (.resize 0 0))
        (crafted Link.endMark ⟨⟨0⟩, 2⟩ ⟨0⟩)).image 0)).link ⟨0⟩ = ⟨0⟩ := by
  refine ⟨?_, by decide +kernel⟩
  rintro entries ⟨htrail, -⟩
  have hhead : (((⟨1, 1, 2⟩ : Plan).catalog
      ((crafted Link.endMark ⟨⟨0⟩, 2⟩ ⟨0⟩).image 0)).record 0).head = ⟨0⟩ := by decide +kernel
  have hlink : ∀ entry : Link, entry = ⟨0⟩ → ((⟨1, 1, 2⟩ : Plan).catalog
      ((crafted Link.endMark ⟨⟨0⟩, 2⟩ ⟨0⟩).image 0)).link entry = ⟨0⟩ := by
    rintro _ rfl
    decide +kernel
  -- Whoever follows the link stays at the entry, which is not the end mark.
  exact absurd (htrail.path.stop_mem hlink hhead) (by decide)

end Volume

end BlockLayers.Fat
