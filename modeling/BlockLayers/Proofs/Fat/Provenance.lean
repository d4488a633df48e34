import BlockLayers.Proofs.Fat.Emptied

/-!
# `BlockLayers.Proofs.Fat.Provenance`: where the blocks of a file come from

Entries that a file gave back are taken by other files, and their data
blocks still hold what was written there. A growth clears them after it
has written the record of its file, so it leaves bare entries in the
file when it is interrupted in between.

`Origins` keeps account of what a block of a file may be: what writes
carried to its place since the file was last emptied, and the places
that a file gained by a write that failed.

Main statement: `read_origin`, for any calls to a volume that was just
formatted, any of whose calls of the store below may fail. A block that
is read is zeros or was carried to its place, unless the place is bare.
-/

set_option autoImplicit false

namespace BlockLayers.Fat.Volume

variable {v : Volume} {plan : Plan} {size : Nat} {catalog catalog' : Catalog} {a a' : Chains}
  {m : Memory} {schedule : Nat → Option Fault}

/-- What the blocks of files may be: the blocks that writes carried to a
place since its file was last emptied, and the places that a file gained
by a write that failed, and where no write has been answered since. -/
structure Origins where
  /-- A write carried the block to the place. -/
  carried : Address → Block → Prop
  /-- The place is one that a failed write left. -/
  bare : Address → Prop

/-- Nothing was written. -/
def Origins.none : Origins := ⟨fun _ _ => False, fun _ => False⟩

/-- A file was resized to nothing: the call was answered, or it failed
and has left no blocks. -/
def EmptiedBy (v : Volume) (below : Store (Nat × Memory)) (c : Call) (s : Nat × Memory)
    (ino : UInt32) : Prop :=
  c = .request (.resize ino 0) ∧ ((∃ value, Op.outcome (v.serve below c) s = .ok value) ∨
    v.toldSize (Op.next (v.serve below c) s).2 ino = .ok 0)

/-- A write was answered. -/
def AnsweredAt (v : Volume) (below : Store (Nat × Memory)) (c : Call) (s : Nat × Memory)
    (addr : Address) : Prop :=
  ∃ data value, c = .request (.write addr data) ∧ Op.outcome (v.serve below c) s = .ok value

/-- A file gained a place by a write that failed. -/
def BaredAt (v : Volume) (below : Store (Nat × Memory)) (c : Call) (s : Nat × Memory)
    (addr : Address) : Prop :=
  ∃ offset data stop old new, c = .request (.write ⟨addr.ino, offset⟩ data) ∧
    Op.outcome (v.serve below c) s = .error stop ∧ v.toldSize s.2 addr.ino = .ok old ∧
    v.toldSize (Op.next (v.serve below c) s).2 addr.ino = .ok new ∧
    old ≤ addr.offset ∧ addr.offset < new

/-- The account after one more call. -/
def Origins.next (v : Volume) (below : Store (Nat × Memory)) (o : Origins) (c : Call)
    (s : Nat × Memory) : Origins where
  carried addr block := c = .request (.write addr block) ∨
    ¬ v.EmptiedBy below c s addr.ino ∧ o.carried addr block
  bare addr := v.BaredAt below c s addr ∨
    ¬ v.EmptiedBy below c s addr.ino ∧ ¬ v.AnsweredAt below c s addr ∧ o.bare addr

/-- A block that the account accounts for at a place. -/
def Origins.Explains (o : Origins) (addr : Address) (block : Block) : Prop :=
  block = Block.zero ∨ o.carried addr block ∨ o.bare addr

/-- The files on a medium have blocks that the account accounts for. -/
def Explained (v : Volume) (plan : Plan) (size : Nat) (m : Memory) (o : Origins) : Prop :=
  ∃ catalog a, Keeps plan (Memory.Carries v.medium size) catalog m ∧ Sound plan catalog a ∧
    ∀ addr block, plan.HasFile addr.ino →
      (a.blocks catalog addr.ino)[addr.offset.toNat]? = some block → o.Explains addr block

/-- A block that was accounted for stays so in a file that is not
emptied, and where no write was answered. -/
theorem Origins.Explains.next {o : Origins} {below : Store (Nat × Memory)} {c : Call}
    {s : Nat × Memory} {addr : Address} {block : Block} (h : o.Explains addr block)
    (hkept : ¬ v.EmptiedBy below c s addr.ino) (hsilent : ¬ v.AnsweredAt below c s addr) :
    (Origins.next v below o c s).Explains addr block := by
  rcases h with hzero | hcarried | hbare
  · exact .inl hzero
  · exact .inr (.inl (.inr ⟨hkept, hcarried⟩))
  · exact .inr (.inr (.inr ⟨hkept, hsilent, hbare⟩))

/-- The blocks of a file after a call: each is zeros, or the block of a
write to the place, or one that the file had there, or one that the file
gained by a write that failed. -/
theorem Became.block {c : Call} {result : Except Stop c.Answer}
    (h : Became plan c result catalog a catalog' a') {addr : Address} {block : Block}
    (hblock : (a'.blocks catalog' addr.ino)[addr.offset.toNat]? = some block) :
    block = Block.zero ∨ c = .request (.write addr block) ∨
      ((a.blocks catalog addr.ino)[addr.offset.toNat]? = some block ∧
        ¬ ∃ data value, c = .request (.write addr data) ∧ result = .ok value) ∨
      (a.blocks catalog addr.ino).length ≤ addr.offset.toNat ∧
        ∃ offset data stop, c = .request (.write ⟨addr.ino, offset⟩ data) ∧
          result = .error stop := by
  cases c with
  | occupancy =>
    obtain ⟨rfl, rfl⟩ := h
    exact .inr (.inr (.inl ⟨hblock, nofun⟩))
  | request q =>
    cases result with
    | ok value =>
      -- What was answered is what the map of files does, so the blocks are known from there.
      rcases FileMap.of_getElem?_store h.1 hblock with hzero | rfl | ⟨hbefore, hother⟩
      · exact .inl hzero
      · exact .inr (.inl rfl)
      · refine .inr (.inr (.inl ⟨hbefore, ?_⟩))
        rintro ⟨data, _, hc, -⟩
        exact hother data (Call.request.inj hc)
    | error stop =>
      -- A call that failed has left the file alone, emptied it, or let it grow.
      rcases Left.blocks h addr.ino with hsame | hempty | ⟨offset, data, rfl, hbegins⟩
      · rw [hsame] at hblock
        exact .inr (.inr (.inl ⟨hblock, nofun⟩))
      · rw [hempty] at hblock
        cases hblock
      · by_cases hlength : addr.offset.toNat < (a.blocks catalog addr.ino).length
        · -- The blocks that the file had are still its first ones.
          rw [List.prefix_iff_getElem?.mp hbegins _ hlength] at hblock
          exact .inr (.inr (.inl ⟨(List.getElem?_eq_getElem hlength).trans hblock, nofun⟩))
        · exact .inr (.inr (.inr ⟨Nat.not_lt.mp hlength, offset, data, stop, rfl, rfl⟩))

/-- A file that was resized to nothing has no blocks. -/
theorem Became.size_emptied {below : Store (Nat × Memory)} {c : Call} {s : Nat × Memory}
    (h : Became plan c (Op.outcome (v.serve below c) s) catalog a catalog' a') {ino : UInt32}
    (hafter : v.toldSize (Op.next (v.serve below c) s).2 ino =
      .ok (UInt32.ofNat (a'.blocks catalog' ino).length)) (hemptied : v.EmptiedBy below c s ino) :
    UInt32.ofNat (a'.blocks catalog' ino).length = 0 := by
  obtain ⟨rfl, ⟨value, hvalue⟩ | hempty⟩ := hemptied
  · rw [hvalue] at h
    exact FileMap.size_emptied h.1
  · exact Except.ok.inj (hafter.symm.trans hempty)

/-- A call leaves files whose blocks are accounted for. -/
theorem explained_serve (fits : plan.Fits size) (c : Call) {s : Nat × Memory} {o : Origins}
    (h : v.Explained plan size s.2 o) :
    v.Explained plan size (Op.next (v.serve (Unsteady.store schedule Memory.store) c) s).2
      (o.next v (Unsteady.store schedule Memory.store) c s) := by
  obtain ⟨catalog, a, hs, hsound, hexplains⟩ := h
  obtain ⟨catalog', a', hs', hsound', hbecame⟩ :=
    serve_became schedule fits.toDivides hsound hs c
  refine ⟨catalog', a', hs', hsound', fun addr block hino hblock => ?_⟩
  have hbefore := outcome_size fits.toUsable hsound hs hino
  have hafter := outcome_size fits.toUsable hsound' hs' hino
  have hlt := (List.getElem?_eq_some_iff.mp hblock).1
  -- The file has a block after the call, so it was not emptied by it.
  have hkept : ¬ v.EmptiedBy (Unsteady.store schedule Memory.store) c s addr.ino := by
    intro hemptied
    rw [← toNat_ofNat_blocks hsound' addr.ino, hbecame.size_emptied hafter hemptied] at hlt
    exact Nat.not_lt_zero _ hlt
  -- A place that a failed write gave to the file is told by the two sizes around the call.
  rcases hbecame.block hblock with
    hzero | hwritten | ⟨hsame, hsilent⟩ | ⟨hgained, offset, data, stop, hc, hfail⟩
  · exact .inl hzero
  · exact .inr (.inl (.inl hwritten))
  · exact (hexplains addr block hino hsame).next hkept hsilent
  · refine .inr (.inr (.inl ⟨offset, data, stop, _, _, hc, hfail, hbefore, hafter, ?_, ?_⟩))
    · rw [UInt32.le_iff_toNat_le, toNat_ofNat_blocks hsound]
      exact hgained
    · rw [UInt32.lt_iff_toNat_lt, toNat_ofNat_blocks hsound']
      exact hlt

/-- A new volume has no blocks in its files. -/
theorem explained_formatted {files : UInt32} (hfresh : v.Unformatted m) {first : Nat}
    {start : Nat × Memory}
    (hformat : v.format (Unsteady.store schedule Memory.store) files (first, m) = .ok () start) :
    ∃ plan, Plan.make (m.told v.medium) files = .ok plan ∧
      v.Explained plan (m.told v.medium).toNat start.2 Origins.none := by
  obtain ⟨plan, data, hplan, hkeeps⟩ := fresh_formatted hfresh hformat
  refine ⟨plan, hplan, _, _, hkeeps, fresh_sound (Plan.make_divides hplan) data, ?_⟩
  intro addr block _ hblock
  cases hblock

/-- A block that is read from a file is accounted for. -/
theorem Explained.of_read (fits : plan.Fits size) {o : Origins} {s : Nat × Memory}
    (h : v.Explained plan size s.2 o) {addr : Address} {block : Block}
    (hread : Op.outcome (v.store (Unsteady.store schedule Memory.store) (.read addr)) s =
      .ok block) : o.Explains addr block := by
  obtain ⟨catalog, a, hs, hsound, hexplains⟩ := h
  have hM := Unsteady.memory_medium schedule v.medium size
  rcases (read_answers hM fits.toUsable hsound hs addr).outcome_next with
    ⟨value, hvalue, -, hrun⟩ | ⟨fault, hfault, -⟩
  · obtain rfl : block = value := Except.ok.inj (hread.symm.trans hvalue)
    obtain ⟨hino, hrun⟩ := FileMap.of_within_ok hrun
    refine hexplains addr block ((Chains.lt_files_count fits.toUsable).mp hino) ?_
    -- The answer is the block that the file has at the place, as nothing else is answered.
    split at hrun <;> cases hrun
    assumption
  · cases hread.symm.trans hfault

/-- When the number of files is no word, no block is read. -/
theorem not_read_overflow (divides : plan.Divides size)
    (hfiles : ¬ 64 * plan.recordBlocks.toNat < 4294967296) {s : Nat × Memory}
    (h : v.ChainsSound plan size s.2) (addr : Address) (block : Block) :
    Op.outcome (v.store (Unsteady.store schedule Memory.store) (.read addr)) s ≠ .ok block := by
  obtain ⟨image, a, hcarries, hsound⟩ := h
  have hM := Unsteady.memory_medium schedule v.medium size
  exact (locate_overflow hM divides hfiles hsound ⟨image, hcarries, rfl⟩ addr.ino _).outcome_ne_ok
    block

/-- Where the blocks of files come from: a volume is formatted, and then
any calls are made to it, any of whose calls of the store below may
fail. A block that is read then is zeros, or was carried to its place by
a write since the file was last emptied, unless the file gained the
place by a write that failed, and no write to it has been answered
since. -/
theorem read_origin {files : UInt32} (hfresh : v.Unformatted m) {formatting : Nat → Option Fault}
    {first : Nat} {start : Nat × Memory}
    (hformat : v.format (Unsteady.store formatting Memory.store) files (first, m) = .ok () start)
    (schedule : Nat → Option Fault) (calls : List Call) {addr : Address} {block : Block}
    (hread : Op.outcome (v.store (Unsteady.store schedule Memory.store) (.read addr))
      (Op.after (v.serve (Unsteady.store schedule Memory.store)) calls start) = .ok block) :
    (Op.accounted (v.serve (Unsteady.store schedule Memory.store))
      (Origins.next v (Unsteady.store schedule Memory.store)) calls start Origins.none).Explains
      addr block := by
  obtain ⟨plan, hplan, hstart⟩ := explained_formatted hfresh hformat
  have hdivides := Plan.make_divides hplan
  by_cases hfiles : 64 * plan.recordBlocks.toNat < 4294967296
  · have fits : plan.Fits (m.told v.medium).toNat := ⟨hdivides, hfiles⟩
    exact Explained.of_read fits (Op.accounted_invariant
      (fun s : Nat × Memory => v.Explained plan (m.told v.medium).toNat s.2)
      (Origins.next v (Unsteady.store schedule Memory.store))
      (fun c _ _ h => explained_serve fits c h) calls hstart) hread
  · -- The chains stay sound all the same, and no call gets as far as reading a block.
    obtain ⟨catalog, a, hs, hsound, -⟩ := hstart
    refine absurd hread (not_read_overflow hdivides hfiles ?_ addr block)
    exact Op.after_invariant
      (fun s : Nat × Memory => v.ChainsSound plan (m.told v.medium).toNat s.2)
      (fun c _ h => chainsSound_serve hdivides c h) calls (.of_keeps hs hsound)

/-- An answer is a block of one byte if its list of bytes is. A list is
compared from its front, where every index of a vector is looked up. -/
theorem eq_ok_fill {ε : Type} {answer : Except ε Block} {b : UInt8}
    (h : answer.map Vector.toList = .ok (List.replicate 512 b)) : answer = .ok (Block.fill b) := by
  cases answer with
  | error e => cases h
  | ok block =>
    have hlist : block.toList = (Block.fill b).toList := Except.ok.inj h
    rw [Vector.toList_inj.mp hlist]

/-- A block that was written to a new volume of four blocks. -/
theorem read_origin_zeros :
    ∃ start, (⟨0⟩ : Volume).format (Unsteady.store (fun _ => none) Memory.store) 1
        (0, Memory.zeros 4) = .ok () start ∧
      Op.outcome ((⟨0⟩ : Volume).store (Unsteady.store (fun _ => none) Memory.store)
          (.read ⟨0, 0⟩))
        (Op.after ((⟨0⟩ : Volume).serve (Unsteady.store (fun _ => none) Memory.store))
          [.request (.write ⟨0, 0⟩ (Block.fill 0xEE))] start) = .ok (Block.fill 0xEE) ∧
      (Op.accounted ((⟨0⟩ : Volume).serve (Unsteady.store (fun _ => none) Memory.store))
        (Origins.next ⟨0⟩ (Unsteady.store (fun _ => none) Memory.store))
        [.request (.write ⟨0, 0⟩ (Block.fill 0xEE))] start Origins.none).Explains ⟨0, 0⟩
        (Block.fill 0xEE) := by
  have hformat := Op.apply_of_outcome_ok (show
    Op.outcome ((⟨0⟩ : Volume).format (Unsteady.store (fun _ => none) Memory.store) 1)
      (0, Memory.zeros 4) = .ok () by decide +kernel)
  refine ⟨_, hformat, ?_⟩
  -- The run is evaluated, and the block compared by its bytes.
  have hread : Op.outcome ((⟨0⟩ : Volume).store (Unsteady.store (fun _ => none) Memory.store)
      (.read ⟨0, 0⟩))
      (Op.after ((⟨0⟩ : Volume).serve (Unsteady.store (fun _ => none) Memory.store))
        [.request (.write ⟨0, 0⟩ (Block.fill 0xEE))]
        (Op.next ((⟨0⟩ : Volume).format (Unsteady.store (fun _ => none) Memory.store) 1)
          (0, Memory.zeros 4))) = .ok (Block.fill 0xEE) := eq_ok_fill (by decide +kernel)
  exact ⟨hread, read_origin unformatted_zeros hformat (fun _ => none) _ hread⟩

/-- File 0 gives an entry back, and file 1 is to take it in and one
more. -/
def reusing : List Call :=
  [.request (.write ⟨0, 0⟩ (Block.fill 0xEE)), .request (.resize 0 0),
    .request (.write ⟨1, 1⟩ Block.zero)]

/-- A volume of five blocks after these calls, the last of which fails
where it clears the block that it skips, with the call 24 of the store
below. -/
def uncleared : Nat × Memory :=
  Op.after ((⟨0⟩ : Volume).serve
      (Unsteady.store (fun call => if call = 24 then some .io else none) Memory.store)) reusing
    (Op.next ((⟨0⟩ : Volume).format (Unsteady.store (fun _ => none) Memory.store) 1)
      (0, Memory.zeros 5))

/-- File 1 has the block that was written to file 0, and no block was
written to the place. -/
theorem read_uncleared :
    Op.outcome ((⟨0⟩ : Volume).format (Unsteady.store (fun _ => none) Memory.store) 1)
        (0, Memory.zeros 5) = .ok () ∧
      Op.outcome ((⟨0⟩ : Volume).store Memory.store (.read ⟨1, 0⟩)) uncleared.2 =
        .ok (Block.fill 0xEE) ∧
      Block.fill 0xEE ≠ Block.zero ∧ ∀ data, .request (.write ⟨1, 0⟩ data) ∉ reusing := by
  refine ⟨by decide +kernel, eq_ok_fill (by decide +kernel), by decide +kernel, fun data hmem => ?_⟩
  simp [reusing] at hmem

end BlockLayers.Fat.Volume
