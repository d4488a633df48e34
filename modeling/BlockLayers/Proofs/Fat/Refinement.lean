import BlockLayers.Proofs.Agrees
import BlockLayers.Proofs.Fat.Format
import BlockLayers.Proofs.Fat.Occupancy
import BlockLayers.Proofs.Unsteady

/-!
# `BlockLayers.Proofs.Fat.Refinement`: a volume over a store in memory

A medium in memory is formatted, and then calls are made to the volume
on it.

Main statements: `outcomes_eq_fileMap` (the calls end as they do on a
map of files) and `chainsSound_after` (the chains stay sound when any
calls of the store below fail).
-/

set_option autoImplicit false

namespace BlockLayers

namespace Memory

variable {m : Memory}

/-- The size of an inode as it is told. -/
def told (m : Memory) (ino : UInt32) : UInt32 := UInt32.ofNat (m.inodes.getD ino.toNat #[]).size

/-- An inode that is there carries its blocks. -/
theorem exists_carries (h : m.dead = false) {ino : UInt32} (hino : ino.toNat < m.inodes.size) :
    ∃ image, Carries ino (m.told ino).toNat m image := by
  refine ⟨fun n => (m.inodes[ino.toNat]).getD n Block.zero, h, m.inodes[ino.toNat],
    Array.getElem?_eq_getElem hino, ?_, fun n hn => ?_⟩
  · rw [told, Array.getD_eq_getD_getElem?, Array.getElem?_eq_getElem hino]
    exact (UInt32.toNat_ofNat' ..).symm
  · rw [told, Array.getD_eq_getD_getElem?, Array.getElem?_eq_getElem hino, Option.getD_some,
      UInt32.toNat_ofNat'] at hn
    have hlt := Nat.lt_of_lt_of_le hn (Nat.mod_le _ _)
    dsimp only
    rw [Array.getD_eq_getD_getElem?, Array.getElem?_eq_getElem hlt, Option.getD_some]

/-- An inode that answers a request carries its blocks. -/
theorem carries_of_ok {q : Request} {ino : UInt32} (hq : q.inode? = some ino) {value : q.Answer}
    {after : Memory} (h : store q m = .ok value after) :
    ∃ image, Carries ino (m.told ino).toNat m image := by
  -- A dead store answers nothing, and neither does one without the inode.
  have hdead : m.dead = false := by
    rw [Bool.eq_false_iff]
    intro hdead
    rw [store_dead hdead] at h
    cases h
  refine exists_carries hdead (Nat.not_le.mp fun hle => ?_)
  rw [store_apply_of_le hdead hq hle] at h
  cases h

/-- A store of one inode, all zeros. -/
def zeros (blocks : Nat) : Memory := ⟨#[Array.replicate blocks Block.zero], false, 0⟩

/-- The blocks of the store are zeros. -/
theorem carries_zeros {blocks : Nat} (h : blocks < 4294967296) :
    Carries 0 blocks (zeros blocks) fun _ => Block.zero :=
  ⟨rfl, Array.replicate blocks Block.zero, rfl,
    by rw [Array.size_replicate, Nat.mod_eq_of_lt h], fun n hn => by simp [hn]⟩

end Memory

namespace Fat.Volume

variable {v : Volume} {files : UInt32} {m m' : Memory}

/-- The medium of the volume holds no file system. -/
def Unformatted (v : Volume) (m : Memory) : Prop :=
  ∀ block, Plain.block? m.inodes ⟨v.medium, 0⟩ = some block →
    (Superblock.decode block).formatted = false

/-- A medium for which there is a plan is formatted. -/
theorem format_ok {plan : Plan} {image : Nat → Block}
    (hcarries : Memory.Carries v.medium (m.told v.medium).toNat m image)
    (hempty : (Superblock.decode (image 0)).formatted = false)
    (hplan : Plan.make (m.told v.medium) files = .ok plan) :
    ∃ m', v.format Memory.store files m = .ok () m' ∧
      Keeps plan (Memory.Carries v.medium (m.told v.medium).toNat)
        (plan.fresh (plan.catalog image).data) m' := by
  have hends := format_ends (Memory.medium v.medium (m.told v.medium).toNat) hplan rfl
    (Plan.make_divides hplan) (.inr fun _ => rfl) hempty hcarries
  obtain ⟨_, m', hrun, hkeeps⟩ := hends.ok fun _ _ h => h
  exact ⟨m', hrun, hkeeps⟩

/-- What the blocks of a medium are that holds no file system. -/
theorem Unformatted.first (h : v.Unformatted m) {size : Nat} {image : Nat → Block}
    (hcarries : Memory.Carries v.medium size m image) (hpos : 0 < size) :
    (Superblock.decode (image 0)).formatted = false := by
  refine h (image 0) ?_
  obtain ⟨-, blocks, hblocks, -, himage⟩ := hcarries
  rw [Plain.block?, Plain.at_, Array.getD_eq_getD_getElem?, hblocks]
  exact himage 0 hpos

/-- A medium that is formatted and held no file system before has the
tables of a new one. -/
theorem format_eq_ok (hfresh : v.Unformatted m)
    (hformat : v.format Memory.store files m = .ok () m') :
    ∃ plan data, Plan.make (m.told v.medium) files = .ok plan ∧
      Keeps plan (Memory.Carries v.medium (m.told v.medium).toNat) (plan.fresh data) m' := by
  -- Formatting asks for the size first, which only a live store with the inode tells.
  obtain ⟨_, _, hsize, -⟩ := Op.exists_of_bind_ok hformat
  obtain ⟨image, hcarries⟩ := Memory.carries_of_ok rfl hsize
  exact formatted_keeps (Memory.medium v.medium _) (fun _ => rfl) rfl (hfresh.first hcarries)
    hcarries hformat

/-- Zeros are no file system. -/
theorem unformatted_zeros {blocks : Nat} : (⟨0⟩ : Volume).Unformatted (Memory.zeros blocks) := by
  intro block hblock
  have hfirst : (Array.replicate blocks Block.zero)[0]? = some block := hblock
  rw [Array.getElem?_replicate] at hfirst
  split at hfirst
  · obtain rfl : Block.zero = block := Option.some.inj hfirst
    decide
  · cases hfirst

/-- A new medium of four blocks is formatted, with one entry. -/
theorem format_zeros_keeps :
    ∃ m' data, (⟨0⟩ : Volume).format Memory.store 1 (Memory.zeros 4) = .ok () m' ∧
      Keeps ⟨1, 1, 1⟩ (Memory.Carries 0 4) (Plan.fresh ⟨1, 1, 1⟩ data) m' := by
  have hcarries := Memory.carries_zeros (show 4 < 4294967296 by decide)
  have hplan : Plan.make 4 1 = .ok ⟨1, 1, 1⟩ := by decide
  obtain ⟨m', hformat, hkeeps⟩ :=
    format_ok (v := ⟨0⟩) (m := Memory.zeros 4) hcarries (by decide) hplan
  exact ⟨m', _, hformat, hkeeps⟩

/-- A new medium of four blocks can be formatted. -/
theorem format_zeros_four :
    ∃ m', (⟨0⟩ : Volume).format Memory.store 1 (Memory.zeros 4) = .ok () m' := by
  obtain ⟨m', -, hformat, -⟩ := format_zeros_keeps
  exact ⟨m', hformat⟩

/-- What is known of a volume and the map of files that it stands for. -/
def Refines (v : Volume) (plan : Plan) (size : Nat) (m : Memory) (f : FileMap) : Prop :=
  ∃ catalog a, Keeps plan (Memory.Carries v.medium size) catalog m ∧ Sound plan catalog a ∧
    Matches plan catalog a f

/-- What is known of a store that a volume is on, and of the map of files
that the volume stands for. -/
def Presents {σ : Type} (plan : Plan) (holds : σ → (Nat → Block) → Prop) (s : σ) (f : FileMap) :
    Prop :=
  ∃ catalog a, Keeps plan holds catalog s ∧ Sound plan catalog a ∧ Matches plan catalog a f

/-- A call to a volume over a store that does not fail ends as it does on
the map. -/
theorem serve_agrees {σ : Type} [Journal σ] {below : Store σ} {plan : Plan} {size : Nat}
    {blame : Fault → σ → Prop} {holds : σ → (Nat → Block) → Prop}
    (hM : Medium below v.medium size blame holds) (hnever : ∀ fault s, ¬ blame fault s)
    (fits : plan.Usable size) (c : Call) :
    Op.Agrees (Presents plan holds) (v.serve below c) (FileMap.serve c) := by
  rintro s f ⟨catalog, a, hkeeps, hsound, hf⟩
  refine Op.Ends.agree ?_
  cases c with
  | request q =>
    refine (store_ends hM fits hsound hkeeps q).mono ?_ ?_
    · intro value after hafter
      obtain ⟨catalog', a', f', hkeeps', hsound', hrun, hf'⟩ := hafter.matches hf
      exact ⟨f', hrun, catalog', a', hkeeps', hsound', hf'⟩
    · intro fault after hafter
      -- A failure is never the fault of the store below, so the map refuses the call too.
      rcases hafter.matches hf with ⟨hblame, -⟩ | ⟨hkeeps', hrefused⟩
      · exact (hnever _ _ hblame).elim
      · exact ⟨f, hrefused, catalog, a, hkeeps', hsound, hf⟩
  | occupancy =>
    refine (occupancy_ends hM fits hsound hf hkeeps).mono ?_ ?_
    · intro value after hafter
      obtain ⟨rfl, hkeeps'⟩ := hafter
      exact ⟨f, rfl, catalog, a, hkeeps', hsound, hf⟩
    · intro fault after hafter
      exact (hnever _ _ hafter.2).elim

/-- A call to a volume over a store in memory ends as it does on the
map. -/
theorem serve_agree {plan : Plan} {size : Nat} (fits : plan.Usable size) (c : Call) :
    Op.Agrees (fun m f => v.Refines plan size m f) (v.serve Memory.store c) (FileMap.serve c) :=
  serve_agrees (Memory.medium v.medium size) (fun _ _ hno => hno) fits c

/-- A volume that was just formatted cannot be told from a map of empty
files: every list of calls ends alike on both. -/
theorem outcomes_eq_fileMap (hfresh : v.Unformatted m)
    (hfiles : 64 * ((files.toNat + 63) / 64) < 4294967296)
    (hformat : v.format Memory.store files m = .ok () m') :
    ∃ plan, Plan.make (m.told v.medium) files = .ok plan ∧
      plan.entries.toNat =
        (m.told v.medium).toNat - 1 - plan.recordBlocks.toNat - plan.tableBlocks.toNat ∧
      ∀ calls, Op.outcomes (v.serve Memory.store) calls m' =
        Op.outcomes FileMap.serve calls
          (FileMap.empty (plan.recordBlocks * 64) plan.entries) := by
  obtain ⟨plan, data, hplan, hkeeps⟩ := format_eq_ok hfresh hformat
  have hdivides := Plan.make_divides hplan
  have hsize := hdivides.size_eq
  unfold Plan.dataFrom Plan.linksFrom at hsize
  refine ⟨plan, hplan, by omega, fun calls => ?_⟩
  have fits : plan.Fits (m.told v.medium).toNat := ⟨hdivides, Plan.make_files_lt hplan hfiles⟩
  -- A new medium presents empty files, and each call keeps the two in step.
  exact Op.outcomes_eq (serve_agree fits.toUsable) calls
    ⟨_, _, hkeeps, fresh_sound hdivides data, fresh_matches plan data⟩

/-- The calls to a volume on four blocks, which has room for one. -/
theorem outcomes_eq_fileMap_zeros :
    ∃ m', (⟨0⟩ : Volume).format Memory.store 1 (Memory.zeros 4) = .ok () m' ∧
      ∃ plan, Plan.make ((Memory.zeros 4).told 0) 1 = .ok plan ∧
        plan.entries.toNat =
          ((Memory.zeros 4).told 0).toNat - 1 - plan.recordBlocks.toNat - plan.tableBlocks.toNat ∧
        ∀ calls, Op.outcomes ((⟨0⟩ : Volume).serve Memory.store) calls m' =
          Op.outcomes FileMap.serve calls
            (FileMap.empty (plan.recordBlocks * 64) plan.entries) := by
  obtain ⟨m', hformat⟩ := format_zeros_four
  exact ⟨m', hformat, outcomes_eq_fileMap unformatted_zeros (by decide) hformat⟩

/-! ### A store below that fails -/

section Failing

variable {σ : Type} [Journal σ] {below : Store σ} {plan : Plan} {size : Nat}
  {blame : Fault → σ → Prop} {holds : σ → (Nat → Block) → Prop} {catalog : Catalog} {a : Chains}
  {s : σ} {α : Type}

/-- The operation stops and has changed nothing: the number of files is
no word, or the store below failed before. -/
def Stuck (plan : Plan) (blame : Fault → σ → Prop) (holds : σ → (Nat → Block) → Prop)
    (catalog : Catalog) (x : Op σ α) (s : σ) : Prop :=
  ∃ stop after, x s = .error stop after ∧ Keeps plan holds catalog after ∧
    (stop = .abort .mulOverflow ∨ ∃ fault, stop = .fault fault ∧ blame fault after)

omit [Journal σ] in

/-- What is stuck has changed nothing. -/
theorem Stuck.keeps {x : Op σ α} (h : Stuck plan blame holds catalog x s) :
    Keeps plan holds catalog (Op.next x s) := by
  obtain ⟨stop, after, hrun, hafter, -⟩ := h
  unfold Op.next
  rw [hrun]
  exact hafter

omit [Journal σ] in
/-- What is stuck is not answered. -/
theorem Stuck.outcome_ne_ok {x : Op σ α} (h : Stuck plan blame holds catalog x s) (value : α) :
    Op.outcome x s ≠ .ok value := by
  obtain ⟨stop, after, hrun, -⟩ := h
  unfold Op.outcome
  rw [hrun]
  nofun

/-- What has become of the files and of the chains by the end of a call.
A request that is answered has done what it does to a map of the files;
one that fails has left what it may leave. -/
def Became (plan : Plan) : (c : Call) → Except Stop c.Answer → Catalog → Chains → Catalog →
    Chains → Prop
  | .request q, .ok value, m, a, m', a' =>
    FileMap.store q (a.files plan m) = .ok value (a'.files plan m') ∧ ∀ ino, a.Settles a' ino
  | .request q, .error _, m, a, m', a' => Left plan q m a m' a'
  | .occupancy, _, m, a, m', a' => m' = m ∧ a' = a

/-- When the number of files is no word, a call that works it out ends
there. -/
theorem files_overflow (hM : Medium below v.medium size blame holds) (divides : plan.Divides size)
    (hfiles : ¬ 64 * plan.recordBlocks.toNat < 4294967296) (hsound : Sound plan catalog a)
    (hs : Keeps plan holds catalog s) (rest : Superblock → UInt32 → Op σ α) :
    Stuck plan blame holds catalog
      (v.superblock below >>= fun sb => liftM sb.files >>= rest sb) s := by
  obtain ⟨image, hs, rfl⟩ := hs
  unfold Stuck
  rw [Op.bind_apply]
  rcases (superblock_ends (divides.tables hM.toLegible) divides.toSpans
    hsound.recordBlocks_eq hs).exists_run with
    ⟨_, after, hrun, rfl, hafter⟩ | ⟨fault, after, hrun, hafter, hblame⟩
  · -- The product of the records and 64 is no word.
    have hno : (plan.catalog image).superblock.files = .error .mulOverflow := by
      rw [Superblock.files, hsound.recordBlocks_eq, Checked.mul]
      refine if_neg ?_
      rw [show (64 : UInt32).toNat = 64 from rfl]
      omega
    rw [hrun]
    dsimp only
    rw [hno]
    exact ⟨_, after, rfl, ⟨image, hafter, rfl⟩, .inl rfl⟩
  · rw [hrun]
    exact ⟨_, after, rfl, ⟨image, hafter, rfl⟩, .inr ⟨fault, rfl, hblame⟩⟩

/-- No file is found. -/
theorem locate_overflow (hM : Medium below v.medium size blame holds) (divides : plan.Divides size)
    (hfiles : ¬ 64 * plan.recordBlocks.toNat < 4294967296) (hsound : Sound plan catalog a)
    (hs : Keeps plan holds catalog s) (ino : UInt32) (rest : Located → Op σ α) :
    Stuck plan blame holds catalog (v.locate below ino >>= rest) s := by
  unfold locate
  simp only [bind_assoc]
  exact files_overflow hM divides hfiles hsound hs _

/-- What is stuck has left everything. -/
theorem Stuck.became {q : Request} (h : Stuck plan blame holds catalog (v.store below q) s) :
    Keeps plan holds catalog (Op.next (v.store below q) s) ∧
      Became plan (.request q) (Op.outcome (v.store below q) s) catalog a catalog a := by
  refine ⟨h.keeps, ?_⟩
  obtain ⟨stop, after, hrun, -⟩ := h
  unfold Op.outcome
  rw [hrun]
  exact Left.refl plan q catalog a

/-- No request changes anything. -/
theorem store_overflow (hM : Medium below v.medium size blame holds) (divides : plan.Divides size)
    (hfiles : ¬ 64 * plan.recordBlocks.toNat < 4294967296) (hsound : Sound plan catalog a)
    (hs : Keeps plan holds catalog s) (q : Request) :
    Keeps plan holds catalog (Op.next (v.store below q) s) ∧
      Became plan (.request q) (Op.outcome (v.store below q) s) catalog a catalog a := by
  cases q with
  | capacity =>
    have hcapacity := files_overflow hM divides hfiles hsound hs fun _ files => pure files
    simp only [bind_pure] at hcapacity
    exact Stuck.became (q := .capacity) hcapacity
  | size ino => exact (locate_overflow hM divides hfiles hsound hs ino _).became
  | resize ino blocks => exact (locate_overflow hM divides hfiles hsound hs ino _).became
  | read addr => exact (locate_overflow hM divides hfiles hsound hs addr.ino _).became
  | write addr data => exact (locate_overflow hM divides hfiles hsound hs addr.ino _).became
  | sync ino =>
    -- A sync asks for no file.
    obtain ⟨image, hs, rfl⟩ := hs
    rcases (hM.sync hs).outcome_next with ⟨_, houtcome, hafter⟩ | ⟨_, houtcome, hafter, -⟩
    · refine ⟨⟨image, hafter, rfl⟩, ?_⟩
      rw [show Op.outcome (v.store below (.sync ino)) s = _ from houtcome]
      exact ⟨rfl, a.settles_refl⟩
    · refine ⟨⟨image, hafter, rfl⟩, ?_⟩
      rw [show Op.outcome (v.store below (.sync ino)) s = _ from houtcome]
      exact ⟨rfl, rfl⟩

/-- What a request does, whatever becomes of it and of the calls of the
store below. -/
theorem store_became (hM : Medium below v.medium size blame holds) (divides : plan.Divides size)
    (hsound : Sound plan catalog a) (hs : Keeps plan holds catalog s) (q : Request) :
    ∃ catalog' a', Keeps plan holds catalog' (Op.next (v.store below q) s) ∧
      Sound plan catalog' a' ∧
      Became plan (.request q) (Op.outcome (v.store below q) s) catalog a catalog' a' := by
  by_cases hfiles : 64 * plan.recordBlocks.toNat < 4294967296
  · rcases (store_ends hM ⟨divides.toSpans, divides.entries_le, hfiles⟩ hsound hs q).outcome_next
      with ⟨value, houtcome, hfollows⟩ | ⟨fault, houtcome, hrefuses⟩
    · obtain ⟨catalog', a', hkeeps', hsound', hsettles, hrun⟩ := hfollows
      exact ⟨catalog', a', hkeeps', hsound', houtcome ▸ ⟨hrun, hsettles⟩⟩
    · obtain ⟨catalog', a', hkeeps', hsound', hleft⟩ :=
        hrefuses.sound hsound (Left.refl plan q catalog a)
      exact ⟨catalog', a', hkeeps', hsound', houtcome ▸ hleft⟩
  · -- The number of files is no word, and every call stops where it is worked out.
    obtain ⟨hkeeps', hbecame⟩ := store_overflow hM divides hfiles hsound hs q
    exact ⟨catalog, a, hkeeps', hsound, hbecame⟩

end Failing

/-- The chains of a volume whose store below may fail are sound. -/
def ChainsSound (v : Volume) (plan : Plan) (size : Nat) (m : Memory) : Prop :=
  ∃ image a, Memory.Carries v.medium size m image ∧ Sound plan (plan.catalog image) a

/-- Sound tables that are kept. -/
theorem ChainsSound.of_keeps {plan : Plan} {size : Nat} {catalog : Catalog} {a : Chains}
    (hs : Keeps plan (Memory.Carries v.medium size) catalog m) (hsound : Sound plan catalog a) :
    v.ChainsSound plan size m := by
  obtain ⟨image, hcarries, rfl⟩ := hs
  exact ⟨image, a, hcarries, hsound⟩

/-- A request leaves sound chains, whichever calls of the store below
fail. -/
theorem chainsSound_next {plan : Plan} {size : Nat} (divides : plan.Divides size)
    (schedule : Nat → Option Fault) (q : Request) {s : Nat × Memory}
    (h : v.ChainsSound plan size s.2) :
    v.ChainsSound plan size (Op.next (v.store (Unsteady.store schedule Memory.store) q) s).2 := by
  obtain ⟨image, a, hcarries, hsound⟩ := h
  obtain ⟨catalog', a', hkeeps', hsound', -⟩ :=
    store_became (Unsteady.memory_medium schedule v.medium size) divides hsound
      ⟨image, hcarries, rfl⟩ q
  exact .of_keeps hkeeps' hsound'

/-- No entry of a volume that was just formatted is ever shared, whichever
calls of the store below fail: after any requests the chains of the
tables on the medium are sound. -/
theorem chainsSound_after (hfresh : v.Unformatted m)
    (hformat : v.format Memory.store files m = .ok () m') (schedule : Nat → Option Fault)
    (requests : List Request) :
    ∃ plan, Plan.make (m.told v.medium) files = .ok plan ∧
      v.ChainsSound plan (m.told v.medium).toNat
        (Op.after (v.store (Unsteady.store schedule Memory.store)) requests (0, m')).2 := by
  obtain ⟨plan, data, hplan, image, hcarries, hm⟩ := format_eq_ok hfresh hformat
  have hdivides := Plan.make_divides hplan
  -- Each request keeps the chains sound, and those of a new volume are.
  refine ⟨plan, hplan, Op.after_invariant (fun s : Nat × Memory => v.ChainsSound plan _ s.2)
    (fun q s hs => chainsSound_next hdivides schedule q hs) requests ?_⟩
  exact ⟨image, freshChains plan, hcarries, hm ▸ fresh_sound hdivides data⟩

/-- The chains of a volume on four blocks. -/
theorem chainsSound_after_zeros :
    ∃ m', (⟨0⟩ : Volume).format Memory.store 1 (Memory.zeros 4) = .ok () m' ∧
      ∀ (schedule : Nat → Option Fault) (requests : List Request),
        ∃ plan, Plan.make ((Memory.zeros 4).told 0) 1 = .ok plan ∧
          (⟨0⟩ : Volume).ChainsSound plan ((Memory.zeros 4).told 0).toNat
            (Op.after ((⟨0⟩ : Volume).store (Unsteady.store schedule Memory.store)) requests
              (0, m')).2 := by
  obtain ⟨m', hformat⟩ := format_zeros_four
  exact ⟨m', hformat, fun schedule requests =>
    chainsSound_after unformatted_zeros hformat schedule requests⟩

end Fat.Volume

end BlockLayers
