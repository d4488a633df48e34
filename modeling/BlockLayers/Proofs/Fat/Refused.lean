import BlockLayers.Proofs.Fat.Damaged
import BlockLayers.Proofs.Recorded

/-!
# `BlockLayers.Proofs.Fat.Refused`: damaged media

A volume stands on a medium with any blocks at all, and a call is made
to it. The store below is only asked to show the same blocks for as long
as nothing is changed (`Portrays`). The sizes of the tables are taken
from the superblock as it is (`Plan.toldBy`).

Main statements: `serve_not_aborted` and `refused_unchanging`. A call is
not aborted where the numbers that the tables lead to are words, and a
request that is refused has changed nothing, where the store below
answered and the chain of a growing file does not leave the table. Both
conditions are needed on a medium with a damaged link (`crafted`), since
the last link of a walk is not checked.
-/

set_option autoImplicit false

namespace BlockLayers

/-- The words of a block of zeros are zero. -/
theorem Block.word_zero (i : Fin 128) : Block.zero.word i = 0 := by
  simp only [word, zero, Vector.getElem_replicate]
  rfl

/-! ### Stores that show an image -/

/-- A store whose inode `ino` shows the blocks of an image while a
condition holds, which lasts until something is changed. -/
structure Portrays {σ : Type} [Journal σ] (below : Store σ) (ino : UInt32) (image : Nat → Block)
    (kept : σ → Prop) : Prop extends Fat.Volume.Outlasts below kept where
  shows : ∀ {n : UInt32} {s after : σ} {block : Block}, kept s →
    below (.read ⟨ino, n⟩) s = .ok block after → block = image n.toNat

namespace Portrays

variable {σ : Type} [Journal σ] {below : Store σ} {ino : UInt32} {image : Nat → Block}
  {kept : σ → Prop}

/-- The condition holds after a request that is no change. -/
theorem kept_of_ok (h : Portrays below ino image kept) {q : Request} (hq : q.changes = false)
    {s after : σ} (hs : kept s) {value : q.Answer} (hrun : below q s = .ok value after) :
    kept after := by
  have hnext := h.look q hq s hs
  unfold Op.next at hnext
  rwa [hrun] at hnext

/-- A store that is never aborted, and may fail at any time. -/
theorem tells (h : Portrays below ino image kept)
    (hends : ∀ q s, Op.Ends (below q) s (fun _ _ => True) fun _ _ => True) (gone : Prop) :
    Fat.Tells below ino image kept (fun _ => True) gone where
  look hq hs := .of_run (fun _ _ hrun => h.kept_of_ok hq hs hrun) (fun _ _ _ => trivial)
    fun _ _ hrun => ((hends _ _).not_abort hrun).elim
  read hs := .of_run (fun _ _ hrun => ⟨h.shows hs hrun, h.kept_of_ok rfl hs hrun⟩)
    (fun _ _ _ => trivial) fun _ _ hrun => ((hends _ _).not_abort hrun).elim
  serve q s := (hends q s).concludes
  note event hs := h.note event _ hs

/-- The record says whether nothing was changed so far, and whether the
store is to blame. -/
theorem tells_recorded (h : Portrays below ino image kept) :
    Fat.Tells (Recorded.store below) ino image
      (fun s => Recorded.Unchanging s.1 ∧ kept s.2) (fun s => Recorded.Denied s.1) True where
  look := by
    rintro q ⟨record, s⟩ hq ⟨hrecord, hs⟩
    refine (Recorded.store_concludes record fun _ _ hrun => h.kept_of_ok hq hs hrun).mono ?_
      fun _ _ hdenied => hdenied
    rintro _ ⟨_, after⟩ ⟨rfl, hafter⟩
    exact ⟨hrecord.append hq true, hafter⟩
  read := by
    rintro n ⟨record, s⟩ ⟨hrecord, hs⟩
    refine (Recorded.store_concludes record fun _ _ hrun =>
      And.intro (h.shows hs hrun) (h.kept_of_ok rfl hs hrun)).mono ?_ fun _ _ hdenied => hdenied
    rintro _ ⟨_, after⟩ ⟨rfl, hblock, hafter⟩
    exact ⟨hblock, hrecord.append rfl true, hafter⟩
  serve := by
    rintro q ⟨record, s⟩
    exact (Recorded.store_concludes record fun _ _ _ => trivial).mono (fun _ _ _ => trivial)
      fun _ _ hdenied => hdenied
  note event hs := ⟨hs.1, h.note event _ hs.2⟩

end Portrays

namespace Memory

/-- The blocks of an inode, with zeros behind them. -/
def image (m : Memory) (ino : UInt32) (n : Nat) : Block :=
  (Plain.at_ m.inodes ino.toNat n).getD Block.zero

/-- A store in memory shows its blocks for as long as it has them. -/
theorem portrays (m : Memory) (ino : UInt32) :
    Portrays store ino (m.image ino) fun m' => m'.inodes = m.inodes where
  look q hq := by
    intro m' hm
    have hsame := Op.Ends.next (Alike · m') (store_keeps hq)
    exact hsame.inodes.trans hm
  note _ _ hm := hm
  shows := by
    intro n m' after block hm hrun
    cases hdead : m'.dead with
    | true =>
      rw [store_dead hdead] at hrun
      cases hrun
    | false =>
      rcases read_apply hdead ⟨ino, n⟩ with ⟨found, hfound, hread⟩ | ⟨-, fault, hread⟩
      · rw [hread] at hrun
        cases hrun
        rw [image, ← hm, show Plain.at_ m'.inodes ino.toNat n.toNat = some block from hfound]
        rfl
      · rw [hread] at hrun
        cases hrun

/-- A store in memory is never aborted. -/
theorem store_ends_any (q : Request) (m : Memory) :
    Op.Ends (store q) m (fun _ _ => True) fun _ _ => True :=
  (store_alike ⟨rfl, rfl⟩ q).mono (fun _ _ _ => trivial) fun _ _ _ => trivial

end Memory

namespace Fat

/-! ### The tables as they are told -/

/-- The sizes that the superblock of an image tells, with an entry for
every place in the table. -/
def Plan.toldBy (image : Nat → Block) : Plan where
  recordBlocks := (Superblock.decode (image 0)).recordBlocks
  tableBlocks := (Superblock.decode (image 0)).tableBlocks
  entries := (Superblock.decode (image 0)).tableBlocks * 128

/-- The sizes of this plan are those that the superblock tells. -/
theorem Plan.toldBy_toldBy (image : Nat → Block) : (Plan.toldBy image).ToldBy image := ⟨rfl, rfl⟩

/-- The tables that an image tells. -/
def Catalog.toldBy (image : Nat → Block) : Catalog := (Plan.toldBy image).catalog image

/-- The numbers that tables lead to are words when no link of theirs
reaches a bound that is small enough. -/
theorem Plan.inWords_of_lt {p : Plan} {image : Nat → Block} (bound : Nat)
    (hfiles : 64 * p.recordBlocks.toNat < 4294967296)
    (hplaces : 128 * p.tableBlocks.toNat < 4294967296)
    (hbound : p.dataFrom + bound ≤ 4294967296) (hpos : 0 < bound)
    (hfree : (Superblock.decode (image 0)).freeHead.word.toNat < bound)
    (hrecords : ∀ n < p.recordBlocks.toNat, ∀ place,
      (recordAt (image (1 + n)) place).head.word.toNat < bound)
    (hlinks : ∀ n < p.tableBlocks.toNat, ∀ place,
      (linkAt (image (p.linksFrom + n)) place).word.toNat < bound) :
    p.InWords (p.catalog image) where
  files_lt := hfiles
  places_lt := hplaces
  dataFrom_lt := by omega
  block_lt := by
    -- A link of the tables is the free head, the head of a file or the link of an entry.
    rintro link (rfl | ⟨ino, rfl⟩ | ⟨entry, rfl⟩) hend
    · have hlt : (p.catalog image).superblock.freeHead.word.toNat < bound := hfree
      omega
    · by_cases hino : p.HasFile ino
      · have hin : ino.toNat < 64 * p.recordBlocks.toNat := hino
        have hlt := hrecords (ino.toNat / 64) (by omega) (recordPosition ino).2
        simp only [Plan.catalog, if_pos hino]
        omega
      · simp only [Plan.catalog, if_neg hino] at hend
        cases hend
    · by_cases hentry : p.HasEntry entry
      · have hin : entry.word.toNat < 128 * p.tableBlocks.toNat := hentry
        have hlt := hlinks (entry.word.toNat / 128) (by omega) entry.position.2
        simp only [Plan.catalog, if_pos hentry]
        omega
      · simp only [Plan.catalog, if_neg hentry] at hend
        cases hend

namespace Volume

variable {σ : Type} [Journal σ] {below : Store σ} {v : Volume} {image : Nat → Block}
  {kept : σ → Prop}

/-- A medium of five blocks with one block of records and one table
block, which hold the given record of file 0, the given link of entry 0
and zeros. -/
def crafted (freeHead : Link) (record : Record) (link : Link) : Memory :=
  ⟨#[#[Superblock.encode ⟨1, 1, freeHead⟩, setRecord Block.zero (recordPosition 0).2 record,
    setLink Block.zero (Link.position ⟨0⟩).2 link, Block.zero, Block.zero]], false, 0⟩

/-- The store in memory has the five blocks. -/
theorem carries_crafted (freeHead : Link) (record : Record) (link : Link) :
    Memory.Carries 0 5 (crafted freeHead record link)
      ((crafted freeHead record link).image 0) := by
  refine ⟨rfl, (crafted freeHead record link).inodes.getD 0 #[], rfl, rfl, fun n hn => ?_⟩
  have hlt : n < ((crafted freeHead record link).inodes.getD 0 #[]).size := hn
  show _ = some (Option.getD ((crafted freeHead record link).inodes.getD 0 #[])[n]? Block.zero)
  rw [Array.getElem?_eq_getElem hlt]
  rfl

/-- The numbers that the tables of such a medium lead to are words, save
where a link is among the last three. -/
theorem inWords_crafted (freeHead : Link) (record : Record) (link : Link)
    (hfree : freeHead.word.toNat < 4294967293) (hrecord : record.head.word.toNat < 4294967293)
    (hlink : link.word.toNat < 4294967293) :
    (Plan.toldBy ((crafted freeHead record link).image 0)).InWords
      (Catalog.toldBy ((crafted freeHead record link).image 0)) := by
  have hsuperblock : Superblock.decode ((crafted freeHead record link).image 0 0) =
      ⟨1, 1, freeHead⟩ := Superblock.decode_encode _
  have hplan : Plan.toldBy ((crafted freeHead record link).image 0) = ⟨1, 1, 1 * 128⟩ := by
    rw [Plan.toldBy, hsuperblock]
  have hzero : ∀ n < (1 : UInt32).toNat, n = 0 := by decide
  rw [Catalog.toldBy, hplan]
  -- The data blocks begin at block 3.
  refine Plan.inWords_of_lt 4294967293 (by decide) (by decide) (by decide) (by decide) ?_ ?_ ?_
  · rw [hsuperblock]
    exact hfree
  · intro n hn place
    rw [hzero n hn]
    show (recordAt (setRecord Block.zero (recordPosition 0).2 record) place).head.word.toNat < _
    by_cases hplace : place = (recordPosition 0).2
    · rw [hplace, record_setRecord_self]
      exact hrecord
    · rw [record_setRecord_of_ne _ _ hplace]
      show (Block.zero.word _).toNat < _
      rw [Block.word_zero]
      decide
  · intro n hn place
    rw [hzero n hn]
    show ((Block.zero.setWord (Link.position ⟨0⟩).2 link.word).word place).toNat < _
    by_cases hplace : place = (Link.position ⟨0⟩).2
    · rw [hplace, Block.word_setWord_self]
      exact hlink
    · rw [Block.word_setWord_of_ne _ _ hplace, Block.word_zero]
      decide

/-! ### Aborts -/

/-- No call is aborted where the numbers that the tables lead to are
words, whatever the medium holds and whatever calls the store below
refuses. -/
theorem serve_not_aborted (h : Portrays below v.medium image kept)
    (hends : ∀ q s, Op.Ends (below q) s (fun _ _ => True) fun _ _ => True)
    (words : (Superblock.decode (image 0)).formatted = true →
      (Plan.toldBy image).InWords (Catalog.toldBy image)) (c : Call) {s : σ} (hs : kept s)
    (abort : Abort) : Op.outcome (v.serve below c) s ≠ .error (.abort abort) := by
  intro haborted
  -- Where a call may only be aborted if a number is no word, it is not aborted here.
  exact (serve_concludes (h.tells hends False) (Plan.toldBy_toldBy image)
    (fun hformatted hno => hno (words hformatted)) c hs).gone_of haborted

/-- The calls to a medium with a link that leaves the table. -/
theorem serve_not_aborted_crafted :
    (Plan.toldBy ((crafted ⟨1⟩ ⟨⟨0⟩, 2⟩ ⟨5000⟩).image 0)).InWords
        (Catalog.toldBy ((crafted ⟨1⟩ ⟨⟨0⟩, 2⟩ ⟨5000⟩).image 0)) ∧
      ∀ c abort, Op.outcome ((⟨0⟩ : Volume).serve Memory.store c)
        (crafted ⟨1⟩ ⟨⟨0⟩, 2⟩ ⟨5000⟩) ≠ .error (.abort abort) := by
  have words := inWords_crafted ⟨1⟩ ⟨⟨0⟩, 2⟩ ⟨5000⟩ (by decide) (by decide) (by decide)
  exact ⟨words, fun c abort => serve_not_aborted (v := ⟨0⟩)
    (Memory.portrays (crafted ⟨1⟩ ⟨⟨0⟩, 2⟩ ⟨5000⟩) 0) Memory.store_ends_any (fun _ => words) c rfl
    abort⟩

/-- Reading the block behind a damaged link: the sum that gives its
number is no word. -/
theorem read_crafted_aborted :
    Op.outcome ((⟨0⟩ : Volume).serve Memory.store (.request (.read ⟨0, 1⟩)))
      (crafted ⟨1⟩ ⟨⟨0⟩, 2⟩ ⟨0xfffffffe⟩) = .error (.abort .addOverflow) := by
  decide +kernel

/-! ### Refused requests -/

/-- A request that is refused although the store below answered all of
its calls has changed nothing, unless it was a write that let a file
grow whose chain leaves the table. -/
theorem refused_unchanging (h : Portrays below v.medium image kept) {s : σ} (hs : kept s)
    {q : Request} {fault : Fault}
    (hrefused : Op.outcome (v.store (Recorded.store below) q) ([], s) = .error (.fault fault))
    (hanswered : ∀ call ∈ (Op.next (v.store (Recorded.store below) q) ([], s)).1,
      call.answered = true)
    (hstays : ∀ a data, q = .write a data →
      ((Catalog.toldBy image).record a.ino).blocks ≤ a.offset →
      ¬ (Catalog.toldBy image).Strays (Plan.toldBy image) a.ino) :
    Recorded.Unchanging (Op.next (v.store (Recorded.store below) q) ([], s)).1 ∧
      kept (Op.next (v.store (Recorded.store below) q) ([], s)).2 := by
  have hends := serve_concludes h.tells_recorded (Plan.toldBy_toldBy image)
    (fun _ _ => trivial) (.request q) (s := ([], s)) ⟨nofun, hs⟩
  -- The record holds no call that was denied, and no chain of a growing file leaves the table.
  rcases hends.bad_of hrefused with (⟨call, hcall, hno⟩ | hquiet) | ⟨a, data, hq, hgrows, hstrays⟩
  · rw [hanswered call hcall] at hno
    cases hno
  · exact hquiet
  · cases hq
    exact (hstays a data rfl hgrows hstrays).elim

/-- A write to a file whose chain begins outside of the table. -/
theorem refused_unchanging_crafted :
    Op.outcome ((⟨0⟩ : Volume).store (Recorded.store Memory.store) (.write ⟨0, 1⟩ Block.zero))
        ([], crafted ⟨1⟩ ⟨⟨5000⟩, 1⟩ ⟨0⟩) = .error (.fault (.corrupted .danglingLink)) ∧
      Recorded.Unchanging (Op.next ((⟨0⟩ : Volume).store (Recorded.store Memory.store)
        (.write ⟨0, 1⟩ Block.zero)) ([], crafted ⟨1⟩ ⟨⟨5000⟩, 1⟩ ⟨0⟩)).1 ∧
      (Op.next ((⟨0⟩ : Volume).store (Recorded.store Memory.store)
        (.write ⟨0, 1⟩ Block.zero)) ([], crafted ⟨1⟩ ⟨⟨5000⟩, 1⟩ ⟨0⟩)).2.inodes =
          (crafted ⟨1⟩ ⟨⟨5000⟩, 1⟩ ⟨0⟩).inodes := by
  have hrefused : Op.outcome ((⟨0⟩ : Volume).store (Recorded.store Memory.store)
      (.write ⟨0, 1⟩ Block.zero)) ([], crafted ⟨1⟩ ⟨⟨5000⟩, 1⟩ ⟨0⟩) =
        .error (.fault (.corrupted .danglingLink)) := by decide +kernel
  refine ⟨hrefused, refused_unchanging (Memory.portrays (crafted ⟨1⟩ ⟨⟨5000⟩, 1⟩ ⟨0⟩) 0) rfl
    hrefused (by decide +kernel) ?_⟩
  rintro _ _ ⟨⟩ - hstrays
  exact absurd hstrays.blocks_gt (by decide +kernel)

/-- A write to a file with a damaged link: all calls of the store below
are answered, and the write is refused with another free chain on the
medium. -/
theorem write_crafted_torn :
    Op.outcome ((⟨0⟩ : Volume).store (Recorded.store Memory.store) (.write ⟨0, 2⟩ Block.zero))
        ([], crafted ⟨1⟩ ⟨⟨0⟩, 2⟩ ⟨5000⟩) = .error (.fault (.corrupted .danglingLink)) ∧
      (∀ call ∈ (Op.next ((⟨0⟩ : Volume).store (Recorded.store Memory.store)
        (.write ⟨0, 2⟩ Block.zero)) ([], crafted ⟨1⟩ ⟨⟨0⟩, 2⟩ ⟨5000⟩)).1, call.answered = true) ∧
      (Superblock.decode ((crafted ⟨1⟩ ⟨⟨0⟩, 2⟩ ⟨5000⟩).image 0 0)).freeHead = ⟨1⟩ ∧
      (Superblock.decode ((Op.next ((⟨0⟩ : Volume).store (Recorded.store Memory.store)
        (.write ⟨0, 2⟩ Block.zero)) ([], crafted ⟨1⟩ ⟨⟨0⟩, 2⟩ ⟨5000⟩)).2.image 0 0)).freeHead =
          ⟨0⟩ := by
  decide +kernel

end Volume

end Fat

end BlockLayers
