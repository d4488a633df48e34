import BlockLayers.Fat.Format
import BlockLayers.Proofs.Agrees
import BlockLayers.Proofs.Fat.FileMap

/-!
# `BlockLayers.Proofs.Fat.Exchanged`: a volume over one of two stores

A volume knows its medium by the requests that it sends there. Where two
stores end every request alike, and their journals keep the same levels
(`Op.Exchange`), a file system is put on either of them alike and ends
every call alike, and what the stores have in common they have in common
afterwards. Nothing is asked of the content of the medium: faults and
aborts are the same too.

The operations of a volume are gone through once, here. Those of a cursor
keep its own state the same beside the states of the stores.

Main statements: `Volume.format_exchanged` and
`Volume.serve_exchanged`.
-/

set_option autoImplicit false

namespace BlockLayers

variable {σ τ : Type} [Journal σ] [Journal τ]

namespace Fat

open Op (Agrees Beside Exchange)

variable {R : σ → τ → Prop} {below : Store σ} {below' : Store τ}

/-! ### The cursor -/

section Steps

variable (h : Exchange R below below')

include h

/-- A report of a layer above. -/
theorem note_beside {ω : Type} (event : Event) :
    Agrees (Beside R) (Op.note event : Op (ω × σ) Unit) (Op.note event) :=
  (h.note event).lower

/-- A question for the level of a report, from a layer above. -/
theorem keeps_beside {ω : Type} (level : Level) :
    Agrees (Beside R) (Op.keeps level : Op (ω × σ) Bool) (Op.keeps level) :=
  (h.keeps level).lower

end Steps

namespace Cursor

section Exchanged

variable (h : Exchange R below below')

include h

/-- The check of a link. -/
theorem check_exchanged (link : Link) :
    Agrees (Beside R) (check link : Op (Cursor × σ) Unit) (check link) := by
  refine .bind .own fun cursor => ?_
  dsimp only
  split
  · exact .bind (note_beside h _) fun _ => .fail
  · exact .pure

/-- A table block, from the cursor or from the store. -/
theorem load_exchanged (index : UInt32) :
    Agrees (Beside R) (load below index) (load below' index) := by
  refine .bind .own fun cursor => ?_
  -- The cursor is the same on both sides, so both have the page or neither has.
  split
  · exact .pure
  · exact .bind .lift fun _ => .bind (.lower (h.request _)) fun _ =>
      .bind .modifyOwn fun _ => .pure

/-- The link of an entry. -/
theorem next_exchanged (entry : Link) :
    Agrees (Beside R) (next below entry) (next below' entry) :=
  .bind (check_exchanged h entry) fun _ => .bind (load_exchanged h _) fun _ => .pure

/-- A change of a link. -/
theorem setNext_exchanged (entry link : Link) :
    Agrees (Beside R) (setNext below entry link) (setNext below' entry link) :=
  .bind (check_exchanged h entry) fun _ => .bind (load_exchanged h _) fun _ => .modifyOwn

/-- The following of links. -/
theorem follow_exchanged (head : Link) (steps : UInt32) (left : Nat) (entry : Link) :
    Agrees (Beside R) (follow below head steps left entry) (follow below' head steps left entry) := by
  -- By induction on the links that are left to follow, from any entry.
  induction left generalizing entry with
  | zero => exact .pure
  | succ left ih =>
    refine .bind (next_exchanged h entry) fun after => ?_
    dsimp only
    split
    · exact .bind (note_beside h _) fun _ => .bind .fail fun _ => ih after
    · exact ih after

/-- A walk along a chain. -/
theorem walk_exchanged (head : Link) (steps : UInt32) :
    Agrees (Beside R) (walk below head steps) (walk below' head steps) :=
  .bind (check_exchanged h head) fun _ => follow_exchanged h head steps _ head

/-- The writes of the changed pages. -/
theorem flushPages_exchanged (pages : List Page) :
    Agrees (Beside R) (flushPages below pages) (flushPages below' pages) := by
  induction pages with
  | nil => exact .pure
  | cons page rest ih =>
    unfold flushPages
    dsimp only
    split
    · exact .bind .own fun _ => .bind .lift fun _ => .bind (.lower (h.request _)) fun _ =>
        .bind .modifyOwn fun _ => ih
    · exact ih

/-- A flush of the cursor. -/
theorem flush_exchanged : Agrees (Beside R) (flush below) (flush below') :=
  .bind .own fun _ => flushPages_exchanged h _

end Exchanged

end Cursor

/-! ### The volume -/

namespace Volume

section Exchanged

variable (h : Exchange R below below') (v : Volume)

include h

/-- The superblock is read. -/
theorem superblock_exchanged : Agrees R (v.superblock below) (v.superblock below') := by
  refine .bind (h.request _) fun block => ?_
  dsimp only
  split
  · exact .pure
  · exact .fail

/-- A file is found, or there is none. -/
theorem locate_exchanged (ino : UInt32) : Agrees R (v.locate below ino) (v.locate below' ino) :=
  .bind (superblock_exchanged h v) fun _ => .bind .lift fun _ =>
    .guard (.bind (h.request _) fun _ => .pure)

/-- The entry of a block that a file has. -/
theorem entryOf_exchanged (l : Located) (offset : UInt32) :
    Agrees R (v.entryOf below l offset) (v.entryOf below' l offset) :=
  .bind .lift fun _ => .bind (.withOwn (Cursor.walk_exchanged h _ _)) fun _ => .pure

/-- One entry is taken off the free chain. -/
theorem takeEntry_exchanged (wanted : UInt32) (entry : Link) :
    Agrees (Beside R) (takeEntry below wanted entry) (takeEntry below' wanted entry) := by
  unfold takeEntry
  dsimp only
  split
  · exact .bind (note_beside h _) fun _ => .bind .fail fun _ => Cursor.next_exchanged h entry
  · exact Cursor.next_exchanged h entry

/-- A run of entries is taken off the free chain. -/
theorem takeRun_exchanged (wanted : UInt32) (gap : Nat) (entry : Link) :
    Agrees (Beside R) (takeRun below wanted gap entry) (takeRun below' wanted gap entry) := by
  induction gap generalizing entry with
  | zero => exact .bind (takeEntry_exchanged h wanted entry) fun _ => .pure
  | succ gap ih =>
    exact .bind (takeEntry_exchanged h wanted entry) fun after => .bind (ih after) fun _ => .pure

/-- The last entry of a file. -/
theorem tailOf_exchanged (record : Record) :
    Agrees (Beside R) (tailOf below record) (tailOf below' record) := by
  unfold tailOf
  split
  · exact .pure
  · exact .bind (Cursor.walk_exchanged h _ _) fun _ => .pure

/-- The run gets an end. -/
theorem cutRun_exchanged (run : Run) :
    Agrees (Beside R) (cutRun below run) (cutRun below' run) :=
  .bind (Cursor.setNext_exchanged h _ _) fun _ => Cursor.flush_exchanged h

/-- The run is joined to its file. -/
theorem joinRun_exchanged (head : Link) (tail : Option Link) (run : Run) :
    Agrees (Beside R) (joinRun below head tail run) (joinRun below' head tail run) := by
  cases tail with
  | none => exact .pure
  | some tail =>
    exact .bind (Cursor.setNext_exchanged h _ _) fun _ => .bind (Cursor.flush_exchanged h) fun _ =>
      .pure

/-- A file grows. -/
theorem grow_exchanged (l : Located) (offset : UInt32) :
    Agrees (Beside R) (v.grow below l offset) (v.grow below' l offset) :=
  -- One rule for each step, in the order in which growth makes them.
  .bind .lift fun _ => .bind (takeRun_exchanged h _ _ _) fun _ =>
    .bind (tailOf_exchanged h _) fun _ => .bind (.lower (h.request _)) fun _ =>
      .bind (cutRun_exchanged h _) fun _ => .bind (joinRun_exchanged h _ _ _) fun _ =>
        .bind (note_beside h _) fun _ => .bind (.lower (h.request _)) fun _ => .pure

/-- The links of a chain are turned around. -/
theorem turnAround_exchanged (left : Nat) (entry free : Link) :
    Agrees (Beside R) (turnAround below left entry free) (turnAround below' left entry free) := by
  -- The chain in front and the one behind change together, so both are general.
  induction left generalizing entry free with
  | zero => exact .pure
  | succ left ih =>
    exact .guard (.bind (Cursor.next_exchanged h entry) fun after =>
      .bind (Cursor.setNext_exchanged h entry free) fun _ => ih after entry)

/-- The check that a chain ends with its file. -/
theorem checkEnded_exchanged (blocks : UInt32) (rest : Link) :
    Agrees (Beside R) (checkEnded blocks rest : Op (Cursor × σ) Unit) (checkEnded blocks rest) := by
  unfold checkEnded
  split
  · exact .pure
  · exact .bind (note_beside h _) fun _ => .fail

/-- A file gives its entries back. -/
theorem free_exchanged (l : Located) : Agrees (Beside R) (v.free below l) (v.free below' l) :=
  .bind (turnAround_exchanged h _ _ _) fun _ => .bind (checkEnded_exchanged h _ _) fun _ =>
    .bind (note_beside h _) fun _ => .bind (.lower (h.request _)) fun _ =>
      .bind (Cursor.flush_exchanged h) fun _ => .lower (h.request _)

/-- A resize. -/
theorem resize_exchanged (ino blocks : UInt32) :
    Agrees R (v.resize below ino blocks) (v.resize below' ino blocks) := by
  refine .bind (locate_exchanged h v ino) fun l => ?_
  dsimp only
  split
  · exact .pure
  · exact .guard (.guard (.bind .lift fun _ => .bind (.withOwn (free_exchanged h v l)) fun _ =>
      .pure))

/-- A read. -/
theorem read_exchanged (a : Address) : Agrees R (v.read below a) (v.read below' a) :=
  .bind (locate_exchanged h v a.ino) fun l => .guard (.bind (entryOf_exchanged h v l a.offset)
    fun _ => .bind .lift fun _ => h.request _)

/-- Blocks are filled with zeros. -/
theorem clear_exchanged (sb : Superblock) (entries : List Link) :
    Agrees R (v.clear below sb entries) (v.clear below' sb entries) := by
  induction entries with
  | nil => exact .pure
  | cons entry rest ih => exact .bind .lift fun _ => .bind (h.request _) fun _ => ih

/-- A file gains a block, and those before it. -/
theorem gain_exchanged (l : Located) (offset : UInt32) :
    Agrees R (v.gain below l offset) (v.gain below' l offset) :=
  .bind .lift fun _ => .bind (.withOwn (grow_exchanged h v l offset)) fun _ =>
    .bind (clear_exchanged h v _ _) fun _ => .pure

/-- The entry of a block that is to be written. -/
theorem entryFor_exchanged (l : Located) (offset : UInt32) :
    Agrees R (v.entryFor below l offset) (v.entryFor below' l offset) := by
  unfold entryFor
  split
  · exact entryOf_exchanged h v l offset
  split
  · exact .fail
  · exact gain_exchanged h v l offset

/-- A write. -/
theorem write_exchanged (a : Address) (data : Block) :
    Agrees R (v.write below a data) (v.write below' a data) :=
  .bind (locate_exchanged h v a.ino) fun l => .bind (entryFor_exchanged h v l a.offset) fun _ =>
    .bind .lift fun _ => h.request _

/-- Every request ends alike over both stores. -/
theorem store_exchanged (q : Request) : Agrees R (v.store below q) (v.store below' q) := by
  cases q with
  | capacity => exact .bind (superblock_exchanged h v) fun _ => .lift
  | size ino => exact .bind (locate_exchanged h v ino) fun _ => .pure
  | resize ino blocks => exact resize_exchanged h v ino blocks
  | read a => exact read_exchanged h v a
  | write a data => exact write_exchanged h v a data
  | sync _ => exact h.request _

/-! ### The count of the entries -/

/-- A chain is followed, and its entries are claimed. -/
theorem followClaiming_exchanged (unclaimed : Nat) (entry : Link) (claims : Claims) (count : Nat) :
    Agrees (Beside R) (followClaiming below unclaimed entry claims count)
      (followClaiming below' unclaimed entry claims count) := by
  have hagain (again : Link) : Agrees (Beside R)
      (followClaiming.claimedAgain again : Op (Cursor × σ) (Nat × Claims))
      (followClaiming.claimedAgain again) :=
    .bind (note_beside h _) fun _ => .fail
  -- The number of entries that are left is what the chain is followed by.
  induction unclaimed generalizing entry claims count with
  | zero =>
    unfold followClaiming
    dsimp only
    split
    · exact .pure
    refine .guard ?_
    split <;> exact hagain entry
  | succ left ih =>
    unfold followClaiming
    dsimp only
    split
    · exact .pure
    refine .guard ?_
    split
    · exact hagain entry
    · exact .bind (Cursor.next_exchanged h entry) fun after => ih after _ _

/-- The chains of the files in one block of records. -/
theorem claimRecords_exchanged (number : UInt32) (block : Block) (places : List (Fin 64))
    (claims : Claims) (used : Nat) :
    Agrees (Beside R) (claimRecords below number block places claims used)
      (claimRecords below' number block places claims used) := by
  induction places generalizing claims used with
  | nil => exact .pure
  | cons place rest ih =>
    refine .bind (followClaiming_exchanged h _ _ _ _) fun counted => ?_
    dsimp only
    split
    · refine .bind (keeps_beside h _) fun reported => ?_
      split
      · exact .bind .lift fun _ => .bind .lift fun _ => .bind (note_beside h _) fun _ =>
          .bind .fail fun _ => ih _ _
      · exact .bind .fail fun _ => ih _ _
    · exact ih _ _

/-- The chains of all files. -/
theorem claimFiles_exchanged (left : Nat) (number : UInt32) (claims : Claims) (used : Nat) :
    Agrees (Beside R) (v.claimFiles below left number claims used)
      (v.claimFiles below' left number claims used) := by
  -- The claims of the records before are carried along.
  induction left generalizing number claims used with
  | zero => exact .pure
  | succ left ih =>
    exact .bind (.lower (h.request _)) fun block =>
      .bind (claimRecords_exchanged h _ _ _ _ _) fun _ => ih _ _ _

/-- The count of the entries on all chains. -/
theorem countEntries_exchanged (sb : Superblock) (total : UInt32) :
    Agrees (Beside R) (v.countEntries below sb total) (v.countEntries below' sb total) := by
  refine .bind (followClaiming_exchanged h _ _ _ _) fun _ =>
    .bind (claimFiles_exchanged h v _ _ _ _) fun _ => ?_
  dsimp only
  split
  · exact .bind (note_beside h _) fun _ => .bind .fail fun _ => .pure
  · exact .pure

/-- The count is made, or refused. -/
theorem occupancy_exchanged : Agrees R (v.occupancy below) (v.occupancy below') :=
  .bind (superblock_exchanged h v) fun _ => .bind (h.request _) fun _ => .bind .lift fun _ =>
    .guard (.bind .lift fun _ => .bind (.withOwn (countEntries_exchanged h v _ _)) fun _ => .pure)

/-- Every call of a volume ends alike over both stores. -/
theorem serve_exchanged (c : Call) : Agrees R (v.serve below c) (v.serve below' c) := by
  cases c with
  | request q => exact store_exchanged h v q
  | occupancy => exact occupancy_exchanged h v

/-! ### A new file system -/

/-- One block is written to a row of places. -/
theorem writeAll_exchanged (block : Block) (left : Nat) (number : UInt32) :
    Agrees R (v.writeAll below block left number) (v.writeAll below' block left number) := by
  induction left generalizing number with
  | zero => exact .pure
  | succ left ih => exact .bind (h.request _) fun _ => ih _

/-- The table of a new file system is written. -/
theorem writeTable_exchanged (plan : Plan) (start : UInt32) (left : Nat) (index : UInt32) :
    Agrees R (v.writeTable below plan start left index)
      (v.writeTable below' plan start left index) := by
  induction left generalizing index with
  | zero => exact .pure
  | succ left ih =>
    exact .bind .lift fun _ => .bind .lift fun _ => .bind (h.request _) fun _ => ih _

/-- A new file system is laid out. -/
theorem layOut_exchanged (plan : Plan) : Agrees R (v.layOut below plan) (v.layOut below' plan) :=
  .bind .lift fun start => .bind (writeAll_exchanged h v _ _ _) fun _ =>
    .bind (writeTable_exchanged h v plan start _ _) fun _ => h.request _

/-- A new file system is reported. -/
theorem announce_exchanged (total : UInt32) (plan : Plan) :
    Agrees R (v.announce total plan) (v.announce total plan) := by
  -- The journals keep the same levels, so both report or neither does.
  refine .bind (h.keeps _) fun kept => ?_
  split
  · exact .bind .lift fun _ => h.note _
  · exact .pure

/-- A file system is put on both stores alike. -/
theorem format_exchanged (files : UInt32) :
    Agrees R (v.format below files) (v.format below' files) := by
  refine .bind (h.request _) fun total => .guard (.bind (h.request _) fun first => ?_)
  split
  · exact h.note _
  · exact .bind .ofResult fun plan => .bind (layOut_exchanged h v plan) fun _ =>
      announce_exchanged h v total plan

end Exchanged

end Volume

end Fat

end BlockLayers
