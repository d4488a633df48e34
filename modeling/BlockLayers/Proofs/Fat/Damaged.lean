import BlockLayers.Proofs.Fat.AnyTable

/-!
# `BlockLayers.Proofs.Fat.Damaged`: calls on a medium with any content

What can be said of a call to a volume whose tables need not be in order
is how it ends. It begins with reading alone, and a call that is refused
while it reads leaves the store below quiet. Then it writes, and from
there on it is not refused of its own accord, save in one case: the last
link of a file is not looked at before the file grows, and a run cannot
be joined to a file whose chain leaves the table there
(`Catalog.Strays`).

Main statements: `write_concludes`, `resize_concludes` and
`serve_concludes` for all calls.
-/

set_option autoImplicit false

namespace BlockLayers.Fat

variable {σ : Type} [Journal σ] {below : Store σ} {p : Plan} {image : Nat → Block}
  {quiet blame : σ → Prop} {gone : Prop} {s : σ} {c : Cursor} {links : Link → Link}

/-- What was read of a file is what the tables tell. -/
structure Located.Told (l : Located) (p : Plan) (m : Catalog) (ino : UInt32) : Prop where
  recordBlocks_eq : l.superblock.recordBlocks = p.recordBlocks
  tableBlocks_eq : l.superblock.tableBlocks = p.tableBlocks
  freeHead_eq : l.superblock.freeHead = m.superblock.freeHead
  record_eq : l.record = m.record ino

namespace Volume

variable {v : Volume} {l : Located} {ino : UInt32}

/-- The superblock is the one on the medium, if that is formatted. -/
theorem superblock_tells (h : Tells below v.medium image quiet blame gone) (hs : quiet s) :
    Op.Concludes (v.superblock below) s
      (fun sb after => sb = Superblock.decode (image 0) ∧ sb.formatted = true ∧ quiet after)
      (fun _ after => blame after ∨ quiet after) gone := by
  refine (h.read hs).bind (fun _ _ hblame => .inl hblame) ?_
  rintro _ s' ⟨rfl, hs'⟩
  dsimp only
  split
  · exact Op.Concludes.pure ⟨rfl, ‹_›, hs'⟩
  · exact Op.Concludes.fail (.inr hs')

section Sizes

variable (h : Tells below v.medium image quiet blame gone) (told : p.ToldBy image)
  (hgone : (Superblock.decode (image 0)).formatted = true → ¬ p.InWords (p.catalog image) → gone)

include h told hgone

/-- The number of files is worked out where it is a word. -/
theorem capacity_concludes (hs : quiet s) :
    Op.Concludes (v.store below .capacity) s (fun _ _ => True)
      (fun _ after => blame after ∨ quiet after) gone := by
  refine (superblock_tells h hs).seq ?_
  rintro _ s' ⟨rfl, hformatted, hs'⟩
  rw [← bind_pure (liftM _)]
  refine Op.Concludes.lift_seq (hgone hformatted)
    (fun words => ⟨_, Plan.files_ok words.files_lt told.recordBlocks_eq⟩) ?_
  intro files _
  exact Op.Concludes.pure trivial

/-- A file is found as the tables tell it. -/
theorem locate_concludes (ino : UInt32) (hs : quiet s) :
    Op.Concludes (v.locate below ino) s
      (fun l after => (Superblock.decode (image 0)).formatted = true ∧
        l.Told p (p.catalog image) ino ∧ quiet after)
      (fun _ after => blame after ∨ quiet after) gone := by
  refine (superblock_tells h hs).seq ?_
  rintro _ s₁ ⟨rfl, hformatted, hs₁⟩
  refine Op.Concludes.lift_seq (hgone hformatted)
    (fun words => ⟨_, Plan.files_ok words.files_lt told.recordBlocks_eq⟩) fun files hfiles => ?_
  refine Op.Concludes.guard (fun _ => .inr hs₁) fun hgt => ?_
  have hcount := Checked.mul_eq_ok_iff.mp hfiles
  rw [UInt32.not_le, UInt32.lt_iff_toNat_lt, ← hcount, told.recordBlocks_eq,
    show (64 : UInt32).toNat = 64 from rfl, Nat.mul_comm] at hgt
  refine (h.read hs₁).bind (fun _ _ hblame => .inl hblame) ?_
  rintro _ s₂ ⟨rfl, hs₂⟩
  refine Op.Concludes.pure ⟨hformatted,
    ⟨told.recordBlocks_eq, told.tableBlocks_eq, rfl, ?_⟩, hs₂⟩
  -- The record is the one of the file, since the file is within the number of files.
  have hnumber : (recordPosition ino).1.toNat = 1 + ino.toNat / 64 := recordPosition_toNat
  simp only [Plan.catalog, if_pos (show p.HasFile ino from hgt), ← hnumber]
  rfl

end Sizes

section Located

variable (h : Tells below v.medium image quiet blame gone)
  (hgone : ¬ p.InWords (p.catalog image) → gone) (hl : l.Told p (p.catalog image) ino)

include h hgone hl

/-- The entry of a block is one that the tables mention. -/
theorem entryOf_concludes (offset : UInt32) (hs : quiet s) :
    Op.Concludes (v.entryOf below l offset) s
      (fun entry after => (p.catalog image).Mentions entry ∧ entry.isEnd = false ∧ quiet after)
      (fun _ after => blame after ∨ quiet after) gone := by
  refine Op.Concludes.lift_seq hgone
    (fun words => Cursor.exists_open words v.medium hl.recordBlocks_eq hl.tableBlocks_eq)
    fun c hopen => ?_
  have hc := Cursor.shows_of_open image hl.recordBlocks_eq hl.tableBlocks_eq hopen
  refine Op.Concludes.withOwn_seq (Cursor.walk_concludes h
    (fun hlt => hgone fun words => hlt words.dataFrom_lt) hc l.record.head offset hs)
    (fun _ _ hbad => hbad) ?_
  -- A walk may arrive outside of the table, but only at a link that the tables mention.
  rintro _ after ⟨⟨rfl, hend, -⟩, -, hafter⟩
  rw [hl.record_eq]
  exact Op.Concludes.pure ⟨Catalog.mentions_iterate _ ino _, hl.record_eq ▸ hend, hafter⟩

end Located

section Growth

variable (h : Tells below v.medium image quiet blame gone)
  (hgone : ¬ p.InWords (p.catalog image) → gone)

include h hgone

/-- An entry of the free chain is one that the table has, or the growth
is refused. -/
theorem takeEntry_concludes (hc : c.Shows v.medium p image links) (wanted : UInt32) (entry : Link)
    (hs : quiet s) :
    Op.Concludes (takeEntry below wanted entry) (c, s)
      (fun after state => after = links entry ∧ p.HasEntry entry ∧
        state.1.Shows v.medium p image links ∧ quiet state.2)
      (fun _ state => blame state.2 ∨ quiet state.2) gone := by
  unfold takeEntry
  dsimp only
  split
  · exact Op.Concludes.note_seq (.inr (h.note _ hs))
  · exact Cursor.next_tells h (fun hlt => hgone fun words => hlt words.dataFrom_lt) hc entry hs

/-- A run consists of entries of the table that the tables mention. -/
theorem takeRun_concludes (wanted : UInt32) (gap : Nat)
    (hc : c.Shows v.medium p image (p.catalog image).link) {entry : Link}
    (hentry : (p.catalog image).Mentions entry) (hs : quiet s) :
    Op.Concludes (takeRun below wanted gap entry) (c, s)
      (fun run state =>
        (∀ e ∈ run.gap ++ [run.last], (p.catalog image).Mentions e ∧ p.HasEntry e) ∧
        state.1.Shows v.medium p image (p.catalog image).link ∧ quiet state.2)
      (fun _ state => blame state.2 ∨ quiet state.2) gone := by
  -- Nothing is set while a run is taken, so the cursor shows the links of the medium throughout.
  induction gap generalizing entry c s with
  | zero =>
    refine (takeEntry_concludes h hgone hc wanted entry hs).seq ?_
    rintro _ state ⟨rfl, hin, hstate⟩
    refine Op.Concludes.pure ⟨fun e he => ?_, hstate⟩
    obtain rfl : e = entry := by simpa using he
    exact ⟨hentry, hin⟩
  | succ gap ih =>
    refine (takeEntry_concludes h hgone hc wanted entry hs).seq ?_
    rintro _ ⟨c', s'⟩ ⟨rfl, hin, hc', hs'⟩
    refine (ih hc' (Catalog.mentions_link _ entry) hs').seq ?_
    rintro run state ⟨hrun, hstate⟩
    refine Op.Concludes.pure ⟨fun e he => ?_, hstate⟩
    rcases List.mem_cons.mp he with rfl | hmem
    · exact ⟨hentry, hin⟩
    · exact hrun e hmem

/-- The last entry of a file is one of the table, or the chain of the
file leaves the table there. -/
theorem tailOf_concludes (hc : c.Shows v.medium p image (p.catalog image).link) {record : Record}
    (hrecord : record = (p.catalog image).record ino) (hs : quiet s) :
    Op.Concludes (tailOf below record) (c, s)
      (fun found state => (∀ tail, found = some tail →
        p.HasEntry tail ∨ (p.catalog image).Strays p ino) ∧ state.1.Within p)
      (fun _ state => blame state.2 ∨ quiet state.2) gone := by
  unfold tailOf
  split
  · exact Op.Concludes.pure ⟨nofun, hc.within⟩
  rename_i hpos
  have hne : record.blocks.toNat ≠ 0 := fun hzero => hpos (UInt32.toNat_inj.mp hzero)
  have hsteps : (record.blocks - 1).toNat = record.blocks.toNat - 1 := by
    rw [UInt32.toNat_sub_of_le _ _ (by rw [UInt32.le_iff_toNat_le, UInt32.toNat_one]; omega)]
    rfl
  refine (Cursor.walk_concludes h (fun hlt => hgone fun words => hlt words.dataFrom_lt) hc
    record.head (record.blocks - 1) hs).seq ?_
  rintro tail state ⟨⟨htail, hend, hhead⟩, hshows, -⟩
  refine Op.Concludes.pure ⟨fun found hfound => ?_, hshows.within⟩
  obtain rfl : tail = found := Option.some.inj hfound
  rw [hsteps, hrecord] at htail
  -- The walk has looked at the head, which is the tail of a file of one block.
  by_cases hmore : 1 < record.blocks.toNat
  · by_cases hin : p.HasEntry tail
    · exact .inl hin
    · have hsame : (p.catalog image).tail ino = tail := htail.symm
      exact .inr ⟨hrecord ▸ hmore, hsame ▸ hend, hsame ▸ hin⟩
  · have hone : ((p.catalog image).record ino).blocks.toNat - 1 = 0 := by
      rw [← hrecord]
      omega
    rw [hone, Function.iterate_zero_apply, ← hrecord] at htail
    exact .inl (htail ▸ hhead)

/-- A run whose last entry the table has is cut off. -/
theorem cutRun_concludes (hc : c.Within p) {run : Run} (hlast : p.HasEntry run.last) :
    Op.Concludes (cutRun below run) (c, s) (fun _ state => state.1.Within p)
      (fun _ state => blame state.2) gone := by
  have hplace : ¬ p.dataFrom < 4294967296 → gone := fun hlt =>
    hgone fun words => hlt words.dataFrom_lt
  refine (Cursor.setNext_concludes h.loudly hplace hc run.last Link.endMark trivial).bind ?_ ?_
  · rintro fault state (hblame | ⟨-, hno⟩)
    · exact hblame
    · exact (hno hlast).elim
  · rintro _ ⟨c', s'⟩ ⟨hc', -⟩
    exact Cursor.flush_concludes h hplace hc'

/-- A run is joined to a file, unless the file has a last entry that the
table has not. -/
theorem joinRun_concludes (hc : c.Within p) (head : Link) {tail : Option Link} {run : Run}
    {stray : Prop} (htail : ∀ entry, tail = some entry → p.HasEntry entry ∨ stray) :
    Op.Concludes (joinRun below head tail run) (c, s) (fun _ _ => True)
      (fun _ state => blame state.2 ∨ stray) gone := by
  have hplace : ¬ p.dataFrom < 4294967296 → gone := fun hlt =>
    hgone fun words => hlt words.dataFrom_lt
  cases tail with
  | none => exact Op.Concludes.pure trivial
  | some tail =>
    refine (Cursor.setNext_concludes h.loudly hplace hc tail run.first trivial).bind ?_ ?_
    · rintro fault state (hblame | ⟨-, hno⟩)
      · exact .inl hblame
      · exact .inr ((htail tail rfl).resolve_left hno)
    · rintro _ ⟨c', s'⟩ ⟨hc', -⟩
      refine (Cursor.flush_concludes h hplace hc').bind (fun _ _ hblame => .inl hblame) ?_
      exact fun _ _ _ => Op.Concludes.pure trivial

/-- A growth is refused before it has written anything, or it is joined
to a file that leaves the table. -/
theorem grow_concludes (hl : l.Told p (p.catalog image) ino)
    (hc : c.Shows v.medium p image (p.catalog image).link) {offset : UInt32}
    (hoffset : l.record.blocks.toNat ≤ offset.toNat) (hmax : offset ≠ 0xffffffff)
    (hs : quiet s) :
    Op.Concludes (v.grow below l offset) (c, s)
      (fun run _ => ∀ e ∈ run.gap ++ [run.last], (p.catalog image).Mentions e ∧ e.isEnd = false)
      (fun _ state => (blame state.2 ∨ quiet state.2) ∨ (p.catalog image).Strays p ino) gone := by
  obtain ⟨gap, hgap⟩ := Nat.exists_eq_add_of_le hoffset
  refine Op.Concludes.lift_seq (fun hno => (hno trivial).elim)
    (fun _ => ⟨_, (growth_sizes hgap hmax).2.2⟩) fun wanted _ => ?_
  rw [hl.freeHead_eq]
  refine (takeRun_concludes h hgone _ _ hc (Catalog.mentions_freeHead _) hs).bind
    (fun _ _ hbad => .inl hbad) ?_
  rintro run ⟨c₁, s₁⟩ ⟨hrun, hc₁, hs₁⟩
  have hend : ∀ e ∈ run.gap ++ [run.last], (p.catalog image).Mentions e ∧ e.isEnd = false :=
    fun e he => ⟨(hrun e he).1, hc₁.within.isEnd_eq_false (hrun e he).2⟩
  refine (tailOf_concludes h hgone hc₁ hl.record_eq hs₁).bind (fun _ _ hbad => .inl hbad) ?_
  rintro tail ⟨c₂, s₂⟩ ⟨htail, hc₂⟩
  -- From here on the growth writes, and only the store below or the join may fail.
  refine Op.Concludes.lower_seq (h.serve _ s₂) (fun _ _ hblame => .inl (.inl hblame)) ?_
  intro _ s₃ _
  refine (cutRun_concludes h hgone hc₂ (hrun _ (by simp)).2).bind
    (fun _ _ hblame => .inl (.inl hblame)) ?_
  rintro _ ⟨c₄, s₄⟩ hc₄
  refine (joinRun_concludes h hgone hc₄ l.record.head htail).bind
    (fun _ _ hbad => hbad.imp_left .inl) ?_
  rintro head ⟨c₅, s₅⟩ -
  refine Op.Concludes.note_seq (Op.Concludes.lower_seq (h.serve _ _)
    (fun _ _ hblame => .inl (.inl hblame)) ?_)
  intro _ s₆ _
  exact Op.Concludes.pure hend

/-- The data blocks of entries that the tables mention are cleared,
unless the store below fails. -/
theorem clear_concludes (hl : l.Told p (p.catalog image) ino) {entries : List Link}
    (hentries : ∀ e ∈ entries, (p.catalog image).Mentions e ∧ e.isEnd = false) :
    Op.Concludes (v.clear below l.superblock entries) s (fun _ _ => True)
      (fun _ after => blame after) gone := by
  induction entries generalizing s with
  | nil => exact Op.Concludes.pure trivial
  | cons entry rest ih =>
    obtain ⟨hmentions, hend⟩ := hentries entry List.mem_cons_self
    refine Op.Concludes.lift_seq hgone
      (fun words => words.exists_dataBlock hl.recordBlocks_eq hl.tableBlocks_eq hmentions hend)
      fun number _ => ?_
    refine (h.serve _ s).seq fun _ s' _ => ?_
    exact ih fun e he => hentries e (List.mem_cons_of_mem _ he)

/-- The entry of a block that is about to be written is one that the
tables mention. -/
theorem entryFor_concludes (hl : l.Told p (p.catalog image) ino) (offset : UInt32)
    (hs : quiet s) :
    Op.Concludes (v.entryFor below l offset) s
      (fun entry _ => (p.catalog image).Mentions entry ∧ entry.isEnd = false)
      (fun _ after => (blame after ∨ quiet after) ∨
        l.record.blocks ≤ offset ∧ (p.catalog image).Strays p ino) gone := by
  unfold entryFor
  split
  · exact (entryOf_concludes h hgone hl offset hs).mono (fun _ _ hgood => ⟨hgood.1, hgood.2.1⟩)
      fun _ _ hbad => .inl hbad
  rename_i hoffset
  rw [UInt32.not_lt] at hoffset
  split
  · exact Op.Concludes.fail (.inl (.inr hs))
  rename_i hmax
  refine Op.Concludes.lift_seq hgone
    (fun words => Cursor.exists_open words v.medium hl.recordBlocks_eq hl.tableBlocks_eq)
    fun c hopen => ?_
  have hc := Cursor.shows_of_open image hl.recordBlocks_eq hl.tableBlocks_eq hopen
  -- The growth alone is refused for a chain. It hands out entries that the tables mention.
  refine Op.Concludes.withOwn_seq (grow_concludes h hgone hl hc
    (UInt32.le_iff_toNat_le.mp hoffset) hmax hs) (fun _ _ hbad => hbad.imp_right (⟨hoffset, ·⟩)) ?_
  intro run state hrun
  refine (clear_concludes h hgone hl fun e he => hrun e (List.mem_append_left _ he)).bind
    (fun _ _ hblame => .inl (.inl hblame)) ?_
  intro _ after _
  exact Op.Concludes.pure (hrun _ (by simp))

end Growth

section Release

variable (h : Tells below v.medium image quiet blame gone)
  (hgone : ¬ p.InWords (p.catalog image) → gone)

include h hgone

/-- A chain is turned around in the cursor alone. -/
theorem turnAround_concludes (hc : c.Within p) (left : Nat) (entry free : Link) (hs : quiet s) :
    Op.Concludes (turnAround below left entry free) (c, s)
      (fun _ state => state.1.Within p ∧ quiet state.2)
      (fun _ state => blame state.2 ∨ quiet state.2) gone := by
  have hplace : ¬ p.dataFrom < 4294967296 → gone := fun hlt =>
    hgone fun words => hlt words.dataFrom_lt
  -- Each step looks at a link and sets it in a page, and nothing is written before the flush.
  induction left generalizing entry free c s with
  | zero => exact Op.Concludes.pure ⟨hc, hs⟩
  | succ left ih =>
    refine Op.Concludes.guard (fun _ => .inr hs) fun _ => ?_
    refine (Cursor.next_answers h.quietly hplace hc entry hs).seq ?_
    rintro after ⟨c₁, s₁⟩ ⟨hc₁, hs₁⟩
    refine (Cursor.setNext_concludes h.quietly hplace hc₁ entry free hs₁).bind
      (fun _ _ hbad => hbad.imp_right And.left) ?_
    rintro _ ⟨c₂, s₂⟩ ⟨hc₂, hs₂⟩
    exact ih hc₂ after entry hs₂

/-- A release is refused before it has written anything. -/
theorem free_concludes (hc : c.Within p) (l : Located) (hs : quiet s) :
    Op.Concludes (v.free below l) (c, s) (fun _ _ => True)
      (fun _ state => blame state.2 ∨ quiet state.2) gone := by
  refine (turnAround_concludes h hgone hc _ _ _ hs).seq ?_
  rintro ⟨rest, head⟩ ⟨c₁, s₁⟩ ⟨hc₁, hs₁⟩
  -- A chain that does not end with its file is refused while only the cursor has changed.
  have hended : Op.Concludes (checkEnded l.record.blocks rest) (c₁, s₁)
      (fun _ state => state.1.Within p) (fun _ state => blame state.2 ∨ quiet state.2) gone := by
    unfold checkEnded
    split
    · exact Op.Concludes.pure hc₁
    · exact Op.Concludes.note_seq (Op.Concludes.fail (.inr (h.note _ hs₁)))
  refine hended.seq ?_
  rintro _ ⟨c₂, s₂⟩ hc₂
  refine Op.Concludes.note_seq (Op.Concludes.lower_seq (h.serve _ _)
    (fun _ _ hblame => .inl hblame) ?_)
  intro _ s₃ _
  refine (Cursor.flush_concludes h (fun hlt => hgone fun words => hlt words.dataFrom_lt) hc₂).bind
    (fun _ _ hblame => .inl hblame) ?_
  rintro _ ⟨c₄, s₄⟩ -
  exact Op.Concludes.lower ((h.serve _ _).mono (fun _ _ _ => trivial) fun _ _ hblame => .inl hblame)

end Release

section Count

variable (h : Tells below v.medium image quiet blame gone)
  (hgone : ¬ p.InWords (p.catalog image) → gone)

include h hgone

/-- Following a chain to count it only reads. -/
theorem followClaiming_concludes {c : Cursor} {s : σ} (hc : c.Within p) (unclaimed : Nat)
    (entry : Link) (claims : Claims) (count : Nat) (hs : quiet s) :
    Op.Concludes (followClaiming below unclaimed entry claims count) (c, s)
      (fun _ state => state.1.Within p ∧ quiet state.2)
      (fun _ state => blame state.2 ∨ quiet state.2) gone := by
  have hagain : ∀ again : Link, Op.Concludes (followClaiming.claimedAgain (σ := σ) again) (c, s)
      (fun _ state => state.1.Within p ∧ quiet state.2)
      (fun _ state => blame state.2 ∨ quiet state.2) gone :=
    fun again => Op.Concludes.note_seq (Op.Concludes.fail (.inr (h.note _ hs)))
  unfold followClaiming
  dsimp only
  split
  · exact Op.Concludes.pure ⟨hc, hs⟩
  refine Op.Concludes.guard (fun _ => .inr hs) fun _ => ?_
  split
  · exact hagain entry
  -- How many entries are unclaimed only bounds the walk: the table checks every link itself.
  cases unclaimed with
  | zero => exact hagain entry
  | succ left =>
    refine (Cursor.next_answers h.quietly (fun hlt => hgone fun words => hlt words.dataFrom_lt)
      hc entry hs).seq ?_
    rintro after ⟨c', s'⟩ ⟨hc', hs'⟩
    exact followClaiming_concludes hc' left after _ _ hs'
termination_by unclaimed

/-- Counting the files of a block of records only reads. The number of a
file is worked out for a report, and is a word where the number of files
is one. -/
theorem claimRecords_concludes (hc : c.Within p) {number : UInt32} (hfirst : 1 ≤ number.toNat)
    (hlast : number.toNat ≤ p.recordBlocks.toNat) (block : Block) (places : List (Fin 64))
    (claims : Claims) (used : Nat) (hs : quiet s) :
    Op.Concludes (claimRecords below number block places claims used) (c, s)
      (fun _ state => state.1.Within p ∧ quiet state.2)
      (fun _ state => blame state.2 ∨ quiet state.2) gone := by
  -- The files of the block are counted in order, and the claims are carried along.
  induction places generalizing claims used c s with
  | nil => exact Op.Concludes.pure ⟨hc, hs⟩
  | cons place rest ih =>
    refine (followClaiming_concludes h hgone hc _ _ _ _ hs).seq ?_
    rintro ⟨count, claims'⟩ ⟨c', s'⟩ ⟨hc', hs'⟩
    dsimp only
    split
    · refine Op.Concludes.keeps_seq ?_
      split
      · -- The report names the file, whose number is below the number of all files.
        have hbefore : (number - 1).toNat = number.toNat - 1 := by
          rw [UInt32.toNat_sub_of_le _ _ (by rwa [UInt32.le_iff_toNat_le, UInt32.toNat_one]),
            UInt32.toNat_one]
        have hplace := place.isLt
        refine Op.Concludes.lift_seq hgone (fun words => ?_) fun first hmul => ?_
        · have hfiles := words.files_lt
          refine ⟨(number - 1) * 64, ?_⟩
          rw [Checked.mul_eq_ok_iff, UInt32.toNat_mul, hbefore,
            show (64 : UInt32).toNat = 64 from rfl]
          omega
        have hfirst := Checked.mul_eq_ok_iff.mp hmul
        rw [hbefore, show (64 : UInt32).toNat = 64 from rfl] at hfirst
        refine Op.Concludes.lift_seq hgone (fun words => ?_) fun ino _ => ?_
        · have hfiles := words.files_lt
          have hnat : (UInt32.ofNat place.val).toNat = place.val :=
            UInt32.toNat_ofNat_of_lt' (show place.val < 4294967296 by omega)
          obtain ⟨ino, hino, -⟩ := Checked.exists_add
            (show first.toNat + (UInt32.ofNat place.val).toNat < 4294967296 by omega)
          exact ⟨ino, hino⟩
        exact Op.Concludes.note_seq (.inr (h.note _ hs'))
      · exact .inr hs'
    · exact ih hc' _ _ hs'

/-- Counting the files only reads, from one block of records to the
last. -/
theorem claimFiles_concludes (hc : c.Within p) (left : Nat) {number : UInt32}
    (hnumber : 0 < left → 1 ≤ number.toNat ∧ number.toNat + left = p.recordBlocks.toNat + 1)
    (claims : Claims) (used : Nat) (hs : quiet s) :
    Op.Concludes (v.claimFiles below left number claims used) (c, s) (fun _ state => quiet state.2)
      (fun _ state => blame state.2 ∨ quiet state.2) gone := by
  induction left generalizing number claims used c s with
  | zero => exact Op.Concludes.pure hs
  | succ left ih =>
    obtain ⟨hfirst, hlast⟩ := hnumber (Nat.succ_pos left)
    refine Op.Concludes.lower_seq (h.look (q := .read ⟨v.medium, number⟩) rfl hs)
      (fun _ _ hblame => .inl hblame) ?_
    intro block s₁ hs₁
    refine (claimRecords_concludes h hgone hc hfirst (by omega) block _ _ _ hs₁).seq ?_
    rintro ⟨count, claims'⟩ ⟨c₂, s₂⟩ ⟨hc₂, hs₂⟩
    refine ih hc₂ (fun hmore => ?_) _ _ hs₂
    -- The next block of records has a number that is a word, as the last of them has.
    have hlt := p.recordBlocks.toNat_lt
    rw [Checked.toNat_succ (show number.toNat + 1 < 4294967296 by omega)]
    omega

end Count

section Sizes

variable (h : Tells below v.medium image quiet blame gone) (told : p.ToldBy image)
  (hgone : (Superblock.decode (image 0)).formatted = true → ¬ p.InWords (p.catalog image) → gone)

include h told hgone

/-- A count only reads. -/
theorem occupancy_concludes (hs : quiet s) :
    Op.Concludes (v.occupancy below) s (fun _ _ => True) (fun _ after => blame after ∨ quiet after)
      gone := by
  refine (superblock_tells h hs).seq ?_
  rintro _ s₁ ⟨rfl, hformatted, hs₁⟩
  refine (h.look (q := .size v.medium) rfl hs₁).bind (fun _ _ hblame => .inl hblame) ?_
  intro blocks s₂ hs₂
  refine Op.Concludes.lift_seq (hgone hformatted) (fun words => ?_) fun start _ => ?_
  · obtain ⟨start, hstart, -⟩ :=
      Plan.exists_dataStart words.dataFrom_lt told.recordBlocks_eq told.tableBlocks_eq
    exact ⟨start, hstart⟩
  refine Op.Concludes.guard (fun _ => .inr hs₂) fun _ => ?_
  refine Op.Concludes.lift_seq (hgone hformatted) (fun words => Cursor.exists_open words v.medium
    told.recordBlocks_eq told.tableBlocks_eq) fun c hopen => ?_
  have hc := Cursor.shows_of_open image told.recordBlocks_eq told.tableBlocks_eq hopen
  -- The count follows the free chain first and then the files, and writes nothing.
  have hcount : Op.Concludes (v.countEntries below (Superblock.decode (image 0)) (blocks - start))
      (c, s₂) (fun _ _ => True) (fun _ state => blame state.2 ∨ quiet state.2) gone := by
    refine (followClaiming_concludes h (hgone hformatted) hc.within _ _ _ _ hs₂).seq ?_
    rintro ⟨free, claims⟩ ⟨c₃, s₃⟩ ⟨hc₃, hs₃⟩
    have hone : (1 : UInt32).toNat = 1 := rfl
    refine (claimFiles_concludes h (hgone hformatted) hc₃ _
      (fun _ => ⟨Nat.le_of_eq hone.symm, by rw [told.recordBlocks_eq, hone, Nat.add_comm]⟩)
      _ _ hs₃).seq ?_
    rintro ⟨used, claims'⟩ ⟨c₄, s₄⟩ hs₄
    dsimp only
    split
    · exact Op.Concludes.note_seq (.inr (h.note _ hs₄))
    · exact Op.Concludes.pure trivial
  refine Op.Concludes.withOwn_seq hcount (fun _ _ hbad => hbad) ?_
  intro counted state _
  exact Op.Concludes.pure trivial

/-- A file is resized to its own size or to none. -/
theorem resize_concludes (ino blocks : UInt32) (hs : quiet s) :
    Op.Concludes (v.resize below ino blocks) s (fun _ _ => True)
      (fun _ after => blame after ∨ quiet after) gone := by
  refine (locate_concludes h told hgone ino hs).seq ?_
  rintro l s₁ ⟨hformatted, hl, hs₁⟩
  dsimp only
  split
  · exact Op.Concludes.pure trivial
  refine Op.Concludes.guard (fun _ => .inr hs₁) fun _ => Op.Concludes.guard (fun _ => .inr hs₁)
    fun _ => ?_
  refine Op.Concludes.lift_seq (hgone hformatted) (fun words => Cursor.exists_open words v.medium
    hl.recordBlocks_eq hl.tableBlocks_eq) fun c hopen => ?_
  have hc := Cursor.shows_of_open image hl.recordBlocks_eq hl.tableBlocks_eq hopen
  refine Op.Concludes.withOwn_seq (free_concludes h (hgone hformatted) hc.within l hs₁)
    (fun _ _ hbad => hbad) ?_
  intro _ state _
  exact Op.Concludes.pure trivial

/-- A block is read, or the call is refused. -/
theorem read_concludes (a : Address) (hs : quiet s) :
    Op.Concludes (v.read below a) s (fun _ _ => True)
      (fun _ after => blame after ∨ quiet after) gone := by
  refine (locate_concludes h told hgone a.ino hs).seq ?_
  rintro l s₁ ⟨hformatted, hl, hs₁⟩
  refine Op.Concludes.guard (fun _ => .inr hs₁) fun _ => ?_
  refine (entryOf_concludes h (hgone hformatted) hl a.offset hs₁).seq ?_
  rintro entry s₂ ⟨hentry, hend, hs₂⟩
  refine Op.Concludes.lift_seq (hgone hformatted) (fun words => words.exists_dataBlock
    hl.recordBlocks_eq hl.tableBlocks_eq hentry hend) fun number _ => ?_
  exact (h.serve _ s₂).mono (fun _ _ _ => trivial) fun _ _ hblame => .inl hblame

/-- A block is written, or the call is refused. Once something is
written it is refused only where the file grows and its chain leaves the
table. -/
theorem write_concludes (a : Address) (data : Block) (hs : quiet s) :
    Op.Concludes (v.write below a data) s (fun _ _ => True)
      (fun _ after => (blame after ∨ quiet after) ∨
        ((p.catalog image).record a.ino).blocks ≤ a.offset ∧ (p.catalog image).Strays p a.ino)
      gone := by
  refine (locate_concludes h told hgone a.ino hs).bind (fun _ _ hbad => .inl hbad) ?_
  rintro l s₁ ⟨hformatted, hl, hs₁⟩
  refine (entryFor_concludes h (hgone hformatted) hl a.offset hs₁).bind
    (fun _ _ hbad => hl.record_eq ▸ hbad) ?_
  rintro entry s₂ ⟨hentry, hend⟩
  refine Op.Concludes.lift_seq (hgone hformatted) (fun words => words.exists_dataBlock
    hl.recordBlocks_eq hl.tableBlocks_eq hentry hend) fun number _ => ?_
  exact (h.serve _ s₂).mono (fun _ _ _ => trivial) fun _ _ hblame => .inl (.inl hblame)

/-- A call that is refused has written nothing, unless the store below
is to blame or a file grows whose chain leaves the table. -/
theorem serve_concludes (c : Call) (hs : quiet s) :
    Op.Concludes (v.serve below c) s (fun _ _ => True)
      (fun _ after => (blame after ∨ quiet after) ∨ ∃ a data, c = .request (.write a data) ∧
        ((p.catalog image).record a.ino).blocks ≤ a.offset ∧ (p.catalog image).Strays p a.ino)
      gone := by
  -- All calls but the writes are refused early, if at all.
  have hearly : ∀ {α : Type} {x : Op σ α},
      Op.Concludes x s (fun _ _ => True) (fun _ after => blame after ∨ quiet after) gone →
      Op.Concludes x s (fun _ _ => True) (fun _ after => (blame after ∨ quiet after) ∨
        ∃ a data, c = .request (.write a data) ∧
          ((p.catalog image).record a.ino).blocks ≤ a.offset ∧ (p.catalog image).Strays p a.ino)
        gone :=
    fun hx => hx.mono (fun _ _ _ => trivial) fun _ _ hbad => .inl hbad
  cases c with
  | occupancy => exact hearly (occupancy_concludes h told hgone hs)
  | request q =>
    cases q with
    | capacity => exact hearly (capacity_concludes h told hgone hs)
    | size ino =>
      refine hearly ((locate_concludes h told hgone ino hs).seq ?_)
      rintro l after -
      exact Op.Concludes.pure trivial
    | resize ino blocks => exact hearly (resize_concludes h told hgone ino blocks hs)
    | read a => exact hearly (read_concludes h told hgone a hs)
    | write a data =>
      refine (write_concludes h told hgone a data hs).mono (fun _ _ _ => trivial) ?_
      exact fun _ _ hbad => hbad.imp_right fun hstray => ⟨a, data, rfl, hstray⟩
    | sync ino =>
      exact hearly ((h.serve _ s).mono (fun _ _ _ => trivial) fun _ _ hblame => .inl hblame)

end Sizes

end Volume

end BlockLayers.Fat
