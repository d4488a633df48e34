import BlockLayers.Proofs.Agrees
import BlockLayers.Proofs.Fat.Refused
import BlockLayers.Proofs.Fat.Tracks

/-!
# `BlockLayers.Proofs.Fat.WriteBack`: a cursor acts like a direct table

From a new cursor on, every list of calls ends as it does on a direct
table (`Direct`). Each call leaves the cursor in step with the direct
table (`Cursor.Tracks`): the calls other than a flush by the same rules
on both sides (`InStep`, `look_agrees`), and a flush page by page
(`flush_saves`).

What is asked of the store below is part of the invariant, so the store
is taken with a list of the requests that it was asked (`Lists`). Every
store whose calls succeed is such a store, with a record or without.

Main statement: `Cursor.acts_directly`.
-/

set_option autoImplicit false

namespace BlockLayers.Fat

namespace Cursor

variable {c : Cursor} {medium : UInt32} {p : Plan} {image disk : Nat → Block}
  {log : List Request} {t : Direct}

/-! ### The calls that only read -/

section Operations

variable {σ : Type} [Journal σ] {below : Store σ} {kept : σ → (Nat → Block) → List Request → Prop}
  {s : σ}

/-- The cursor is in step with a direct table, and since `log` nothing
was asked of the store below but to show table blocks. -/
def InStep (kept : σ → (Nat → Block) → List Request → Prop) (medium : UInt32) (p : Plan)
    (image : Nat → Block) (log : List Request) (state : Cursor × σ) (t : Direct) : Prop :=
  ∃ log', p.Looked medium log log' ∧ state.1.Tracks medium p image log' t ∧
    kept state.2 image log'

omit [Journal σ] in

/-- A cursor that is in step is on its table. -/
theorem InStep.within {state : Cursor × σ} (h : InStep kept medium p image log state t) :
    state.1.Within p := by
  obtain ⟨_, -, htracks, -⟩ := h
  exact htracks.toWithin

/-- A report leaves the cursor in step. -/
theorem InStep.note (hL : Lists below medium p.InTable kept)
    (h : InStep kept medium p image log (c, s) t) (event : Event) :
    InStep kept medium p image log (c, Journal.enter event s) t := by
  obtain ⟨log', hlooked, htracks, hs⟩ := h
  exact ⟨log', hlooked, htracks, hL.note event hs⟩

/-- An entry of the table is let pass. -/
theorem check_apply (hc : c.Within p) {entry : Link} (hentry : p.HasEntry entry) :
    check entry (c, s) = .ok () (c, s) := by
  have hcapacity : ¬ c.capacity ≤ entry.word := by
    rw [UInt32.le_iff_toNat_le, hc.capacity_eq]
    exact Nat.not_le.mpr hentry
  show (if entry.isEnd ∨ c.capacity ≤ entry.word then _ else _ : Op (Cursor × σ) Unit) (c, s) = _
  rw [if_neg (by simp [hc.isEnd_eq_false hentry, hcapacity])]
  rfl

/-- What is no entry of the table is reported and refused. -/
theorem check_refuses (hc : c.Within p) {entry : Link} (hentry : ¬ p.HasEntry entry) :
    check entry (c, s) = .error (.fault (.corrupted .danglingLink))
      (c, Journal.enter (.danglingLink entry c.capacity) s) := by
  have hcapacity : c.capacity ≤ entry.word := by
    rw [UInt32.le_iff_toNat_le, hc.capacity_eq]
    exact Nat.not_lt.mp hentry
  show (if entry.isEnd ∨ c.capacity ≤ entry.word then _ else _ : Op (Cursor × σ) Unit) (c, s) = _
  rw [if_pos (.inr hcapacity)]
  rfl

/-- A link is let pass, or refused, as it is for the direct table. -/
theorem check_agrees (hL : Lists below medium p.InTable kept) (hp : p.Addressed) (entry : Link) :
    Op.Agrees (InStep kept medium p image log) (check entry) (Direct.check p entry) := by
  rintro ⟨c, s⟩ t h
  unfold Op.outcome Op.next
  by_cases hentry : p.HasEntry entry
  · rw [check_apply h.within hentry, Direct.check_apply hp hentry]
    exact ⟨rfl, h⟩
  · rw [check_refuses h.within hentry, Direct.check_refused hentry]
    exact ⟨rfl, h.note hL _⟩

/-- The number of a table block on the medium. -/
theorem Stands.place (h : c.Stands medium p image disk) (hp : p.Addressed) {index : UInt32}
    (hindex : index.toNat < p.tableBlocks.toNat) :
    Checked.add c.start index = .ok (p.tableAddress medium index).offset := by
  rw [Checked.add_eq_ok_iff, hp.tableAddress_toNat medium hindex, h.start_eq]

/-- A table block comes from its page, or becomes one. -/
theorem load_inStep (hL : Lists below medium p.InTable kept) (hp : p.Addressed)
    (h : InStep kept medium p image log (c, s) t) {index : UInt32}
    (hindex : index.toNat < p.tableBlocks.toNat) :
    Op.Ends (load below index) (c, s)
      (fun block after => block = t.disk (p.linksFrom + index.toNat) ∧
        (∃ page, after.1.page? index = some page) ∧ InStep kept medium p image log after t)
      fun _ _ => False := by
  obtain ⟨log', hlooked, htracks, hs⟩ := h
  have hseen := htracks.seen_eq index hindex
  refine Op.Ends.own_seq ?_
  cases hpage : c.page? index with
  | some page =>
    refine Op.Ends.pure ⟨?_, ⟨page, hpage⟩, log', hlooked, htracks, hs⟩
    rw [← hseen, seen, hpage]
  | none =>
    -- Not being a page, the block was not read before, and its read is the first.
    have hat := hp.tableAddress_toNat medium hindex
    have hshown : p.InTable (p.tableAddress medium index).offset.toNat :=
      hat ▸ Plan.inTable_of_lt hindex
    refine Op.Ends.lift_seq (htracks.place hp hindex) ?_
    rw [htracks.medium_eq]
    refine Op.Ends.lower_seq (hL.read hs hshown) (fun _ _ hno => hno) ?_
    rintro _ s' ⟨rfl, hs'⟩
    rw [hat]
    have hkeep := htracks.keep hp hindex hpage
    refine Op.Ends.modifyOwn_seq (Op.Ends.pure ⟨?_, ?_, _, hlooked.trans (.read medium _ hindex),
      hkeep, hs'⟩)
    · rw [← hseen, seen, hpage, htracks.start_eq]
    · refine ⟨⟨index, image (p.linksFrom + index.toNat), false⟩, ?_⟩
      exact page?_of_mem hkeep.distinct
        ((insertPage_perm _ c.pages).mem_iff.mpr List.mem_cons_self)

/-- The link of an entry is the one on the direct table. -/
theorem next_agrees (hL : Lists below medium p.InTable kept) (hp : p.Addressed) (entry : Link) :
    Op.Agrees (InStep kept medium p image log) (next below entry) (Direct.next p entry) := by
  rintro ⟨c, s⟩ t h
  by_cases hentry : p.HasEntry entry
  · have hcheck : Op.Ends (check entry) (c, s) (fun _ after => after = (c, s)) fun _ _ => False :=
      .of_ok (check_apply h.within hentry) rfl
    refine Op.Ends.agree (hcheck.bind (fun _ _ hno => hno.elim) ?_)
    rintro _ _ rfl
    refine (load_inStep hL hp h (position_index_lt hentry)).bind (fun _ _ hno => hno.elim) ?_
    rintro _ after ⟨rfl, -, hafter⟩
    exact Op.Ends.pure ⟨t, Direct.next_apply hp hentry, hafter⟩
  · exact Op.Ends.agree (.of_fault (Op.bind_of_error (check_refuses h.within hentry) _)
      ⟨t, Direct.next_refused hentry, h.note hL _⟩)

/-- A link is changed as it is on the direct table, and nothing is
written. -/
theorem setNext_agrees (hL : Lists below medium p.InTable kept) (hp : p.Addressed)
    (entry link : Link) :
    Op.Agrees (InStep kept medium p image log) (setNext below entry link)
      (Direct.setNext p entry link) := by
  rintro ⟨c, s⟩ t h
  by_cases hentry : p.HasEntry entry
  · have hcheck : Op.Ends (check entry) (c, s) (fun _ after => after = (c, s)) fun _ _ => False :=
      .of_ok (check_apply h.within hentry) rfl
    refine Op.Ends.agree (hcheck.bind (fun _ _ hno => hno.elim) ?_)
    rintro _ _ rfl
    refine (load_inStep hL hp h (position_index_lt hentry)).bind (fun _ _ hno => hno.elim) ?_
    rintro _ ⟨c', s'⟩ ⟨rfl, ⟨page, hpage⟩, log', hlooked, htracks, hs'⟩
    -- The page of the entry is loaded by now, and is changed on both sides.
    refine Op.Ends.modifyOwn ⟨t.put p entry link, ?_, log', hlooked,
      htracks.setLink link hentry hpage, hs'⟩
    exact Op.bind_of_ok (Direct.check_apply hp hentry) _
  · exact Op.Ends.agree (.of_fault (Op.bind_of_error (check_refuses h.within hentry) _)
      ⟨t, Op.bind_of_error (Direct.check_refused hentry) _, h.note hL _⟩)

/-- Links are followed as they are on the direct table. -/
theorem follow_agrees (hL : Lists below medium p.InTable kept) (hp : p.Addressed) (head : Link)
    (steps : UInt32) (left : Nat) (entry : Link) :
    Op.Agrees (InStep kept medium p image log) (follow below head steps left entry)
      (Direct.follow p left entry) := by
  induction left generalizing entry with
  | zero => exact Op.Agrees.pure
  | succ left ih =>
    refine (next_agrees hL hp entry).bind fun after => ?_
    cases hend : after.isEnd with
    | true =>
      -- The chain ends here on both, and only the cursor reports it.
      rintro ⟨c, s⟩ t h
      simp only [if_true]
      exact ⟨rfl, h.note hL _⟩
    | false =>
      simp only [Bool.false_eq_true, if_false]
      exact ih after

/-- A walk ends as it does on the direct table. -/
theorem walk_agrees (hL : Lists below medium p.InTable kept) (hp : p.Addressed) (head : Link)
    (steps : UInt32) :
    Op.Agrees (InStep kept medium p image log) (walk below head steps)
      (Direct.walk p head steps) :=
  (check_agrees hL hp head).bind fun _ => follow_agrees hL hp head steps steps.toNat head

/-- Every call but a flush ends as it does on the direct table, and only
table blocks are read for it. -/
theorem look_agrees (hL : Lists below medium p.InTable kept) (hp : p.Addressed) {call : Call}
    (hcall : call ≠ .flush) :
    Op.Agrees (InStep kept medium p image log) (serve below call) (Direct.serve p call) := by
  cases call with
  | next entry => exact next_agrees hL hp entry
  | setNext entry link => exact setNext_agrees hL hp entry link
  | walk head steps => exact walk_agrees hL hp head steps
  | flush => exact (hcall rfl).elim

/-! ### Flushing -/

/-- The changed pages among those that are left are written, in their
order. The pages before them are unchanged already. -/
theorem flushPages_writes (hL : Lists below medium p.InTable kept) (hp : p.Addressed)
    {before todo : List Page} (h : c.Stands medium p image disk) (hpages : c.pages = before ++ todo)
    (hbefore : ∀ page ∈ before, page.changed = false) (hs : kept s image log) :
    Op.Ends (flushPages below todo) (c, s)
      (fun _ after => ∃ image', after.1.Stands medium p image' disk ∧
        (∀ page ∈ after.1.pages, page.changed = false) ∧
        (∀ index, c.page? index ≠ none → after.1.page? index ≠ none) ∧
        kept after.2 image' (log ++ (todo.filter (·.changed)).map fun page =>
          .write (p.tableAddress medium page.index) (disk (p.linksFrom + page.index.toNat))))
      fun _ _ => False := by
  -- Each write changes the image, and moves a page to those that are done.
  induction todo generalizing before c s image log with
  | nil =>
    rw [List.append_nil] at hpages
    exact Op.Ends.pure ⟨image, h, hpages ▸ hbefore, fun _ hsome => hsome,
      (List.append_nil log).symm ▸ hs⟩
  | cons page rest ih =>
    have hpage : page ∈ c.pages := hpages ▸ List.mem_append_right _ List.mem_cons_self
    unfold flushPages
    dsimp only
    split
    · rename_i hchanged
      have hin := h.inTable page hpage
      have hat := hp.tableAddress_toNat medium hin
      have hshown : p.InTable (p.tableAddress medium page.index).offset.toNat :=
        hat ▸ Plan.inTable_of_lt hin
      refine Op.Ends.own_seq (Op.Ends.lift_seq (h.place hp hin) ?_)
      rw [h.medium_eq]
      refine Op.Ends.lower_seq (hL.write page.block hs hshown) (fun _ _ hno => hno) ?_
      intro _ s' hs'
      rw [hat] at hs'
      have hdone : ∀ q ∈ before ++ [{ page with changed := false }], q.changed = false := by
        intro q hq
        rcases List.mem_append.mp hq with hold | hnew
        · exact hbefore q hold
        · rw [List.mem_singleton.mp hnew]
      refine Op.Ends.modifyOwn_seq ((ih (h.written hpage)
        (by rw [alter_pages h.distinct hpages, List.append_cons]) hdone hs').mono ?_
        fun _ _ hno => hno)
      rintro _ after ⟨image', hstands, hclean, hsame, hafter⟩
      refine ⟨image', hstands, hclean,
        fun index hsome => hsame index (page?_alter_ne (fun _ => rfl) hsome), ?_⟩
      rw [List.filter_cons_of_pos hchanged, List.map_cons, List.append_cons, ← h.block_eq hpage]
      exact hafter
    · rename_i hsame
      have hdone : ∀ q ∈ before ++ [page], q.changed = false := by
        intro q hq
        rcases List.mem_append.mp hq with hold | hnew
        · exact hbefore q hold
        · rw [List.mem_singleton.mp hnew]
          exact Bool.eq_false_iff.mpr hsame
      rw [List.filter_cons_of_neg hsame]
      exact ih h (by rw [hpages, List.append_cons]) hdone hs

/-- A flush writes the touched table blocks in ascending order, and the
medium then has the blocks of the direct table. -/
theorem flush_saves (hL : Lists below medium p.InTable kept) (hp : p.Addressed)
    (h : c.Tracks medium p image log t) (hs : kept s image log) :
    Op.Ends (flush below) (c, s)
      (fun _ after => ∃ log', t.Saved p medium log log' ∧
        after.1.Tracks medium p t.disk log' { t with touched := [] } ∧ kept after.2 t.disk log')
      fun _ _ => False := by
  have hwrites := flushPages_writes hL hp h.toStands (List.nil_append c.pages).symm nofun hs
  refine Op.Ends.own_seq (hwrites.mono ?_ fun _ _ hno => hno)
  rintro _ ⟨c', s'⟩ ⟨image', hstands, hclean, hsame, hs'⟩
  -- Without changed pages the medium has what the cursor stood for.
  obtain rfl : image' = t.disk := hstands.eq_of_clean hclean
  -- None of the writes is a read, so no more is known to be read than before.
  have hunread : ∀ a, .read a ∉ (c.pages.filter (·.changed)).map fun page =>
      Request.write (p.tableAddress medium page.index)
        (t.disk (p.linksFrom + page.index.toNat)) := by simp
  refine ⟨_, ⟨(c.pages.filter (·.changed)).map (·.index), ?_, fun index => ?_, ?_⟩,
    ⟨hstands, fun index => ?_, fun a => ?_, fun index hindex hread => ?_⟩, hs'⟩
  · exact List.pairwise_map.mpr (h.ascending.filter _)
  · rw [h.touched_iff, List.mem_map]
    simp only [List.mem_filter]
    constructor
    · rintro ⟨page, ⟨hpage, hchanged⟩, hindex⟩
      exact ⟨page, hpage, hindex, hchanged⟩
    · rintro ⟨page, hpage, hindex, hchanged⟩
      exact ⟨page, ⟨hpage, hchanged⟩, hindex⟩
  · rw [List.map_map]
    rfl
  · simp only [List.not_mem_nil, false_iff]
    rintro ⟨page, hpage, -, hchanged⟩
    rw [hclean page hpage] at hchanged
    cases hchanged
  · rw [List.count_append, List.count_eq_zero.mpr (hunread a)]
    exact h.once a
  · exact hsame index
      (h.known index hindex ((List.mem_append.mp hread).resolve_right (hunread _)))

/-! ### Runs -/

/-- The cursor is in step, with whatever the medium has and was asked. -/
def Follows (kept : σ → (Nat → Block) → List Request → Prop) (medium : UInt32) (p : Plan)
    (state : Cursor × σ) (t : Direct) : Prop :=
  ∃ image log, state.1.Tracks medium p image log t ∧ kept state.2 image log

/-- Every call ends as it does on the direct table. -/
theorem serve_agrees (hL : Lists below medium p.InTable kept) (hp : p.Addressed) (call : Call) :
    Op.Agrees (Follows kept medium p) (serve below call) (Direct.serve p call) := by
  rintro ⟨c, s⟩ t ⟨image, log, htracks, hs⟩
  by_cases hcall : call = .flush
  · subst hcall
    refine Op.Ends.agree ((flush_saves hL hp htracks hs).mono ?_ fun _ _ hno => hno.elim)
    rintro _ after ⟨log', -, htracks', hs'⟩
    exact ⟨_, rfl, _, log', htracks', hs'⟩
  · obtain ⟨houtcome, log', -, htracks', hs'⟩ :=
      look_agrees hL hp hcall (c, s) t ⟨log, .refl p medium log, htracks, hs⟩
    exact ⟨houtcome, image, log', htracks', hs'⟩

/-- The requests that a cursor has made after a list of calls. -/
def requests (below : Store σ) (c : Cursor) (s : σ) (calls : List Call) : List Request :=
  (Op.after (serve (Recorded.store below)) calls (c, [], s)).2.1.map Exchange.request

/-- A cursor acts like a table that is read and written where it stands,
and spares the store below what it can. -/
structure ActsDirectly (below : Store σ) (medium : UInt32) (p : Plan)
    (holds : σ → (Nat → Block) → Prop) (image : Nat → Block) (c : Cursor) (s : σ) : Prop where
  /-- The calls end as they do on the direct table. -/
  outcomes_eq : ∀ calls, Op.outcomes (serve below) calls (c, s) =
    Op.outcomes (Direct.serve p) calls (.start image)
  /-- Nothing but a flush writes; the other calls read table blocks. -/
  looks : ∀ calls call, call ≠ .flush →
    p.Looked medium (requests below c s calls) (requests below c s (calls ++ [call]))
  /-- No block is read twice. -/
  once : ∀ calls a, (requests below c s calls).count (.read a) ≤ 1
  /-- A flush writes the table blocks that were touched since the last
  one. -/
  saves : ∀ calls, (Op.after (Direct.serve p) calls (.start image)).Saved p medium
    (requests below c s calls) (requests below c s (calls ++ [.flush]))
  /-- After a flush the medium has the blocks of the direct table. -/
  settles : ∀ calls, holds (Op.after (serve below) (calls ++ [.flush]) (c, s)).2
    (Op.after (Direct.serve p) (calls ++ [.flush]) (.start image)).disk

/-- A cursor on a table with any content acts directly, where the numbers
of the table are words and the calls of the store below succeed. -/
theorem acts_directly {holds : σ → (Nat → Block) → Prop}
    (hD : Discloses below medium p.InTable (fun _ _ => False) holds)
    (hT : Takes below medium p.InTable (fun _ _ => False) holds) (hp : p.Addressed)
    {sb : Superblock} (hrecords : sb.recordBlocks = p.recordBlocks)
    (htable : sb.tableBlocks = p.tableBlocks) (hs : holds s image) :
    ∃ c, open_ medium sb = .ok c ∧ ActsDirectly below medium p holds image c s := by
  obtain ⟨c, hopen, hpages, hstands⟩ := exists_open_stands hp medium image hrecords htable
  have hstart : c.Tracks medium p image [] (.start image) :=
    ⟨hstands, by simp [Direct.start, hpages], by simp, nofun⟩
  -- The outcomes and the medium are those of the store itself, the requests those of its record.
  have hplain := Lists.plain hD hT
  have hlisted := Lists.recorded hD hT
  have hrecorded : ∀ calls, Follows _ medium p
      (Op.after (serve (Recorded.store below)) calls (c, [], s))
      (Op.after (Direct.serve p) calls (.start image)) := fun calls =>
    Op.Agrees.after (serve_agrees hlisted hp) calls ⟨image, [], hstart, rfl, hs⟩
  have hheld : ∀ calls, Follows _ medium p (Op.after (serve below) calls (c, s))
      (Op.after (Direct.serve p) calls (.start image)) := fun calls =>
    Op.Agrees.after (serve_agrees hplain hp) calls ⟨image, [], hstart, hs⟩
  refine ⟨c, hopen, ?_⟩
  constructor
  case outcomes_eq =>
    exact fun calls => Op.outcomes_eq (serve_agrees hplain hp) calls ⟨image, [], hstart, hs⟩
  case looks =>
    intro calls call hcall
    obtain ⟨image', _, htracks, rfl, hs'⟩ := hrecorded calls
    obtain ⟨-, log', hlooked, -, rfl, -⟩ :=
      look_agrees hlisted hp hcall _ _ ⟨_, .refl p medium _, htracks, rfl, hs'⟩
    rwa [requests, requests, Op.after_concat]
  case once =>
    intro calls a
    obtain ⟨_, _, htracks, rfl, -⟩ := hrecorded calls
    exact htracks.once a
  case saves =>
    intro calls
    obtain ⟨image', _, htracks, rfl, hs'⟩ := hrecorded calls
    obtain ⟨_, hsaved, -, rfl, -⟩ := Op.Ends.next _
      ((flush_saves hlisted hp htracks ⟨rfl, hs'⟩).mono (fun _ _ h => h) fun _ _ hno => hno.elim)
    rwa [requests, requests, Op.after_concat]
  case settles =>
    intro calls
    obtain ⟨image', log, htracks, hs'⟩ := hheld calls
    obtain ⟨-, -, -, hsettled⟩ := Op.Ends.next _
      ((flush_saves hplain hp htracks hs').mono (fun _ _ h => h) fun _ _ hno => hno.elim)
    rw [Op.after_concat, Op.after_concat]
    exact hsettled

end Operations

/-- A cursor on the table of a medium of five blocks in memory. -/
theorem acts_directly_crafted :
    Discloses Memory.store 0 (⟨1, 1, 2⟩ : Plan).InTable (fun _ _ => False)
        (Memory.Carries 0 5) ∧
      Takes Memory.store 0 (⟨1, 1, 2⟩ : Plan).InTable (fun _ _ => False) (Memory.Carries 0 5) ∧
      (⟨1, 1, 2⟩ : Plan).Addressed ∧
      Memory.Carries 0 5 (Volume.crafted ⟨1⟩ ⟨⟨0⟩, 1⟩ Link.endMark)
        ((Volume.crafted ⟨1⟩ ⟨⟨0⟩, 1⟩ Link.endMark).image 0) ∧
      ∃ c, open_ 0 ⟨1, 1, ⟨1⟩⟩ = .ok c ∧
        ActsDirectly Memory.store 0 ⟨1, 1, 2⟩ (Memory.Carries 0 5)
          ((Volume.crafted ⟨1⟩ ⟨⟨0⟩, 1⟩ Link.endMark).image 0) c
          (Volume.crafted ⟨1⟩ ⟨⟨0⟩, 1⟩ Link.endMark) := by
  have hless : ∀ n, (⟨1, 1, 2⟩ : Plan).InTable n → n < 5 := fun _ hn =>
    Nat.lt_trans hn.2 (by decide)
  have hM := Memory.medium 0 5
  have hD := hM.toDiscloses.restrict hless
  have hT := hM.takes.restrict hless
  have hp : (⟨1, 1, 2⟩ : Plan).Addressed := ⟨by decide, by decide, by decide⟩
  have hs := Volume.carries_crafted ⟨1⟩ ⟨⟨0⟩, 1⟩ Link.endMark
  exact ⟨hD, hT, hp, hs, acts_directly hD hT hp rfl rfl hs⟩

end Cursor

end BlockLayers.Fat
