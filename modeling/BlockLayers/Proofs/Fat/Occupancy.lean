import BlockLayers.Proofs.Fat.Calls
import BlockLayers.Proofs.Fat.Partition
import BlockLayers.Proofs.Run

/-!
# `BlockLayers.Proofs.Fat.Occupancy`: the count of the entries

The count of a file system ends with numbers exactly when the tables are
in order. Each of its steps is described by what it has found out when
it ends: the chains that it went through are in order
(`Chains.Tidy`), or it met a contradiction, and then there is no way to
see all chains in order (`Condemned`). Nothing is assumed of the tables.

Main statements: `countEntries_ends`, `occupancy_ends` for a volume
that matches a map of files, and `occupancy_preserves`, which says that
no count changes anything.
-/

set_option autoImplicit false

namespace BlockLayers.Fat

/-- The entries that a count has claimed. -/
structure Claims.Are (claims : Claims) (total : Nat) (done : List Link) : Prop where
  total_eq : claims.total = total
  contains_iff : ∀ entry : Link, claims.claimed.contains entry.word = true ↔ entry ∈ done
  size_eq : claims.claimed.size = done.length

namespace Claims.Are

variable {claims : Claims} {total : Nat} {done : List Link}

/-- No entry is claimed at the start of a count. -/
theorem empty (total : Nat) : Claims.Are ⟨total, ∅⟩ total [] :=
  ⟨rfl, fun _ => by simp, by simp⟩

/-- One more entry is claimed. -/
theorem insert (h : claims.Are total done) {entry : Link} (hentry : entry ∉ done) :
    Claims.Are { claims with claimed := claims.claimed.insert entry.word } total
      (done ++ [entry]) where
  total_eq := h.total_eq
  contains_iff other := by
    -- Entries are claimed by their words, and two entries with one word are one.
    have hword : entry.word = other.word ↔ other = entry := by
      constructor
      · intro heq
        cases entry
        cases other
        exact congrArg Link.mk heq.symm
      · rintro rfl
        rfl
    rw [Std.HashSet.contains_insert, Bool.or_eq_true, beq_iff_eq, h.contains_iff, hword,
      List.mem_append, List.mem_singleton, or_comm]
  size_eq := by
    have hfresh : ¬ entry.word ∈ claims.claimed := by
      rw [← Std.HashSet.contains_iff_mem, h.contains_iff]
      exact hentry
    rw [Std.HashSet.size_insert, if_neg hfresh, h.size_eq, List.length_append,
      List.length_singleton]

end Claims.Are

/-! ### Tables in order -/

namespace Chains

variable {p : Plan} {m : Catalog} {a a' : Chains} {f : FileMap} {size n : Nat}

/-- There is one free chain in tables that are in order. -/
theorem Whole.free_eq (h : a.Whole p m) (h' : a'.Whole p m) (fits : p.Usable size) :
    a.free = a'.free :=
  ((whole_iff fits.files_lt).mp h).1.free_eq ((whole_iff fits.files_lt).mp h').1 fits.toSpans

/-- The entries of a file are not among those of the files before it. -/
theorem Apart.not_mem_upTo {entries : Nat} (h : a.Apart entries) {n : Nat} (hn : n < 4294967296)
    {entry : Link} (hentry : entry ∈ a.file (UInt32.ofNat n)) : entry ∉ a.upTo n := by
  intro hmem
  rcases List.mem_append.mp hmem with hfree | hfile
  · exact h.free_file _ entry hfree hentry
  · obtain ⟨i, hi, hfile⟩ := List.mem_flatMap.mp hfile
    rw [List.mem_range] at hi
    refine h.file_file _ _ ?_ entry hfile hentry
    intro heq
    have hnat := congrArg UInt32.toNat heq
    rw [UInt32.toNat_ofNat_of_lt' (show i < 4294967296 by omega),
      UInt32.toNat_ofNat_of_lt' hn] at hnat
    omega

/-- Chains that are apart have no entry twice. -/
theorem Apart.nodup_upTo {entries : Nat} (h : a.Apart entries) (hn : n ≤ 4294967296) :
    (a.upTo n).Nodup := by
  induction n with
  | zero =>
    rw [show a.upTo 0 = a.free by simp [upTo]]
    exact h.free_nodup
  | succ n ih =>
    rw [upTo_succ, List.nodup_append]
    refine ⟨ih (by omega), h.file_nodup _, ?_⟩
    rintro entry hold _ hnew rfl
    exact h.not_mem_upTo (by omega) hnew hold

/-- The entries of chains that are apart have data blocks. -/
theorem Apart.lt_of_mem_upTo {entries : Nat} (h : a.Apart entries) {entry : Link}
    (hentry : entry ∈ a.upTo n) : entry.word.toNat < entries := by
  rcases List.mem_append.mp hentry with hfree | hfile
  · exact h.free_lt entry hfree
  · obtain ⟨i, -, hfile⟩ := List.mem_flatMap.mp hfile
    exact h.file_lt _ entry hfile

/-- The files that the chains hold have the blocks that the records
tell. -/
theorem usedBelow_files (a : Chains) (hsound : Sound p m a) (n : Nat) :
    (a.files p m).usedBelow n = m.usedBelow n := by
  induction n with
  | zero => rfl
  | succ n ih =>
    rw [FileMap.usedBelow_succ, Catalog.usedBelow_succ, ih, a.length_files hsound]

end Chains

namespace Matches

variable {p : Plan} {m : Catalog} {a : Chains} {f : FileMap} {size : Nat}

/-- A map counts the blocks that the records tell. -/
theorem usedBelow_eq (hf : Matches p m a f) (hsound : Sound p m a) (n : Nat) :
    f.usedBelow n = m.usedBelow n := by
  rw [hf.eq_files, a.usedBelow_files hsound]

/-- A map uses the blocks that the records of its files tell. -/
theorem used_eq (hf : Matches p m a f) (fits : p.Usable size) (hsound : Sound p m a) :
    f.used = m.usedBelow (64 * p.recordBlocks.toNat) := by
  rw [FileMap.used, hf.usedBelow_eq hsound, hf.count_eq, Plan.files_toNat fits.files_lt]

/-- The tables of a volume that matches a map are in order. -/
theorem whole_chains (hf : Matches p m a f) (fits : p.Usable size) (hsound : Sound p m a) :
    a.Whole p m := by
  have hfiles := fits.files_lt
  -- Sound chains that end are in order, for as many files as there are.
  have htidy : a.Tidy p m (64 * p.recordBlocks.toNat) := by
    refine ⟨hsound.free_path, fun i _ => hf.ended _ ▸ hsound.file_path _,
      fun i _ => hsound.length_eq _, hsound.apart.nodup_upTo (by omega),
      fun entry hentry => hsound.apart.lt_of_mem_upTo hentry, fun entry hentry => ?_⟩
    exact Nat.lt_of_lt_of_le (hsound.apart.lt_of_mem_upTo hentry) fits.entries_le
  refine (Chains.whole_iff hfiles).mpr ⟨htidy, ?_⟩
  rw [htidy.length_upTo, ← hf.used_eq fits hsound, ← hf.free_eq]
  exact hf.whole

end Matches

/-! ### One step of the count -/

/-- A chain from an entry that can be claimed after others: it comes to
an end, has no entry twice and none of the others, and all its entries
have data blocks and links. -/
structure Claimable (p : Plan) (links : Link → Link) (done : List Link) (entry : Link)
    (chain : List Link) : Prop where
  path : Path links entry chain Link.endMark
  nodup : (done ++ chain).Nodup
  hasBlock : ∀ e ∈ chain, e.word.toNat < p.entries.toNat
  hasEntry : ∀ e ∈ chain, p.HasEntry e

namespace Claimable

variable {p : Plan} {links : Link → Link} {done chain : List Link} {entry : Link}

/-- A chain from an entry that is not the end mark starts with the
entry. -/
theorem exists_cons (h : Claimable p links done entry chain) (hentry : entry.isEnd = false) :
    ∃ rest, chain = entry :: rest ∧ Claimable p links (done ++ [entry]) (links entry) rest := by
  cases chain with
  | nil =>
    have hend : entry.isEnd = true := Link.isEnd_iff.mpr h.path
    rw [hentry] at hend
    cases hend
  | cons first rest =>
    obtain ⟨rfl, hrest⟩ := h.path
    refine ⟨rest, rfl, hrest, ?_, fun e he => h.hasBlock e (List.mem_cons_of_mem _ he),
      fun e he => h.hasEntry e (List.mem_cons_of_mem _ he)⟩
    rw [List.append_assoc]
    exact h.nodup

/-- What an entry is from which a chain can be claimed: it has a data
block, it was not claimed before, and it has a link. -/
theorem head (h : Claimable p links done entry chain) (hentry : entry.isEnd = false) :
    entry.word.toNat < p.entries.toNat ∧ entry ∉ done ∧ p.HasEntry entry := by
  obtain ⟨rest, rfl, -⟩ := h.exists_cons hentry
  have hmem : entry ∈ entry :: rest := List.mem_cons_self
  exact ⟨h.hasBlock entry hmem,
    fun hdone => (List.nodup_append.mp h.nodup).2.2 entry hdone entry hmem rfl,
    h.hasEntry entry hmem⟩

/-- An entry in front of a chain. -/
theorem cons (h : Claimable p links (done ++ [entry]) (links entry) chain)
    (hblock : entry.word.toNat < p.entries.toNat) (hentry : p.HasEntry entry) :
    Claimable p links done entry (entry :: chain) := by
  refine ⟨⟨rfl, h.path⟩, ?_, List.forall_mem_cons.mpr ⟨hblock, h.hasBlock⟩,
    List.forall_mem_cons.mpr ⟨hentry, h.hasEntry⟩⟩
  rw [List.append_cons]
  exact h.nodup

/-- There is at most one chain from an entry that can be claimed. -/
theorem unique {other : List Link} {size : Nat} (h : Claimable p links done entry chain)
    (h' : Claimable p links done entry other) (spans : p.Spans size) : chain = other := by
  have hend : ¬ p.HasEntry Link.endMark := fun hentry => by
    cases (spans.isEnd_eq_false hentry).symm.trans (Link.isEnd_iff.mpr rfl)
  exact h.path.unique h'.path (fun hmem => hend (h.hasEntry _ hmem))
    fun hmem => hend (h'.hasEntry _ hmem)

/-- The free chain is in order when it can be claimed first. -/
theorem free_iff {m : Catalog} {a : Chains} :
    Claimable p m.link [] m.superblock.freeHead a.free ↔ a.Tidy p m 0 := by
  have hupTo : a.upTo 0 = a.free := by simp [Chains.upTo]
  constructor
  · intro h
    exact ⟨h.path, fun i hi => (Nat.not_lt_zero i hi).elim, fun i hi => (Nat.not_lt_zero i hi).elim,
      hupTo ▸ h.nodup, hupTo ▸ h.hasBlock, hupTo ▸ h.hasEntry⟩
  · intro h
    exact ⟨h.free_path, hupTo ▸ h.nodup, hupTo ▸ h.hasBlock, hupTo ▸ h.hasEntry⟩

/-- Where the chains of one more file are in order, its chain can be
claimed after the others. -/
theorem of_tidy {m : Catalog} {a a' : Chains} {n size : Nat} (h : a.Tidy p m n)
    (h' : a'.Tidy p m (n + 1)) (spans : p.Spans size) :
    Claimable p m.link (a.upTo n) (m.record (UInt32.ofNat n)).head (a'.file (UInt32.ofNat n)) := by
  have hupTo : a'.upTo (n + 1) = a.upTo n ++ a'.file (UInt32.ofNat n) := by
    rw [Chains.upTo_succ, h.upTo_eq (h'.mono (Nat.le_succ n)) spans]
  refine ⟨h'.file_path n (Nat.lt_succ_self n), hupTo ▸ h'.nodup, fun e he => ?_, fun e he => ?_⟩
  · exact h'.hasBlock e (hupTo ▸ List.mem_append_right _ he)
  · exact h'.hasEntry e (hupTo ▸ List.mem_append_right _ he)

end Claimable

namespace Volume

variable {σ : Type} [Journal σ] {below : Store σ} {v : Volume} {p : Plan} {size : Nat}
  {blame : Fault → σ → Prop} {holds : σ → (Nat → Block) → Prop} {image : Nat → Block}
  {a : Chains} {f : FileMap} {c : Cursor} {medium : UInt32} {s : σ} {links : Link → Link}

/-- What a count that stops leaves: the image as it was, and a fault of
the store below or, where a contradiction was met, a fault that says
so. -/
def Condemned (blame : Fault → σ → Prop) (holds : σ → (Nat → Block) → Prop) (image : Nat → Block)
    (contradiction : Prop) (fault : Fault) (s : σ) : Prop :=
  holds s image ∧ (blame fault s ∨ (∃ damage, fault = .corrupted damage) ∧ contradiction)

/-- Following a chain claims it, or shows that there is no chain that
could be claimed. -/
theorem followClaiming_ends (hL : Legible below medium size blame holds) (spans : p.Spans size)
    {done : List Link} {entry : Link} {claims : Claims} {unclaimed count : Nat} {c : Cursor} {s : σ}
    (hclaims : claims.Are p.entries.toNat done) (hnodup : done.Nodup)
    (hblock : ∀ e ∈ done, e.word.toNat < p.entries.toNat)
    (hroom : p.entries.toNat ≤ done.length + unclaimed)
    (hreads : Cursor.Reads medium p holds image links (c, s)) :
    Op.Ends (followClaiming below unclaimed entry claims count) (c, s)
      (fun result after => ∃ chain, Claimable p links done entry chain ∧
        result.1 = count + chain.length ∧ result.2.Are p.entries.toNat (done ++ chain) ∧
        Cursor.Reads medium p holds image links after)
      (fun fault after =>
        Condemned blame holds image (∀ chain, ¬ Claimable p links done entry chain) fault
          after.2) := by
  unfold followClaiming
  dsimp only
  by_cases hend : entry.isEnd = true
  · rw [if_pos hend]
    refine Op.Ends.pure ⟨[], ⟨Link.isEnd_iff.mp hend, ?_, by simp, by simp⟩, rfl, ?_, hreads⟩
    · rw [List.append_nil]
      exact hnodup
    · rw [List.append_nil]
      exact hclaims
  have hgoes : entry.isEnd = false := Bool.eq_false_iff.mpr hend
  rw [if_neg hend]
  -- An entry without a data block, or one that was claimed, is on no chain to claim.
  refine Op.Ends.guard (fun hbeyond => ?_) fun hbelow => ?_
  · rw [hclaims.total_eq] at hbeyond
    exact ⟨hreads.2, .inr ⟨⟨_, rfl⟩, fun chain hchain =>
      Nat.not_lt.mpr hbeyond (hchain.head hgoes).1⟩⟩
  rw [hclaims.total_eq, Nat.not_le] at hbelow
  by_cases hseen : claims.claimed.contains entry.word = true
  · rw [if_pos hseen]
    exact Op.Ends.note_seq (Op.Ends.fail ⟨hL.note _ hreads.2, .inr ⟨⟨_, rfl⟩, fun chain hchain =>
      (hchain.head hgoes).2.1 ((hclaims.contains_iff entry).mp hseen)⟩⟩)
  rw [if_neg hseen]
  have hnew : entry ∉ done := fun hmem => hseen ((hclaims.contains_iff entry).mpr hmem)
  have hnodup' : (done ++ [entry]).Nodup := by
    rw [List.nodup_append]
    exact ⟨hnodup, by simp, fun e he e' he' heq =>
      hnew (by rw [← List.mem_singleton.mp he', ← heq]; exact he)⟩
  have hblock' : ∀ e ∈ done ++ [entry], e.word.toNat < p.entries.toNat := by
    intro e he
    rcases List.mem_append.mp he with he | he
    · exact hblock e he
    · rw [List.mem_singleton.mp he]
      exact hbelow
  -- The entries that were claimed are distinct, so there is one left to claim.
  have hcount := Plan.length_le hnodup' hblock'
  rw [List.length_append, List.length_singleton] at hcount
  cases unclaimed with
  | zero => omega
  | succ left =>
    dsimp only
    by_cases hentry : p.HasEntry entry
    · refine (Cursor.next_ends (spans.tables hL) spans hreads hentry).bind
        (fun _ _ hbad => ⟨hbad.1, .inl hbad.2⟩) ?_
      rintro after ⟨c₁, s₁⟩ ⟨rfl, hreads₁⟩
      have hroom' : p.entries.toNat ≤ (done ++ [entry]).length + left := by
        rw [List.length_append, List.length_singleton]
        omega
      refine (followClaiming_ends hL spans (hclaims.insert hnew) hnodup' hblock' hroom'
        hreads₁).mono ?_ ?_
      · rintro result final ⟨chain, hchain, hcount, hclaims', hfinal⟩
        refine ⟨entry :: chain, hchain.cons hbelow hentry, ?_, ?_, hfinal⟩
        · rw [hcount, List.length_cons]
          omega
        · rw [List.append_cons]
          exact hclaims'
      · rintro fault final ⟨hkept, hblame | ⟨hdamage, hno⟩⟩
        · exact ⟨hkept, .inl hblame⟩
        · refine ⟨hkept, .inr ⟨hdamage, fun chain hchain => ?_⟩⟩
          obtain ⟨rest, -, hrest⟩ := hchain.exists_cons hgoes
          exact hno rest hrest
    · -- The table has no link for the entry, which is therefore on no chain that ends.
      refine (Cursor.next_refused (spans.tables hL) hreads hentry).bind ?_ fun _ _ hno => hno.elim
      rintro fault after ⟨rfl, hkept⟩
      exact ⟨hkept, .inr ⟨⟨_, rfl⟩, fun chain hchain => hentry (hchain.head hgoes).2.2⟩⟩
termination_by unclaimed

/-- Chains in order, and the entries on them claimed. -/
structure Counted (p : Plan) (m : Catalog) (a : Chains) (n : Nat) (claims : Claims) : Prop where
  tidy : a.Tidy p m n
  claimed : claims.Are p.entries.toNat (a.upTo n)

/-- The chain of the next file is claimed, or there is none that could
be. -/
theorem claimChain_ends (hL : Legible below medium size blame holds) (spans : p.Spans size)
    {done : List Link} {head : Link} {claims : Claims}
    (hclaims : claims.Are p.entries.toNat done) (hnodup : done.Nodup)
    (hblock : ∀ e ∈ done, e.word.toNat < p.entries.toNat)
    (hreads : Cursor.Reads medium p holds image links (c, s)) :
    Op.Ends (claimChain below head claims) (c, s)
      (fun result after => ∃ chain, Claimable p links done head chain ∧
        result.1 = chain.length ∧ result.2.Are p.entries.toNat (done ++ chain) ∧
        Cursor.Reads medium p holds image links after)
      (fun fault after =>
        Condemned blame holds image (∀ chain, ¬ Claimable p links done head chain) fault
          after.2) := by
  have hroom : p.entries.toNat ≤ done.length + (claims.total - claims.claimed.size) := by
    have hcount := Plan.length_le hnodup hblock
    rw [hclaims.total_eq, hclaims.size_eq]
    omega
  refine (followClaiming_ends hL spans hclaims hnodup hblock hroom hreads).mono ?_
    fun _ _ hbad => hbad
  rintro result after ⟨chain, hchain, hcount, hrest⟩
  exact ⟨chain, hchain, by rw [hcount, Nat.zero_add], hrest⟩

/-- The number of the file at place `j` of block `b` is worked out for a
report, and is a word. -/
theorem exists_numbers {number : UInt32} {b j : Nat} (hnumber : number.toNat = 1 + b)
    (hlt : 64 * b + j < 4294967296) :
    ∃ first ino, Checked.mul (number - 1) 64 = .ok first ∧
      Checked.add first (UInt32.ofNat j) = .ok ino := by
  have hone : (1 : UInt32) ≤ number := by
    rw [UInt32.le_iff_toNat_le, UInt32.toNat_one]
    omega
  have hbefore : (number - 1).toNat = b := by
    rw [UInt32.toNat_sub_of_le _ _ hone, hnumber, UInt32.toNat_one]
    omega
  have hfirst : ((number - 1) * 64).toNat = 64 * b := by
    rw [UInt32.toNat_mul, hbefore, show (64 : UInt32).toNat = 64 from rfl]
    omega
  have hplace : (UInt32.ofNat j).toNat = j :=
    UInt32.toNat_ofNat_of_lt' (show j < 4294967296 by omega)
  obtain ⟨ino, hino, -⟩ := Checked.exists_add
    (show ((number - 1) * 64).toNat + (UInt32.ofNat j).toNat < 4294967296 by omega)
  refine ⟨_, ino, Checked.mul_eq_ok_iff.mpr ?_, hino⟩
  rw [hbefore, hfirst, Nat.mul_comm]
  rfl

/-- The records of a block are counted, here from place `j` of block `b`
on. -/
theorem claimRecords_ends (hL : Legible below medium size blame holds) (spans : p.Spans size)
    (hfiles : 64 * p.recordBlocks.toNat < 4294967296) {b : Nat} (hb : b < p.recordBlocks.toNat)
    {number : UInt32} (hnumber : number.toNat = 1 + b) {j : Nat} (hj : j ≤ 64)
    {places : List (Fin 64)} (hplaces : places = (List.finRange 64).drop j) {claims : Claims}
    {used : Nat} (hcounted : Counted p (p.catalog image) a (64 * b + j) claims)
    (hused : used = (p.catalog image).usedBelow (64 * b + j))
    (hreads : Cursor.Reads medium p holds image (p.catalog image).link (c, s)) :
    Op.Ends (claimRecords below number (image (1 + b)) places claims used) (c, s)
      (fun result after => (∃ a', Counted p (p.catalog image) a' (64 * (b + 1)) result.2) ∧
        result.1 = (p.catalog image).usedBelow (64 * (b + 1)) ∧
        Cursor.Reads medium p holds image (p.catalog image).link after)
      (fun fault after => Condemned blame holds image
        (∀ a : Chains, ¬ a.Tidy p (p.catalog image) (64 * p.recordBlocks.toNat)) fault
          after.2) := by
  induction places generalizing j claims used a c s with
  | nil =>
    have hlast := congrArg List.length hplaces
    rw [List.length_drop, List.length_finRange, List.length_nil] at hlast
    obtain rfl : j = 64 := by omega
    exact Op.Ends.pure ⟨⟨a, hcounted⟩, hused, hreads⟩
  | cons place rest ih =>
    have hlt : j < 64 := by
      have hlength := congrArg List.length hplaces
      rw [List.length_drop, List.length_finRange, List.length_cons] at hlength
      omega
    rw [List.drop_eq_getElem_cons (by rw [List.length_finRange]; exact hlt), List.cons.injEq,
      List.getElem_finRange] at hplaces
    obtain ⟨hplace, hrest⟩ := hplaces
    obtain rfl : place = ⟨j, hlt⟩ := hplace
    have hrecord := recordAt_catalog hfiles image hb ⟨j, hlt⟩
    dsimp only at hrecord
    -- Where all chains are in order, this file has a chain that can be claimed.
    have hclaimable : ∀ {a' : Chains}, a'.Tidy p (p.catalog image) (64 * p.recordBlocks.toNat) →
        Claimable p (p.catalog image).link (a.upTo (64 * b + j))
          ((p.catalog image).record (UInt32.ofNat (64 * b + j))).head
          (a'.file (UInt32.ofNat (64 * b + j))) :=
      fun h' => .of_tidy hcounted.tidy (h'.mono (by omega)) spans
    unfold claimRecords
    refine (claimChain_ends hL spans hcounted.claimed hcounted.tidy.nodup hcounted.tidy.hasBlock
      hreads).bind ?_ ?_
    · rintro fault after ⟨hkept, hblame | ⟨hdamage, hno⟩⟩
      · exact ⟨hkept, .inl hblame⟩
      · rw [hrecord] at hno
        exact ⟨hkept, .inr ⟨hdamage, fun a' h' => hno _ (hclaimable h')⟩⟩
    rintro ⟨count, claims'⟩ ⟨c₁, s₁⟩ ⟨chain, hchain, hcount, hclaims', hreads₁⟩
    rw [hrecord] at hchain ⊢
    dsimp only at hcount ⊢
    split
    · rename_i hdiffers
      have hcondemned : ∀ a' : Chains,
          ¬ a'.Tidy p (p.catalog image) (64 * p.recordBlocks.toNat) := by
        intro a' h'
        refine hdiffers ?_
        rw [hcount, hchain.unique (hclaimable h') spans]
        exact h'.length_eq (64 * b + j) (by omega)
      refine Op.Ends.keeps_seq ?_
      split
      · obtain ⟨first, ino, hfirst, hino⟩ := exists_numbers hnumber
          (show 64 * b + j < 4294967296 by omega)
        exact Op.Ends.lift_seq hfirst (Op.Ends.lift_seq hino (Op.Ends.note_seq
          (Op.Ends.fail_seq ⟨hL.note _ hreads₁.2, .inr ⟨⟨_, rfl⟩, hcondemned⟩⟩)))
      · exact Op.Ends.fail_seq ⟨hreads₁.2, .inr ⟨⟨_, rfl⟩, hcondemned⟩⟩
    · rename_i hsame
      rw [not_not, hcount] at hsame
      -- The chain that was claimed is the chain of the file, and all are in order so far.
      obtain ⟨a', htidy', hupTo⟩ := hcounted.tidy.extend (by omega) hchain.path hsame hchain.nodup
        hchain.hasBlock hchain.hasEntry
      refine ih (show j + 1 ≤ 64 from hlt) hrest ⟨htidy', ?_⟩ ?_ hreads₁
      · rw [← Nat.add_assoc, hupTo]
        exact hclaims'
      · rw [← Nat.add_assoc, Catalog.usedBelow_succ, hused, hcount, hsame]

/-- The records of all files are counted, here from block `b` on. -/
theorem claimFiles_ends (hL : Legible below v.medium size blame holds) (spans : p.Spans size)
    (hfiles : 64 * p.recordBlocks.toNat < 4294967296) {left b : Nat}
    (hleft : b + left = p.recordBlocks.toNat) {number : UInt32} (hnumber : number.toNat = 1 + b)
    {claims : Claims} {used : Nat} (hcounted : Counted p (p.catalog image) a (64 * b) claims)
    (hused : used = (p.catalog image).usedBelow (64 * b))
    (hreads : Cursor.Reads v.medium p holds image (p.catalog image).link (c, s)) :
    Op.Ends (v.claimFiles below left number claims used) (c, s)
      (fun result after =>
        (∃ a' : Chains, a'.Tidy p (p.catalog image) (64 * p.recordBlocks.toNat)) ∧
        result.1 = (p.catalog image).usedBelow (64 * p.recordBlocks.toNat) ∧
        holds after.2 image)
      (fun fault after => Condemned blame holds image
        (∀ a : Chains, ¬ a.Tidy p (p.catalog image) (64 * p.recordBlocks.toNat)) fault
          after.2) := by
  have hsize := spans.size_eq
  have hlt := spans.size_lt
  unfold Plan.dataFrom Plan.linksFrom at hsize
  -- By induction on the blocks of records that are left, with the chains so far.
  induction left generalizing b number claims used a c s with
  | zero =>
    obtain rfl : b = p.recordBlocks.toNat := hleft
    exact Op.Ends.pure ⟨⟨a, hcounted.tidy⟩, hused, hreads.2⟩
  | succ left ih =>
    refine Op.Ends.lower_seq (hL.read hreads.2 (show number.toNat < size by omega))
      (fun _ _ hbad => ⟨hbad.1, .inl hbad.2⟩) ?_
    rintro _ s₁ ⟨rfl, hs₁⟩
    have hreads₁ : Cursor.Reads v.medium p holds image (p.catalog image).link (c, s₁) :=
      ⟨hreads.1, hs₁⟩
    have hcounted₀ : Counted p (p.catalog image) a (64 * b + 0) claims := hcounted
    rw [show image number.toNat = image (1 + b) by rw [hnumber]]
    refine (claimRecords_ends hL spans hfiles (show b < p.recordBlocks.toNat by omega) hnumber
      (Nat.zero_le 64) rfl hcounted₀ hused hreads₁).seq ?_
    rintro ⟨used', claims'⟩ ⟨c₂, s₂⟩ ⟨⟨a', hcounted'⟩, hused', hreads₂⟩
    have hnext : (number + 1).toNat = 1 + (b + 1) := by
      rw [Checked.toNat_succ (by omega)]
      omega
    exact ih (by omega) hnext hcounted' hused' hreads₂

/-- All entries are counted, and the tables are in order, or they cannot
be. -/
theorem countEntries_ends (hL : Legible below v.medium size blame holds) (spans : p.Spans size)
    (hfiles : 64 * p.recordBlocks.toNat < 4294967296)
    (hrecords : (p.catalog image).superblock.recordBlocks = p.recordBlocks)
    (hreads : Cursor.Reads v.medium p holds image (p.catalog image).link (c, s)) :
    Op.Ends (v.countEntries below (p.catalog image).superblock p.entries) (c, s)
      (fun value after => (∃ a : Chains, a.Whole p (p.catalog image) ∧
          value = ⟨p.entries, UInt32.ofNat a.free.length, UInt32.ofNat
            ((p.catalog image).usedBelow (64 * p.recordBlocks.toNat))⟩) ∧
        holds after.2 image)
      (fun fault after => Condemned blame holds image
        (∀ a : Chains, ¬ a.Whole p (p.catalog image)) fault after.2) := by
  have hwhole : ∀ a : Chains, a.Whole p (p.catalog image) →
      a.Tidy p (p.catalog image) (64 * p.recordBlocks.toNat) :=
    fun a h => ((Chains.whole_iff hfiles).mp h).1
  unfold countEntries
  refine (claimChain_ends hL spans (Claims.Are.empty _) List.nodup_nil (by simp) hreads).bind ?_ ?_
  · rintro fault after ⟨hkept, hblame | ⟨hdamage, hno⟩⟩
    · exact ⟨hkept, .inl hblame⟩
    · exact ⟨hkept, .inr ⟨hdamage, fun a h =>
        hno a.free (Claimable.free_iff.mpr ((hwhole a h).mono (Nat.zero_le _)))⟩⟩
  rintro ⟨free, claims⟩ ⟨c₁, s₁⟩ ⟨chain, hchain, hfree, hclaims, hreads₁⟩
  -- With the free chain alone no file is counted yet.
  have hstart : Counted p (p.catalog image) ⟨chain, fun _ => [], fun _ => Link.endMark⟩ (64 * 0)
      claims := by
    refine ⟨Claimable.free_iff.mp hchain, ?_⟩
    rw [show (⟨chain, fun _ => [], fun _ => Link.endMark⟩ : Chains).upTo (64 * 0) = [] ++ chain by
      simp [Chains.upTo]]
    exact hclaims
  rw [hrecords]
  refine (claimFiles_ends hL spans hfiles (Nat.zero_add _) rfl hstart rfl hreads₁).bind ?_ ?_
  · rintro fault after ⟨hkept, hblame | ⟨hdamage, hno⟩⟩
    · exact ⟨hkept, .inl hblame⟩
    · exact ⟨hkept, .inr ⟨hdamage, fun a h => hno a (hwhole a h)⟩⟩
  rintro ⟨used, claims'⟩ ⟨c₂, s₂⟩ ⟨⟨a, htidy⟩, hused, hs₂⟩
  dsimp only at hfree hused ⊢
  -- The free chain that was claimed is that of any way to see the chains in order.
  have hsame : ∀ {a' : Chains}, a'.Tidy p (p.catalog image) (64 * p.recordBlocks.toNat) →
      a'.free.length = free := by
    intro a' h'
    rw [hfree, ← hstart.tidy.free_eq h' spans]
  split
  · rename_i hleft
    refine Op.Ends.note_seq (Op.Ends.fail_seq ⟨hL.note _ hs₂, .inr ⟨⟨_, rfl⟩, fun a' h' => ?_⟩⟩)
    obtain ⟨htidy', hlength⟩ := (Chains.whole_iff hfiles).mp h'
    rw [htidy'.length_upTo, hsame htidy', ← hused] at hlength
    exact hleft hlength
  · rename_i hleft
    refine Op.Ends.pure ⟨⟨a, (Chains.whole_iff hfiles).mpr ⟨htidy, ?_⟩, ?_⟩, hs₂⟩
    · rw [htidy.length_upTo, hsame htidy, ← hused]
      exact not_not.mp hleft
    · rw [hsame htidy, hused]

/-- The count of the entries ends with numbers where the tables are in
order, and shows that they are not where it does not. -/
theorem occupancy_checks (hL : Legible below v.medium size blame holds) (spans : p.Spans size)
    (hfiles : 64 * p.recordBlocks.toNat < 4294967296)
    (hrecords : (p.catalog image).superblock.recordBlocks = p.recordBlocks)
    (htable : (p.catalog image).superblock.tableBlocks = p.tableBlocks) (hs : holds s image) :
    Op.Ends (v.occupancy below) s
      (fun value after => (∃ a : Chains, a.Whole p (p.catalog image) ∧
          value = ⟨p.entries, UInt32.ofNat a.free.length, UInt32.ofNat
            ((p.catalog image).usedBelow (64 * p.recordBlocks.toNat))⟩) ∧
        holds after image)
      (Condemned blame holds image (∀ a : Chains, ¬ a.Whole p (p.catalog image))) := by
  have hsize := spans.size_eq
  have hblame : ∀ fault after, holds after image ∧ blame fault after →
      Condemned blame holds image (∀ a : Chains, ¬ a.Whole p (p.catalog image)) fault after :=
    fun _ _ hbad => ⟨hbad.1, .inl hbad.2⟩
  refine (superblock_ends (spans.tables hL) spans hrecords hs).bind hblame ?_
  rintro _ s₁ ⟨rfl, hs₁⟩
  refine (hL.size hs₁).bind hblame ?_
  rintro blocks s₂ ⟨hblocks, hs₂⟩
  obtain ⟨start, hstart, hstartNat⟩ := Plan.exists_dataStart spans.dataFrom_lt hrecords htable
  obtain ⟨c, hopen, hshows⟩ := Cursor.open_shows spans hrecords htable
  refine Op.Ends.lift_seq hstart (Op.Ends.guard (fun hshort => ?_) fun _ => ?_)
  · rw [UInt32.lt_iff_toNat_lt] at hshort
    omega
  -- What is behind the tables is as long as there are entries in the plan.
  have htotal : blocks - start = p.entries := by
    rw [← UInt32.toNat_inj, UInt32.toNat_sub_of_le _ _ (UInt32.le_iff_toNat_le.mpr (by omega))]
    omega
  rw [htotal]
  refine Op.Ends.lift_seq hopen (Op.Ends.withOwn_seq (countEntries_ends hL spans hfiles hrecords
    ⟨hshows, hs₂⟩) (fun _ _ hbad => hbad) ?_)
  rintro counted after h
  exact Op.Ends.pure h

/-- The count of a volume that matches a map ends with the numbers of the
map. -/
theorem occupancy_ends (hM : Medium below v.medium size blame holds) (fits : p.Usable size)
    {m : Catalog} (hsound : Sound p m a) (hf : Matches p m a f) (hs : Keeps p holds m s) :
    Op.Ends (v.occupancy below) s
      (fun value after =>
        value = ⟨f.total, UInt32.ofNat f.free, UInt32.ofNat f.used⟩ ∧ Keeps p holds m after)
      (fun fault after => Keeps p holds m after ∧ blame fault after) := by
  obtain ⟨image, hs, rfl⟩ := hs
  have hwhole := hf.whole_chains fits hsound
  refine (occupancy_checks hM.toLegible fits.toSpans fits.files_lt hsound.recordBlocks_eq
    hsound.tableBlocks_eq hs).mono ?_ ?_
  · rintro value after ⟨⟨a', hwhole', rfl⟩, hkept⟩
    refine ⟨?_, image, hkept, rfl⟩
    -- Any chains in order have this free chain, so the numbers are those of the map.
    rw [hf.total_eq, hf.free_eq, hwhole'.free_eq hwhole fits, hf.used_eq fits hsound]
  · rintro fault after ⟨hkept, hblame | ⟨-, hno⟩⟩
    · exact ⟨⟨image, hkept, rfl⟩, hblame⟩
    · exact (hno a hwhole).elim

/-! ### A count changes nothing -/

section Preserves

/-- A condition that is kept by requests which are no change, and by
reports. -/
structure Outlasts (below : Store σ) (kept : σ → Prop) : Prop where
  look : ∀ q : Request, q.changes = false → Op.Preserves (below q) kept
  note : ∀ (event : Event) (s : σ), kept s → kept (Journal.enter event s)

variable {kept : σ → Prop}

/-- A link is read, and nothing is changed for it. -/
theorem next_preserves (h : Outlasts below kept) (entry : Link) :
    Op.Preserves (Cursor.next below entry) fun s => kept s.2 := by
  refine .bind (.bind .own fun cursor => ?_) fun _ => .bind (.bind .own fun cursor => ?_)
    fun _ => .pure
  · dsimp only
    split
    · exact .bind (.note fun s => h.note _ s.2) fun _ => .fail
    · exact .pure
  · split
    · exact .pure
    · exact .bind .lift fun at_ => .bind (.lower (h.look _ rfl)) fun _ =>
        .bind .modifyOwn fun _ => .pure

/-- The count of one chain changes nothing below. -/
theorem followClaiming_preserves (h : Outlasts below kept) (unclaimed : Nat) (entry : Link)
    (claims : Claims) (count : Nat) :
    Op.Preserves (followClaiming below unclaimed entry claims count) fun s => kept s.2 := by
  have hagain : ∀ again : Link,
      Op.Preserves (followClaiming.claimedAgain (σ := σ) again) fun s => kept s.2 :=
    fun again => .bind (.note fun s => h.note _ s.2) fun _ => .fail
  -- The number of entries that are left is what the chain is followed by.
  induction unclaimed generalizing entry claims count with
  | zero =>
    unfold followClaiming
    dsimp only
    split
    · exact .pure
    refine .guard ?_
    split <;> exact hagain entry
  | succ left ih =>
    unfold followClaiming
    dsimp only
    split
    · exact .pure
    refine .guard ?_
    split
    · exact hagain entry
    · exact .bind (next_preserves h entry) fun after => ih after _ _

/-- The count of a block of records changes nothing below. -/
theorem claimRecords_preserves (h : Outlasts below kept) (number : UInt32) (block : Block)
    (places : List (Fin 64)) (claims : Claims) (used : Nat) :
    Op.Preserves (claimRecords below number block places claims used) fun s => kept s.2 := by
  induction places generalizing claims used with
  | nil => exact .pure
  | cons place rest ih =>
    refine .bind (followClaiming_preserves h _ _ _ _) fun counted => ?_
    dsimp only
    split
    · refine .bind .keeps fun reported => ?_
      split
      · exact .bind .lift fun _ => .bind .lift fun _ =>
          .bind (.note fun s => h.note _ s.2) fun _ => .bind .fail fun _ => ih _ _
      · exact .bind .fail fun _ => ih _ _
    · exact ih _ _

/-- The count of all files changes nothing below. -/
theorem claimFiles_preserves (h : Outlasts below kept) (left : Nat) (number : UInt32)
    (claims : Claims) (used : Nat) :
    Op.Preserves (v.claimFiles below left number claims used) fun s => kept s.2 := by
  induction left generalizing number claims used with
  | zero => exact .pure
  | succ left ih =>
    exact .bind (.lower (h.look _ rfl)) fun block =>
      .bind (claimRecords_preserves h _ _ _ _ _) fun _ => ih _ _ _

/-- A count keeps what the requests keep that are no change, whatever
becomes of it. -/
theorem occupancy_preserves (h : Outlasts below kept) : Op.Preserves (v.occupancy below) kept := by
  have hsuperblock : Op.Preserves (v.superblock below) kept := by
    refine .bind (h.look _ rfl) fun block => ?_
    dsimp only
    split
    · exact .pure
    · exact .fail
  refine .bind hsuperblock fun sb => .bind (h.look _ rfl) fun blocks => .bind .lift fun start =>
    .guard (.bind .lift fun cursor => .bind (.withOwn ?_) fun _ => .pure)
  refine .bind (followClaiming_preserves h _ _ _ _) fun _ =>
    .bind (claimFiles_preserves h _ _ _ _) fun _ => ?_
  dsimp only
  split
  · exact .bind (.note fun s => h.note _ s.2) fun _ => .bind .fail fun _ => .pure
  · exact .pure

end Preserves

end Volume

end BlockLayers.Fat
