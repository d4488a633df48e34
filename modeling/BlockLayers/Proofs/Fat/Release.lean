import BlockLayers.Proofs.Fat.Growth

/-!
# `BlockLayers.Proofs.Fat.Release`: a file gives its blocks back

A release turns the chain of a file around, so that it leads to the free
chain, and then writes the empty record, the table and the superblock.
The entries are on no chain from the first of these writes to the last,
so a release that is interrupted leaves sound chains, and the other
files with the entries that they had.

Main statement: `free_ends`.
-/

set_option autoImplicit false

namespace BlockLayers.Fat

/-- The chains after a file has given all its entries back. -/
def Chains.released (a : Chains) (ino : UInt32) : Chains :=
  { a.setFile ino [] Link.endMark with free := (a.file ino).reverse ++ a.free }

/-- The entries of a file are on no chain when the file has none. -/
theorem Chains.Apart.not_owned_file {a : Chains} {entries : Nat} (h : a.Apart entries)
    {ino : UInt32} {entry : Link} (hentry : entry ∈ a.file ino) (rest : Link) :
    ¬ (a.setFile ino [] rest).Owned entry := by
  intro howned
  -- The entries of a file are not free, and no other file has them.
  rcases howned with hfree | ⟨other, hfile⟩
  · exact h.free_file ino entry hfree hentry
  · by_cases hother : other = ino
    · rw [hother, file_setFile_self] at hfile
      cases hfile
    · rw [file_setFile_of_ne _ _ hother] at hfile
      exact h.file_file ino other (Ne.symm hother) entry hentry hfile

namespace Volume

variable {σ : Type} [Journal σ] {below : Store σ} {v : Volume} {p : Plan} {size : Nat}
  {blame : Fault → σ → Prop} {holds : σ → (Nat → Block) → Prop} {m : Catalog} {a : Chains}
  {c : Cursor} {medium : UInt32} {s : σ}

/-- The links of a chain are turned around in the cursor, one by one;
`behind` are the entries that its first entry is to lead to. -/
theorem turnAround_ends (hL : Legible below medium size blame holds) (fits : p.Usable size)
    {image : Nat → Block} {links : Link → Link} {path behind : List Link} {entry free stop : Link}
    (hpath : Path links entry path stop) (hbehind : Path links free behind Link.endMark)
    (hentries : ∀ e ∈ path, p.HasEntry e) (hnodup : path.Nodup) (hapart : ∀ e ∈ path, e ∉ behind)
    {left : Nat} (hleft : path.length = left)
    (hreads : Cursor.Reads medium p holds image links (c, s)) :
    Op.Ends (turnAround below left entry free) (c, s)
      (fun ends after => ends.1 = stop ∧ ∃ links',
        Cursor.Reads medium p holds image links' after ∧
        Path links' ends.2 (path.reverse ++ behind) Link.endMark ∧
        ∀ e, e ∉ path → links' e = links e)
      (Cursor.Spoils blame holds image) := by
  -- Each step moves the first entry of the chain in front of what is behind.
  induction left generalizing path behind entry free links c s with
  | zero =>
    rw [List.length_eq_zero_iff] at hleft
    subst hleft
    exact Op.Ends.pure ⟨hpath, links, hreads, hbehind, fun _ _ => rfl⟩
  | succ left ih =>
    obtain ⟨first, rest, rfl⟩ := List.exists_cons_of_length_eq_add_one hleft
    obtain ⟨rfl, hrest⟩ := hpath
    obtain ⟨hfirst, hnodupRest⟩ := List.nodup_cons.mp hnodup
    have hentry : p.HasEntry entry := hentries _ List.mem_cons_self
    have hout : entry ∉ behind := hapart _ List.mem_cons_self
    unfold turnAround
    dsimp only
    rw [fits.isEnd_eq_false hentry]
    refine (Cursor.next_ends (fits.tables hL) fits.toSpans hreads hentry).seq ?_
    intro after state hnext
    obtain ⟨c₁, s₁⟩ := state
    obtain ⟨rfl, hreads₁⟩ := hnext
    refine (Cursor.setNext_ends (fits.tables hL) fits.toSpans hreads₁ free hentry).seq ?_
    intro _ state hreads₂
    obtain ⟨c₂, s₂⟩ := state
    -- What is behind begins with the entry now, whose link alone was changed.
    have hlonger :
        Path (Function.update links entry free) entry (entry :: behind) Link.endMark := by
      refine ⟨rfl, ?_⟩
      rw [Function.update_self]
      exact hbehind.update hout
    refine (ih (hrest.update hfirst) hlonger (fun e he => hentries e (List.mem_cons_of_mem _ he))
      hnodupRest ?_ (Nat.succ.inj hleft) hreads₂).mono ?_ fun _ _ hbad => hbad
    · intro e he hmem
      rcases List.mem_cons.mp hmem with rfl | hmem
      · exact hfirst he
      · exact hapart e (List.mem_cons_of_mem _ he) hmem
    · intro ends after hends
      obtain ⟨hstop, links', hreads', hturned, hsame⟩ := hends
      refine ⟨hstop, links', hreads', ?_, fun e he => ?_⟩
      · rw [List.reverse_cons, List.append_assoc]
        exact hturned
      · rw [hsame e fun h => he (List.mem_cons_of_mem _ h),
          Function.update_of_ne fun h => he (by rw [h]; exact List.mem_cons_self)]

/-- A chain that ends with its file passes, and any other is refused. -/
theorem checkEnded_ends {shown : Nat → Prop} (hD : Discloses below medium shown blame holds)
    (blocks : UInt32) {image : Nat → Block} {links : Link → Link} {rest : Link}
    (hreads : Cursor.Reads medium p holds image links (c, s)) :
    Op.Ends (checkEnded blocks rest) (c, s)
      (fun _ after => after = (c, s) ∧ rest = Link.endMark)
      (fun fault after => holds after.2 image ∧ rest ≠ Link.endMark ∧
        fault = .corrupted .longChain) := by
  unfold checkEnded
  split
  · exact Op.Ends.pure ⟨rfl, Link.isEnd_iff.mp ‹_›⟩
  · rename_i hrest
    exact Op.Ends.note_seq (Op.Ends.fail
      ⟨hD.note _ hreads.2, fun heq => hrest (Link.isEnd_iff.mpr heq), rfl⟩)

/-- A file whose chain ends with it gives all its entries back. An
interrupted release leaves the file as it is or without blocks, and
the others and the free chain as they are. A file whose chain goes on
behind it is left as it is. -/
theorem free_ends (hP : Permits below v.medium size (· < p.dataFrom) blame holds)
    (fits : p.Usable size) (hsound : Sound p m a) {l : Located} {ino : UInt32}
    (hl : l.Of p m ino) (hino : p.HasFile ino) (hsees : Sees v.medium p holds m m.link (c, s)) :
    Op.Ends (v.free below l) (c, s)
      (fun _ after => Retains p holds m (a.released ino) after.2)
      (fun fault after => blame fault after.2 ∧ (Retains p holds m a after.2 ∨
          Retains p holds m (a.setFile ino [] Link.endMark) after.2) ∨
        a.rest ino ≠ Link.endMark ∧ fault = .corrupted .longChain ∧ Keeps p holds m after.2) := by
  obtain ⟨image, rfl, hreads⟩ := hsees
  have hnodup := hsound.apart.file_nodup ino
  refine (turnAround_ends hP.toLegible fits (hl.record_eq ▸ hsound.file_path ino)
    (hl.superblock_eq ▸ hsound.free_path) (fun _ he => hsound.hasEntry_file fits he) hnodup
    (fun e he hfree => hsound.apart.free_file ino e hfree he)
    (hl.record_eq ▸ hsound.length_eq ino) hreads).bind ?_ ?_
  · intro fault after hbad
    exact .inl ⟨hbad.2, .inl ⟨_, ⟨image, hbad.1, rfl⟩, hsound, rfl⟩⟩
  intro result state hturned
  obtain ⟨rest, head⟩ := result
  obtain ⟨c₁, s₁⟩ := state
  obtain ⟨rfl, links, hreads₁, hpath, hsame⟩ := hturned
  refine (checkEnded_ends hP.toDiscloses _ hreads₁).bind ?_ ?_
  · intro fault after hbad
    exact .inr ⟨hbad.2.1, hbad.2.2, image, hbad.1, rfl⟩
  intro _ _ hended
  obtain ⟨rfl, -⟩ := hended
  refine Op.Ends.note_seq ?_
  -- The table on the medium is still the old one; the cursor sees the new one.
  have hsees₁ : Sees v.medium p holds (p.catalog image) links (c₁, s₁) := ⟨image, rfl, hreads₁⟩
  refine (writeRecord_ends hP.takes hl hino rfl Record.empty
    (hsees₁.note hP.toDiscloses _)).bind ?_ ?_
  · intro fault after hbad
    exact .inl ⟨hbad.2, .inl ⟨_, hbad.1, hsound, rfl⟩⟩
  intro _ state hsees₂
  obtain ⟨c₂, s₂⟩ := state
  have hsound₂ := hsound.clear ino
  -- Only links of entries that are on no chain now are turned around.
  have hrelink : ∀ table : Link → Link,
      (∀ entry, table entry = (p.catalog image).link entry ∨ table entry = links entry) →
      ∀ entry, (a.setFile ino [] Link.endMark).Owned entry →
        (p.catalog image).link entry = table entry := by
    intro table heither entry howned
    have hout : entry ∉ a.file ino := fun hmem => hsound.apart.not_owned_file hmem _ howned
    have hentry := heither entry
    rw [hsame entry hout, or_self] at hentry
    exact hentry.symm
  refine (flush_ends hP.takes fits.toSpans hsees₂).bind ?_ ?_
  · intro fault after hbad
    obtain ⟨hblame, table, hkeeps, heither⟩ := hbad
    exact .inl ⟨hblame, .inr ⟨_, hkeeps, hsound₂.relink (hrelink table heither), rfl⟩⟩
  intro _ state hsees₃
  obtain ⟨c₃, s₃⟩ := state
  have hsound₃ := hsound₂.relink (hrelink links fun _ => .inr rfl)
  -- The superblock goes last, and makes the entries free.
  refine (writeSuperblock_ends hP.takes _ hsees₃).mono ?_ ?_
  · intro _ after hafter
    refine ⟨_, hafter.keeps, ?_, rfl⟩
    rw [hl.superblock_eq]
    refine hsound₃.giveBack hpath ((List.reverse_perm _).nodup_iff.mpr hnodup) ?_ ?_
    · intro entry hentry
      exact hsound.apart.not_owned_file (List.mem_reverse.mp hentry) _
    · intro entry hentry
      exact hsound.apart.file_lt ino entry (List.mem_reverse.mp hentry)
  · intro fault after hbad
    exact .inl ⟨hbad.2, .inr ⟨_, hbad.1, hsound₃, rfl⟩⟩

end Volume

end BlockLayers.Fat
