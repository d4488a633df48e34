import BlockLayers.Proofs.Fat.Refused

/-!
# `BlockLayers.Proofs.Fat.Astray`: links that leave the table

The links of a table may be any numbers. A walk checks each entry before
it follows its link, and each link that it arrives at for the end mark.
So every link but the last is known to be an entry of the table, and of
the last one it is only known that it is not the end mark. The number of
a data block is worked out from it all the same.

Main statement: `follows_links`, which says of a table with any content
which walks arrive, and where, which are refused, and what that means for
a block that a file has. A block whose link leaves the table is not
refused (`write_astray`).
-/

set_option autoImplicit false

namespace BlockLayers

/-- The block that a request reads or writes. -/
def Request.block? : Request → Option Address
  | .read a => some a
  | .write a _ => some a
  | _ => none

namespace Fat

/-- The link that the chain of a file leads to for one of its blocks. -/
def Catalog.entryAt (m : Catalog) (a : Address) : Link :=
  m.link^[a.offset.toNat] (m.record a.ino).head

/-- A file has a block. -/
def Plan.HasBlock (p : Plan) (m : Catalog) (a : Address) : Prop :=
  p.HasFile a.ino ∧ a.offset < (m.record a.ino).blocks

instance (p : Plan) (m : Catalog) (a : Address) : Decidable (p.HasBlock m a) :=
  inferInstanceAs (Decidable (_ ∧ _))

/-- The walk to the entry of a block of a file is not refused. -/
def Plan.Passes (p : Plan) (m : Catalog) (a : Address) : Prop :=
  Cursor.Passes p m.link (m.record a.ino).head a.offset.toNat

/-- A read of a block of the tables. -/
def Plan.ReadsTables (p : Plan) (medium : UInt32) (q : Request) : Prop :=
  q.changes = false ∧ ∃ n, q.block? = some ⟨medium, n⟩ ∧ n.toNat < p.dataFrom

namespace Volume

variable {σ : Type} [Journal σ] {below : Store σ} {v : Volume} {p : Plan} {size : Nat}
  {holds : σ → (Nat → Block) → Prop} {image : Nat → Block} {s : σ} {a : Address}

/-! ### Calls to a block that a file has -/

/-- Read the data block of an entry. -/
def readEntry (v : Volume) (below : Store σ) (sb : Superblock) (entry : Link) : Op σ Block := do
  let number ← sb.dataBlock entry
  v.readBlock below number

/-- Write the data block of an entry. -/
def writeEntry (v : Volume) (below : Store σ) (data : Block) (sb : Superblock) (entry : Link) :
    Op σ Unit := do
  let number ← sb.dataBlock entry
  v.writeBlock below number data

/-- A read of a block that a file has looks for the entry of the block. -/
theorem read_of_located {l : Located} {after : σ} (h : v.locate below a.ino s = .ok l after)
    (hoffset : a.offset < l.record.blocks) :
    v.read below a s =
      (v.entryOf below l a.offset >>= v.readEntry below l.superblock) after := by
  unfold read
  rw [Op.bind_of_ok h, if_neg (UInt32.not_le.mpr hoffset)]
  rfl

/-- So does a write. -/
theorem write_of_located {l : Located} {after : σ} (h : v.locate below a.ino s = .ok l after)
    (hoffset : a.offset < l.record.blocks) (data : Block) :
    v.write below a data s =
      (v.entryOf below l a.offset >>= v.writeEntry below data l.superblock) after := by
  unfold write entryFor
  rw [Op.bind_of_ok h, if_pos hoffset]
  rfl

/-- A call that looks for the entry of a block that a file has goes on
with the link that the chain leads to, or is refused where the chain does
not lead so far. -/
theorem found_or_refused {α : Type} {x : Op σ α} {k : Superblock → Link → Op σ α}
    (hD : Discloses below v.medium (· < p.dataFrom) (fun _ _ => False) holds)
    (spans : p.Spans size) (hfiles : 64 * p.recordBlocks.toNat < 4294967296)
    (told : p.ToldBy image) (hs : holds s image) (hblock : p.HasBlock (p.catalog image) a)
    (hx : ∀ {l after}, v.locate below a.ino s = .ok l after → a.offset < l.record.blocks →
      x s = (v.entryOf below l a.offset >>= k l.superblock) after) :
    ∃ after, holds after image ∧
      (p.Passes (p.catalog image) a ∧
          x s = k (p.catalog image).superblock ((p.catalog image).entryAt a) after ∨
        ¬ p.Passes (p.catalog image) a ∧
          ∃ damage, x s = .error (.fault (.corrupted damage)) after) := by
  obtain ⟨hfile, hoffset⟩ := hblock
  -- Nothing is wrong with the file, so only the walk decides how the call goes on.
  obtain ⟨l, s₁, hlocate, -, hl, hs₁⟩ := (locate_ends hD spans hfiles told.recordBlocks_eq hs
    a.ino).ok fun _ _ hbad => hbad.2.elim id fun hno => hno.1 hfile
  have hsuperblock : l.superblock = Superblock.decode (image 0) := hl.superblock_eq
  -- The walk arrives where the links lead, if it passes entries of the table on its way.
  have hentry := entryOf_passes hD spans (hsuperblock ▸ told.recordBlocks_eq)
    (hsuperblock ▸ told.tableBlocks_eq) hs₁ a.offset
  rw [hx hlocate (hl.record_eq ▸ hoffset)]
  rw [hl.record_eq] at hentry
  rcases hentry.exists_run with
    ⟨_, after, hrun, hpasses, rfl, hafter⟩ | ⟨_, after, hrun, hafter, hno | ⟨hpasses, damage, rfl⟩⟩
  · refine ⟨after, hafter, .inl ⟨hpasses, ?_⟩⟩
    rw [Op.bind_of_ok hrun, hl.superblock_eq]
    rfl
  · exact hno.elim
  · exact ⟨after, hafter, .inr ⟨hpasses, damage, Op.bind_of_error hrun _⟩⟩

/-- Where the chain does not lead so far, only blocks of the tables are
read before the call is refused. -/
theorem refused_recorded {α : Type} {x : Op (List Exchange × σ) α}
    {k : Superblock → Link → Op (List Exchange × σ) α}
    (hD : Discloses below v.medium (· < p.dataFrom) (fun _ _ => False) holds)
    (spans : p.Spans size) (hfiles : 64 * p.recordBlocks.toNat < 4294967296)
    (told : p.ToldBy image) (hs : holds s image) (hblock : p.HasBlock (p.catalog image) a)
    (hpasses : ¬ p.Passes (p.catalog image) a)
    (hx : ∀ {l after}, v.locate (Recorded.store below) a.ino ([], s) = .ok l after →
      a.offset < l.record.blocks →
      x ([], s) = (v.entryOf (Recorded.store below) l a.offset >>= k l.superblock) after) :
    ∃ damage record after, x ([], s) = .error (.fault (.corrupted damage)) (record, after) ∧
      Recorded.Asked (p.ReadsTables v.medium) record ∧ holds after image := by
  -- Only reads of the tables are on the record, since no more is asked of the store below.
  have hrecorded : Discloses (Recorded.store below) v.medium (· < p.dataFrom) _
      (fun t image => Recorded.Asked (p.ReadsTables v.medium) t.1 ∧ holds t.2 image) :=
    Recorded.discloses hD fun n hn => ⟨rfl, n, rfl, hn⟩
  obtain ⟨⟨record, after⟩, ⟨hasked, hafter⟩, ⟨hyes, -⟩ | ⟨-, damage, hrun⟩⟩ :=
    found_or_refused hrecorded spans hfiles told ⟨Recorded.asked_nil _, hs⟩ hblock hx
  · exact (hpasses hyes).elim
  · exact ⟨damage, record, after, hrun, hasked, hafter⟩

/-! ### Tables with any content -/

/-- What is known of a table with any content, on a store whose reads
succeed: which walks on it arrive, and what becomes of the calls that
make them. -/
structure FollowsLinks (v : Volume) (below : Store σ) (p : Plan)
    (holds : σ → (Nat → Block) → Prop) (image : Nat → Block) (s : σ) : Prop where
  /-- A walk arrives where the links behind its head lead, if the entries
  that it passes are in the table and it does not arrive at the end. -/
  arrives : ∀ {c : Cursor} {links : Link → Link}, c.Shows v.medium p image links →
    ∀ head (steps : UInt32), Cursor.Passes p links head steps.toNat →
      Op.outcome (Cursor.walk below head steps) (c, s) = .ok (links^[steps.toNat] head)
  /-- Every other walk is refused. -/
  stops : ∀ {c : Cursor} {links : Link → Link}, c.Shows v.medium p image links →
    ∀ head (steps : UInt32), ¬ Cursor.Passes p links head steps.toNat →
      ∃ damage, Op.outcome (Cursor.walk below head steps) (c, s) =
        .error (.fault (.corrupted damage))
  /-- A block whose walk arrives is read from the data block of the entry,
  whether the entry is in the table or not. -/
  read : ∀ a, p.HasBlock (p.catalog image) a → p.Passes (p.catalog image) a →
    ∃ after, holds after image ∧ v.store below (.read a) s =
      v.readEntry below (p.catalog image).superblock ((p.catalog image).entryAt a) after
  /-- It is written there too. -/
  write : ∀ a data, p.HasBlock (p.catalog image) a → p.Passes (p.catalog image) a →
    ∃ after, holds after image ∧ v.store below (.write a data) s =
      v.writeEntry below data (p.catalog image).superblock ((p.catalog image).entryAt a) after
  /-- Every other block of a file is refused, and the tables are all that
  is looked at. -/
  refuses : ∀ a, p.HasBlock (p.catalog image) a → ¬ p.Passes (p.catalog image) a →
    ∀ q, (q = .read a ∨ ∃ data, q = .write a data) →
      ∃ damage record after, v.store (Recorded.store below) q ([], s) =
          .error (.fault (.corrupted damage)) (record, after) ∧
        Recorded.Asked (p.ReadsTables v.medium) record ∧ holds after image

/-- The links of a table are followed as far as they are checked, which
is up to the last link of a walk. -/
theorem follows_links (hD : Discloses below v.medium (· < p.dataFrom) (fun _ _ => False) holds)
    (spans : p.Spans size) (hfiles : 64 * p.recordBlocks.toNat < 4294967296)
    (told : p.ToldBy image) (hs : holds s image) : v.FollowsLinks below p holds image s := by
  constructor
  case arrives =>
    intro c links hshows head steps hpasses
    rcases (Cursor.walk_passes hD spans head steps ⟨hshows, hs⟩).outcome_next with
      ⟨_, hend, -, rfl, -⟩ | ⟨_, -, -, hno | hno⟩
    · exact hend
    · exact hno.elim
    · exact (hno.1 hpasses).elim
  case stops =>
    intro c links hshows head steps hpasses
    rcases (Cursor.walk_passes hD spans head steps ⟨hshows, hs⟩).outcome_next with
      ⟨_, -, harrives, -⟩ | ⟨_, hend, -, hno | ⟨-, damage, rfl⟩⟩
    · exact (hpasses harrives).elim
    · exact hno.elim
    · exact ⟨damage, hend⟩
  case read =>
    intro a hblock hpasses
    obtain ⟨after, hafter, ⟨-, hrun⟩ | ⟨hno, -⟩⟩ :=
      found_or_refused hD spans hfiles told hs hblock read_of_located
    · exact ⟨after, hafter, hrun⟩
    · exact (hno hpasses).elim
  case write =>
    intro a data hblock hpasses
    obtain ⟨after, hafter, ⟨-, hrun⟩ | ⟨hno, -⟩⟩ :=
      found_or_refused hD spans hfiles told hs hblock fun hl hoffset =>
        write_of_located hl hoffset data
    · exact ⟨after, hafter, hrun⟩
    · exact (hno hpasses).elim
  case refuses =>
    intro a hblock hpasses q hq
    rcases hq with rfl | ⟨data, rfl⟩
    · exact refused_recorded hD spans hfiles told hs hblock hpasses read_of_located
    · exact refused_recorded hD spans hfiles told hs hblock hpasses fun hl hoffset =>
        write_of_located hl hoffset data

/-- A medium of five blocks with a file whose second block is behind a
link that leaves the table. -/
def astray : Memory := crafted ⟨1⟩ ⟨⟨0⟩, 2⟩ ⟨200⟩

/-- What is known of that medium. -/
theorem follows_links_astray :
    Discloses Memory.store 0 (· < (⟨1, 1, 2⟩ : Plan).dataFrom) (fun _ _ => False)
        (Memory.Carries 0 5) ∧
      (⟨1, 1, 2⟩ : Plan).Spans 5 ∧ 64 * (1 : UInt32).toNat < 4294967296 ∧
      (⟨1, 1, 2⟩ : Plan).ToldBy (astray.image 0) ∧ Memory.Carries 0 5 astray (astray.image 0) ∧
      (⟨0⟩ : Volume).FollowsLinks Memory.store ⟨1, 1, 2⟩ (Memory.Carries 0 5) (astray.image 0)
        astray := by
  have spans : (⟨1, 1, 2⟩ : Plan).Spans 5 := ⟨by decide, by decide, by decide, by decide⟩
  have hD := spans.tables (Memory.medium 0 5).toLegible
  have told : (⟨1, 1, 2⟩ : Plan).ToldBy (astray.image 0) := ⟨by decide +kernel, by decide +kernel⟩
  -- The image of the medium is what its blocks are, of which it has five.
  have hs : Memory.Carries 0 5 astray (astray.image 0) := by
    refine ⟨rfl, astray.inodes.getD 0 #[], rfl, rfl, fun n hn => ?_⟩
    have hlt : n < (astray.inodes.getD 0 #[]).size := hn
    show _ = some (Option.getD (astray.inodes.getD 0 #[])[n]? Block.zero)
    rw [Array.getElem?_eq_getElem hlt]
    rfl
  exact ⟨hD, spans, by decide, told, hs, follows_links (v := ⟨0⟩) hD spans (by decide) told hs⟩

/-- The table has no entry for that link, and the walk arrives at it all
the same. A write to the block is not refused: it goes far behind the end
of the medium. -/
theorem write_astray :
    (⟨1, 1, 2⟩ : Plan).HasBlock ((⟨1, 1, 2⟩ : Plan).catalog (astray.image 0)) ⟨0, 1⟩ ∧
      ((⟨1, 1, 2⟩ : Plan).catalog (astray.image 0)).entryAt ⟨0, 1⟩ = ⟨200⟩ ∧
      ¬ (⟨1, 1, 2⟩ : Plan).HasEntry ⟨200⟩ ∧
      Op.outcome (Cursor.walk Memory.store ⟨0⟩ 1) (⟨0, 2, 128, []⟩, astray) = .ok ⟨200⟩ ∧
      Op.outcome ((⟨0⟩ : Volume).store Memory.store (.write ⟨0, 1⟩ Block.zero)) astray = .ok () ∧
      (astray.inodes.getD 0 #[]).size = 5 ∧
      (Op.next ((⟨0⟩ : Volume).store (Recorded.store Memory.store) (.write ⟨0, 1⟩ Block.zero))
        ([], astray)).1.map (fun call => (call.request.changes, call.request.block?)) =
          [(false, some ⟨0, 0⟩), (false, some ⟨0, 1⟩), (false, some ⟨0, 2⟩),
            (true, some ⟨0, 203⟩)] := by
  decide +kernel

end Volume

end Fat

end BlockLayers
