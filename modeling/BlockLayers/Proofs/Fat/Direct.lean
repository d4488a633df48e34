import BlockLayers.Fat.Cursor
import BlockLayers.Proofs.Ends
import BlockLayers.Proofs.Fat.Catalog

/-!
# `BlockLayers.Proofs.Fat.Direct`: a table without a cursor

A cursor keeps the table blocks that it has read, and what is changed
stays with it until a flush. `Direct` is a table without a cursor: its
calls check the same entries, but each of them reads and writes the
links where they stand on the medium. The table counts the blocks that
were written to since the last flush, which is all that a flush does to
it.

`Plan.Looked` and `Direct.Saved` say what a call may ask of the store
below: to show table blocks, or to take those that were written to.
-/

set_option autoImplicit false

namespace BlockLayers.Fat

/-! ### The blocks of a table -/

namespace Plan

/-- The blocks of the medium that are table blocks. -/
def InTable (p : Plan) (n : Nat) : Prop := p.linksFrom ≤ n ∧ n < p.dataFrom

/-- The address of a table block. -/
def tableAddress (p : Plan) (medium index : UInt32) : Address :=
  ⟨medium, UInt32.ofNat (p.linksFrom + index.toNat)⟩

/-- The blocks of a table and the places in it have numbers that are
words. -/
structure Addressed (p : Plan) : Prop where
  linksFrom_lt : p.linksFrom < 4294967296
  dataFrom_le : p.dataFrom ≤ 4294967296
  places_lt : 128 * p.tableBlocks.toNat < 4294967296

/-- The blocks that the superblock counts are table blocks. -/
theorem inTable_of_lt {p : Plan} {index : UInt32} (hindex : index.toNat < p.tableBlocks.toNat) :
    p.InTable (p.linksFrom + index.toNat) :=
  ⟨Nat.le_add_right _ _, Nat.add_lt_add_left hindex _⟩

/-- A table block is one of those that the superblock counts. -/
theorem InTable.exists_index {p : Plan} {n : Nat} (h : p.InTable n) :
    ∃ index : UInt32, index.toNat < p.tableBlocks.toNat ∧ n = p.linksFrom + index.toNat := by
  have hlt := p.tableBlocks.toNat_lt
  obtain ⟨hge, hn⟩ := h
  unfold dataFrom at hn
  -- The number of the block, counted from the first table block.
  have hindex : (UInt32.ofNat (n - p.linksFrom)).toNat = n - p.linksFrom :=
    UInt32.toNat_ofNat_of_lt' (by show n - p.linksFrom < 4294967296; omega)
  exact ⟨UInt32.ofNat (n - p.linksFrom), by omega, by omega⟩

/-- The block at the address of a table block is that block. -/
theorem Addressed.tableAddress_toNat {p : Plan} (hp : p.Addressed) (medium : UInt32)
    {index : UInt32} (hindex : index.toNat < p.tableBlocks.toNat) :
    (p.tableAddress medium index).offset.toNat = p.linksFrom + index.toNat := by
  have hle := hp.dataFrom_le
  unfold dataFrom at hle
  exact UInt32.toNat_ofNat_of_lt' (by show p.linksFrom + index.toNat < 4294967296; omega)

/-- Different table blocks have different addresses. -/
theorem Addressed.index_inj {p : Plan} (hp : p.Addressed) {medium index other : UInt32}
    (hindex : index.toNat < p.tableBlocks.toNat) (hother : other.toNat < p.tableBlocks.toNat)
    (h : p.tableAddress medium index = p.tableAddress medium other) : index = other := by
  have hsame := congrArg (fun a => UInt32.toNat a.offset) h
  rw [hp.tableAddress_toNat medium hindex, hp.tableAddress_toNat medium hother] at hsame
  -- Both addresses are words, so that adding the start loses nothing.
  exact UInt32.toNat_inj.mp (Nat.add_left_cancel hsame)

/-- Between two lists of requests nothing but table blocks was read. -/
def Looked (p : Plan) (medium : UInt32) (log log' : List Request) : Prop :=
  ∃ asked, log' = log ++ asked ∧ ∀ q ∈ asked, ∃ index : UInt32,
    index.toNat < p.tableBlocks.toNat ∧ q = .read (p.tableAddress medium index)

/-- Nothing was read. -/
theorem Looked.refl (p : Plan) (medium : UInt32) (log : List Request) : p.Looked medium log log :=
  ⟨[], (List.append_nil log).symm, nofun⟩

/-- Reads after reads. -/
theorem Looked.trans {p : Plan} {medium : UInt32} {log log' log'' : List Request}
    (h : p.Looked medium log log') (h' : p.Looked medium log' log'') :
    p.Looked medium log log'' := by
  obtain ⟨asked, rfl, hasked⟩ := h
  obtain ⟨asked', rfl, hasked'⟩ := h'
  refine ⟨asked ++ asked', List.append_assoc .., fun q hq => ?_⟩
  exact (List.mem_append.mp hq).elim (hasked q) (hasked' q)

/-- One table block was read. -/
theorem Looked.read {p : Plan} (medium : UInt32) (log : List Request) {index : UInt32}
    (hindex : index.toNat < p.tableBlocks.toNat) :
    p.Looked medium log (log ++ [.read (p.tableAddress medium index)]) :=
  ⟨_, rfl, fun _ hq => ⟨index, hindex, List.mem_singleton.mp hq⟩⟩

end Plan

/-! ### The calls -/

/-- A call to a table. -/
inductive Cursor.Call where
  /-- The link of an entry. -/
  | next (entry : Link)
  /-- Change the link of an entry. -/
  | setNext (entry link : Link)
  /-- The entry that is a number of links behind a head. -/
  | walk (head : Link) (steps : UInt32)
  /-- Write what was changed. -/
  | flush
  deriving DecidableEq

/-- What a call is answered with. -/
@[reducible] def Cursor.Call.Answer : Cursor.Call → Type
  | .next _ => Link
  | .setNext _ _ => Unit
  | .walk _ _ => Link
  | .flush => Unit

/-- The calls to a cursor. -/
def Cursor.serve {σ : Type} [Journal σ] (below : Store σ) :
    (call : Cursor.Call) → Op (Cursor × σ) call.Answer
  | .next entry => Cursor.next below entry
  | .setNext entry link => Cursor.setNext below entry link
  | .walk head steps => Cursor.walk below head steps
  | .flush => Cursor.flush below

/-- A table on a medium whose links are read and written where they
stand. -/
structure Direct where
  /-- The blocks of the medium. -/
  disk : Nat → Block
  /-- The table blocks that were written to since the last flush. -/
  touched : List UInt32

namespace Direct

/-- The table on a medium with the given blocks. -/
def start (disk : Nat → Block) : Direct := ⟨disk, []⟩

/-- Fail unless the link leads to an entry of the table. -/
def check (p : Plan) (entry : Link) : Op Direct Unit :=
  if entry.isEnd ∨ ¬ p.HasEntry entry then Op.fail (.corrupted .danglingLink) else pure ()

/-- The link of an entry as it stands on the medium. -/
def link (p : Plan) (t : Direct) (entry : Link) : Link :=
  linkAt (t.disk (p.linksFrom + entry.position.1.toNat)) entry.position.2

/-- The table block of an entry with another link in its place. -/
def revised (p : Plan) (t : Direct) (entry link : Link) : Block :=
  setLink (t.disk (p.linksFrom + entry.position.1.toNat)) entry.position.2 link

/-- The table with another link at the place of an entry. -/
def put (p : Plan) (entry link : Link) (t : Direct) : Direct where
  disk := Function.update t.disk (p.linksFrom + entry.position.1.toNat) (t.revised p entry link)
  touched := entry.position.1 :: t.touched

/-- The link of an entry. -/
def next (p : Plan) (entry : Link) : Op Direct Link := do
  check p entry
  return (← get).link p entry

/-- Change the link of an entry. -/
def setNext (p : Plan) (entry link : Link) : Op Direct Unit := do
  check p entry
  modify (put p entry link)

/-- Follow a number of links from an entry. -/
def follow (p : Plan) : Nat → Link → Op Direct Link
  | 0, entry => return entry
  | left + 1, entry => do
    let after ← next p entry
    if after.isEnd then
      Op.fail (.corrupted .shortChain)
    follow p left after

/-- The entry that is `steps` links behind the head of a chain. -/
def walk (p : Plan) (head : Link) (steps : UInt32) : Op Direct Link := do
  check p head
  follow p steps.toNat head

/-- There is nothing left to write, and what is touched is counted anew. -/
def flush : Op Direct Unit := modify fun t => { t with touched := [] }

/-- Between two lists of requests each touched table block was written as
it is in the table, once and in ascending order, and nothing else was
asked. -/
def Saved (p : Plan) (medium : UInt32) (t : Direct) (log log' : List Request) : Prop :=
  ∃ indices : List UInt32, indices.Pairwise (· < ·) ∧
    (∀ index, index ∈ indices ↔ index ∈ t.touched) ∧
    log' = log ++ indices.map fun index =>
      .write (p.tableAddress medium index) (t.disk (p.linksFrom + index.toNat))

/-- The calls to the table. -/
def serve (p : Plan) : (call : Cursor.Call) → Op Direct call.Answer
  | .next entry => next p entry
  | .setNext entry link => setNext p entry link
  | .walk head steps => walk p head steps
  | .flush => flush

variable {p : Plan} {entry : Link} {t : Direct}

/-- An entry of the table is let pass. -/
theorem check_apply (hp : p.Addressed) (hentry : p.HasEntry entry) :
    check p entry t = .ok () t := by
  have hend := hentry.isEnd_eq_false hp.places_lt
  unfold check
  rw [if_neg (by simp [hend, hentry])]
  rfl

/-- What is no entry of the table is refused. -/
theorem check_refused (hentry : ¬ p.HasEntry entry) :
    check p entry t = .error (.fault (.corrupted .danglingLink)) t := by
  unfold check
  rw [if_pos (.inr hentry)]
  rfl

/-- The link of an entry is the one that stands on the medium. -/
theorem next_apply (hp : p.Addressed) (hentry : p.HasEntry entry) :
    next p entry t = .ok (t.link p entry) t := by
  unfold next
  rw [Op.bind_of_ok (check_apply hp hentry)]
  rfl

/-- What is no entry of the table has no link. -/
theorem next_refused (hentry : ¬ p.HasEntry entry) :
    next p entry t = .error (.fault (.corrupted .danglingLink)) t :=
  Op.bind_of_error (check_refused hentry) _

end Direct

end BlockLayers.Fat
