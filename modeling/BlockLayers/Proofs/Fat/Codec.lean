import BlockLayers.Proofs.Fat.Volume
import Mathlib.Tactic.IntervalCases

/-!
# `BlockLayers.Proofs.Fat.Codec`: values and the bytes that they stand in

The superblock, the records and the links stand in blocks as words, and
a block is nothing but its words (`Block.ext_word`). So reading a value
and setting one fit together as they should (`Slots.Lawful`): what is
set is read back, setting what is there changes nothing, of two settings
the last counts, and no byte of another place changes.

A table is spread over many blocks of a medium, and no two of its values
have the same place (`recordPosition_injective`,
`Link.position_injective`). That carries the laws from the places of one
block to the whole medium, on which the records come before the table of
links: after any updates each value is the last one that was stored
(`Update.readsBack`).

Main statement: `tables_lawful`.
-/

set_option autoImplicit false

namespace BlockLayers

namespace Block

/-! ### A block as its words -/

/-- The bytes of a word of a block are those that stand there. -/
theorem byte_word (b : Block) (i : Fin 128) {k : Nat} (hk : k < 4) :
    Word.byte (b.word i) k = b[4 * i.val + k] := by
  have h0 := (b[4 * i.val]).toNat_lt
  have h1 := (b[4 * i.val + 1]).toNat_lt
  have h2 := (b[4 * i.val + 2]).toNat_lt
  have h3 := (b[4 * i.val + 3]).toNat_lt
  apply UInt8.toNat_inj.mp
  simp only [Word.byte, word, Word.ofBytes, UInt8.toNat_ofNat', UInt32.toNat_ofNat',
    Nat.shiftRight_eq_div_pow]
  -- A byte of the word is one of the four that it is made of, and all are below 256.
  interval_cases k
  case «0» =>
    show _ = (b[4 * i.val]).toNat
    omega
  all_goals omega

/-- Blocks with the same words are the same. -/
theorem ext_word {a b : Block} (h : ∀ i, a.word i = b.word i) : a = b := by
  refine Vector.ext fun j hj => ?_
  -- Byte `j` is one of the four of word `j / 4`.
  have hmod : j % 4 < 4 := Nat.mod_lt j (by decide)
  have hbyte := byte_word a ⟨j / 4, by omega⟩ hmod
  rw [h, byte_word b ⟨j / 4, by omega⟩ hmod] at hbyte
  simpa only [Nat.div_add_mod] using hbyte.symm

/-- Every word of a block in which one was set. -/
@[simp] theorem word_setWord (b : Block) (i j : Fin 128) (w : UInt32) :
    (b.setWord i w).word j = if j = i then w else b.word j := by
  split
  · rename_i h
    rw [h, word_setWord_self]
  · rename_i h
    exact word_setWord_of_ne b w h

end Block

namespace Fat

/-! ### The superblock -/

/-- A block is the one that its superblock is encoded in exactly when the
rest of it is zeros. -/
theorem Superblock.encode_decode_iff (block : Block) :
    (decode block).encode = block ↔ ∀ (k : Nat) (hk : k < 512), 12 ≤ k → block[k] = 0 := by
  constructor
  · intro h k hk hbehind
    rw [← h]
    -- Only three words of the block are set, and byte `k` is in none of them.
    simp only [encode]
    rw [Block.getElem_setWord_of_ne _ _ _ _ hk (show k / 4 ≠ 2 by omega),
      Block.getElem_setWord_of_ne _ _ _ _ hk (show k / 4 ≠ 1 by omega),
      Block.getElem_setWord_of_ne _ _ _ _ hk (show k / 4 ≠ 0 by omega)]
    exact Vector.getElem_replicate hk
  · intro h
    apply Block.ext_word
    intro i
    simp only [encode, decode, Block.word_setWord]
    split_ifs with h2 h1 h0
    · rw [h2]
    · rw [h1]
    · rw [h0]
    · -- Both words are made of four zeros.
      have hi : 3 ≤ i.val := by
        have h0 : i.val ≠ 0 := fun heq => h0 (Fin.ext heq)
        have h1 : i.val ≠ 1 := fun heq => h1 (Fin.ext heq)
        have h2 : i.val ≠ 2 := fun heq => h2 (Fin.ext heq)
        omega
      simp only [Block.word, Block.zero, Vector.getElem_replicate]
      rw [h _ _ (by omega), h _ _ (by omega), h _ _ (by omega), h _ _ (by omega)]

/-! ### The places of a block -/

/-- How values stand at `n` places of a block. -/
structure Slots (n : Nat) (α : Type) where
  /-- The value at a place. -/
  get : Block → Fin n → α
  /-- The block with another value at a place. -/
  set : Block → Fin n → α → Block

/-- The places of a block of records. -/
def recordSlots : Slots 64 Record := ⟨recordAt, setRecord⟩

/-- The places of a table block. -/
def linkSlots : Slots 128 Link := ⟨linkAt, setLink⟩

/-- Reading and setting the values at places of `width` bytes fit
together. -/
structure Slots.Lawful {n : Nat} {α : Type} (slots : Slots n α) (width : Nat) : Prop where
  /-- What is set is read back. -/
  get_set : ∀ block place value, slots.get (slots.set block place value) place = value
  /-- Setting what is there changes nothing. -/
  set_get : ∀ block place, slots.set block place (slots.get block place) = block
  /-- Of two settings of one place the last counts. -/
  set_set : ∀ block place value value',
    slots.set (slots.set block place value) place value' = slots.set block place value'
  /-- The values at other places stay. -/
  get_set_of_ne : ∀ block place other value, other ≠ place →
    slots.get (slots.set block place value) other = slots.get block other
  /-- No byte of another place changes. -/
  getElem_set : ∀ block place value (k : Nat) (hk : k < 512), k / width ≠ place.val →
    (slots.set block place value)[k] = block[k]

/-- A record takes two words. -/
theorem recordSlots_lawful : recordSlots.Lawful 8 where
  get_set := record_setRecord_self
  set_get block place := by
    apply Block.ext_word
    intro i
    simp only [recordSlots, setRecord, recordAt, Block.word_setWord]
    split_ifs with hsecond hfirst
    · rw [hsecond]
    · rw [hfirst]
    · rfl
  set_set block place value value' := by
    apply Block.ext_word
    intro i
    simp only [recordSlots, setRecord, Block.word_setWord]
    split_ifs <;> rfl
  get_set_of_ne block _ _ value h := record_setRecord_of_ne block value h
  getElem_set block place value k hk hplace := by
    simp only [recordSlots, setRecord]
    rw [Block.getElem_setWord_of_ne _ _ _ _ hk (by dsimp only; omega),
      Block.getElem_setWord_of_ne _ _ _ _ hk (by dsimp only; omega)]

/-- A link takes one word. -/
theorem linkSlots_lawful : linkSlots.Lawful 4 where
  get_set := Cursor.linkAt_setLink_self
  set_get block place := by
    apply Block.ext_word
    intro i
    simp only [linkSlots, setLink, linkAt, Block.word_setWord]
    split_ifs with h
    · rw [h]
    · rfl
  set_set block place value value' := by
    apply Block.ext_word
    intro i
    simp only [linkSlots, setLink, Block.word_setWord]
    split_ifs <;> rfl
  get_set_of_ne block _ _ value h := Cursor.linkAt_setLink_of_ne block value h
  getElem_set block place value k hk hplace := Block.getElem_setWord_of_ne _ _ _ _ hk hplace

/-! ### Tables of many blocks -/

/-- No two files have the same place in the blocks of records. -/
theorem recordPosition_injective : Function.Injective recordPosition := by
  intro ino other h
  -- Block and place together give back the number of the file, as `64 * q + r`.
  have hblock : (recordPosition ino).1.toNat = (recordPosition other).1.toNat := by rw [h]
  have hplace : ino.toNat % 64 = other.toNat % 64 := congrArg (fun at_ => at_.2.val) h
  rw [Volume.recordPosition_toNat, Volume.recordPosition_toNat] at hblock
  exact UInt32.toNat_inj.mp (by omega)

/-- A table: how its values stand in a block, and where each of them does
on the medium. -/
structure Table (ι α : Type) (n : Nat) where
  slots : Slots n α
  /-- The number of the block, and the place in it. -/
  position : ι → Nat × Fin n

/-- The records, which begin behind the superblock. -/
def records : Table UInt32 Record 64 where
  slots := recordSlots
  position ino := ((recordPosition ino).1.toNat, (recordPosition ino).2)

/-- The table of links, which begins at block `start`. -/
def links (start : Nat) : Table Link Link 128 where
  slots := linkSlots
  position entry := (start + entry.position.1.toNat, entry.position.2)

namespace Table

variable {ι α : Type} {n : Nat} {t : Table ι α n} {width : Nat} {image image' : Nat → Block}

/-- A value of the table. -/
def read (t : Table ι α n) (image : Nat → Block) (id : ι) : α :=
  t.slots.get (image (t.position id).1) (t.position id).2

/-- The medium with another value in the table: its block is read, changed
and written. -/
def write (t : Table ι α n) (id : ι) (value : α) (image : Nat → Block) : Nat → Block :=
  Function.update image (t.position id).1
    (t.slots.set (image (t.position id).1) (t.position id).2 value)

/-- A value is what its block has. -/
theorem read_congr {id : ι} (h : image' (t.position id).1 = image (t.position id).1) :
    t.read image' id = t.read image id := by
  rw [read, h, read]

/-- A value that is written is read back, and all others stay. -/
theorem read_write [DecidableEq ι] (hslots : t.slots.Lawful width)
    (hposition : Function.Injective t.position) (id other : ι) (value : α) :
    t.read (t.write id value image) other = if id = other then value else t.read image other := by
  by_cases hblock : (t.position other).1 = (t.position id).1
  · rw [read, write, hblock, Function.update_self]
    split_ifs with hsame
    · rw [hsame, hslots.get_set]
    · -- Another value of the block has another place in it.
      have hplace : (t.position other).2 ≠ (t.position id).2 := fun heq =>
        hsame (hposition (Prod.ext hblock heq)).symm
      rw [hslots.get_set_of_ne _ _ _ _ hplace, read, hblock]
  · rw [if_neg fun hsame => hblock (by rw [hsame])]
    exact read_congr (Function.update_of_ne hblock _ _)

/-- A value stays when another table is written to, in another block. -/
theorem read_write_of_ne {κ β : Type} {k : Nat} {t' : Table κ β k} {id : κ} {other : ι}
    (h : (t.position other).1 ≠ (t'.position id).1) (value : β) :
    t.read (t'.write id value image) other = t.read image other :=
  read_congr (Function.update_of_ne h _ _)

end Table

/-- No two files share a place on the medium. -/
theorem records_injective : Function.Injective records.position := by
  intro ino other h
  have hblock : (recordPosition ino).1.toNat = (recordPosition other).1.toNat :=
    congrArg (fun at_ => at_.1) h
  have hplace : (recordPosition ino).2 = (recordPosition other).2 := congrArg (fun at_ => at_.2) h
  exact recordPosition_injective (Prod.ext (UInt32.toNat_inj.mp hblock) hplace)

/-- No two entries share a place on the medium. -/
theorem links_injective (start : Nat) : Function.Injective (links start).position := by
  intro entry other h
  have hblock : start + entry.position.1.toNat = start + other.position.1.toNat :=
    congrArg (fun at_ => at_.1) h
  have hplace : entry.position.2 = other.position.2 := congrArg (fun at_ => at_.2) h
  have hindex := UInt32.toNat_inj.mp (Nat.add_left_cancel hblock)
  exact Link.position_injective (Prod.ext hindex hplace)

/-! ### Updates of both tables -/

/-- A change to one of the tables. -/
inductive Update where
  /-- The record of a file is stored. -/
  | record (ino : UInt32) (record : Record)
  /-- The link of an entry is stored. -/
  | link (entry link : Link)

namespace Update

/-- The medium after an update. -/
def apply (start : Nat) : Update → (Nat → Block) → Nat → Block
  | record ino value => records.write ino value
  | link entry value => (links start).write entry value

/-- The medium after some updates. -/
def run (start : Nat) (updates : List Update) (image : Nat → Block) : Nat → Block :=
  updates.foldl (fun image update => update.apply start image) image

/-- The record that an update stores for a file. -/
def record? (ino : UInt32) : Update → Option Record
  | record other value => if other = ino then some value else none
  | link _ _ => none

/-- The link that an update stores for an entry. -/
def link? (entry : Link) : Update → Option Link
  | record _ _ => none
  | link other value => if other = entry then some value else none

/-- An update of a record that stands before the table of links. -/
def Before (start : Nat) : Update → Prop
  | record ino _ => (records.position ino).1 < start
  | link _ _ => True

/-- After any updates a record and a link are the last that were stored,
or what they were before. -/
structure ReadsBack (start : Nat) (updates : List Update) (image : Nat → Block) : Prop where
  record : ∀ ino, (records.position ino).1 < start →
    records.read (run start updates image) ino =
      (updates.filterMap (record? ino)).getLast?.getD (records.read image ino)
  link : ∀ entry, (links start).read (run start updates image) entry =
    (updates.filterMap (link? entry)).getLast?.getD ((links start).read image entry)

/-- What each update does to a value is what all of them in turn do. -/
theorem run_eq {α : Type} {start : Nat} {updates : List Update} (get : (Nat → Block) → α)
    {stored? : Update → Option α}
    (h : ∀ update ∈ updates, ∀ image,
      get (update.apply start image) = (stored? update).getD (get image))
    (image : Nat → Block) :
    get (run start updates image) = (updates.filterMap stored?).getLast?.getD (get image) := by
  -- The updates are made from the front of the list, so the medium changes along it.
  induction updates generalizing image with
  | nil => rfl
  | cons first rest ih =>
    have hrest := ih (fun update hmem => h update (List.mem_cons_of_mem _ hmem))
      (first.apply start image)
    have hfirst := h first List.mem_cons_self image
    rw [show run start (first :: rest) image = run start rest (first.apply start image) from rfl,
      hrest, hfirst]
    cases hstored : stored? first with
    | none => rw [List.filterMap_cons_none hstored, Option.getD_none]
    | some value =>
      rw [List.filterMap_cons_some hstored, List.getLast?_cons, Option.getD_some, Option.getD_some]

/-- After any updates, records and links are read back. -/
theorem readsBack {start : Nat} {updates : List Update}
    (h : ∀ update ∈ updates, update.Before start) (image : Nat → Block) :
    ReadsBack start updates image where
  record ino hino := by
    refine run_eq (fun image => records.read image ino) (fun update _ image => ?_) image
    cases update with
    | record other value =>
      refine (Table.read_write recordSlots_lawful records_injective other ino value).trans ?_
      simp only [record?]
      split_ifs <;> rfl
    | link entry value =>
      -- The block of the record is before all blocks of links.
      exact Table.read_write_of_ne (Nat.ne_of_lt (Nat.lt_of_lt_of_le hino (Nat.le_add_right _ _)))
        value
  link entry := by
    refine run_eq (fun image => (links start).read image entry) (fun update hmem image => ?_) image
    cases update with
    | record ino value =>
      have hbefore : (records.position ino).1 < start := h _ hmem
      exact Table.read_write_of_ne
        (Nat.ne_of_gt (Nat.lt_of_lt_of_le hbefore (Nat.le_add_right _ _))) value
    | link other value =>
      refine (Table.read_write linkSlots_lawful (links_injective start) other entry value).trans ?_
      simp only [link?]
      split_ifs <;> rfl

end Update

/-- The superblock is decoded from what it is encoded in, and the block is
that again exactly when the rest of it is zeros. The places of both kinds
of table blocks are lawful, no two files and no two entries share one,
and after any updates of a medium on which the records stand before the
links, each record and each link is the last that was stored for it. -/
theorem tables_lawful :
    (∀ sb : Superblock, Superblock.decode sb.encode = sb) ∧
    (∀ block : Block, (Superblock.decode block).encode = block ↔
      ∀ (k : Nat) (hk : k < 512), 12 ≤ k → block[k] = 0) ∧
    recordSlots.Lawful 8 ∧ linkSlots.Lawful 4 ∧
    Function.Injective recordPosition ∧ Function.Injective Link.position ∧
    ∀ start updates, (∀ update ∈ updates, Update.Before start update) →
      ∀ image, Update.ReadsBack start updates image :=
  ⟨Superblock.decode_encode, Superblock.encode_decode_iff, recordSlots_lawful, linkSlots_lawful,
    recordPosition_injective, fun _ _ => Link.position_injective,
    fun _ _ h => Update.readsBack h⟩

end Fat

end BlockLayers
