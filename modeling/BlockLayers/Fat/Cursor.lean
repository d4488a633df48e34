import BlockLayers.Fat.Layout
import BlockLayers.Store

/-!
# `BlockLayers.Fat.Cursor`: following and changing links

A cursor reads and changes the links of one allocation table during one
operation on its file system. It reads each table block at most once,
on the first use, and keeps it; changes stay in the kept blocks until
`Cursor.flush` writes the changed ones to the medium, in ascending
order. A cursor that is not flushed leaves the table on the medium as
it was.

Every entry is checked before its link is used: the end mark and
numbers that leave the table are dangling links (`Cursor.check`).

Main definitions: `Cursor.next`, `Cursor.setNext`, `Cursor.walk` and
`Cursor.flush`. The kept blocks are a list in ascending order, and
`Cursor.find?_insertPage` says what inserting does to looking up.
-/

set_option autoImplicit false

namespace BlockLayers.Fat

/-- A table block that a cursor has read. -/
structure Page where
  /-- The number of the block, counted from the start of the table. -/
  index : UInt32
  /-- The links. -/
  block : Block
  /-- Whether the links differ from those on the medium. -/
  changed : Bool
  deriving DecidableEq

/-- A cursor on an allocation table. -/
structure Cursor where
  /-- The inode of the store below that is the medium. -/
  medium : UInt32
  /-- The first block of the table. -/
  start : UInt32
  /-- The number of entries that the table has room for. -/
  capacity : UInt32
  /-- The blocks read so far, in ascending order of their numbers. -/
  pages : List Page

namespace Cursor

variable {σ α : Type}

/-- A cursor on the table that a superblock describes. -/
def open_ (medium : UInt32) (sb : Superblock) : Except Abort Cursor := do
  return { medium, start := ← sb.tableStart, capacity := ← sb.tableCapacity, pages := [] }

/-- The kept block with a number. -/
def page? (index : UInt32) (c : Cursor) : Option Page :=
  c.pages.find? fun page => page.index = index

/-- A list of pages in ascending order with one more page in it. -/
def insertPage (page : Page) : List Page → List Page
  | [] => [page]
  | first :: rest =>
    if page.index < first.index then page :: first :: rest
    else first :: insertPage page rest

/-- The cursor with a table block that it did not have. -/
def keep (index : UInt32) (block : Block) (c : Cursor) : Cursor :=
  { c with pages := insertPage ⟨index, block, false⟩ c.pages }

/-- The cursor after a change to the kept block with a number. -/
def alter (index : UInt32) (f : Page → Page) (c : Cursor) : Cursor :=
  { c with pages := c.pages.map fun page => if page.index = index then f page else page }

section Journal

variable [Journal σ]

/-- Fail unless the link leads to an entry of the table. -/
def check (link : Link) : Op (Cursor × σ) Unit := do
  let capacity := (← Op.own).capacity
  if link.isEnd ∨ capacity ≤ link.word then
    Op.note (.danglingLink link capacity)
    Op.fail (.corrupted .danglingLink)

/-- The table block with a number, read from the medium on first use. -/
def load (below : Store σ) (index : UInt32) : Op (Cursor × σ) Block := do
  let cursor ← Op.own
  match cursor.page? index with
  | some page => return page.block
  | none => do
    let at_ ← Checked.add cursor.start index
    let block ← Op.lower (below (.read ⟨cursor.medium, at_⟩))
    Op.modifyOwn (keep index block)
    return block

/-- The link of an entry. -/
def next (below : Store σ) (entry : Link) : Op (Cursor × σ) Link := do
  check entry
  let (index, place) := entry.position
  return linkAt (← load below index) place

/-- Change the link of an entry. -/
def setNext (below : Store σ) (entry link : Link) : Op (Cursor × σ) Unit := do
  check entry
  let (index, place) := entry.position
  let block ← load below index
  Op.modifyOwn (alter index fun page =>
    { page with block := setLink block place link, changed := true })

/-- Follow a number of links from an entry. -/
def follow (below : Store σ) (head : Link) (steps : UInt32) : Nat → Link → Op (Cursor × σ) Link
  | 0, entry => return entry
  | left + 1, entry => do
    let after ← next below entry
    if after.isEnd then
      Op.note (.chainEnded head steps)
      Op.fail (.corrupted .shortChain)
    follow below head steps left after

/-- The entry that is `steps` links behind the head of a chain. -/
def walk (below : Store σ) (head : Link) (steps : UInt32) : Op (Cursor × σ) Link := do
  check head
  follow below head steps steps.toNat head

/-- Write the given pages to the medium, those that have changed. -/
def flushPages (below : Store σ) : List Page → Op (Cursor × σ) Unit
  | [] => return ()
  | page :: rest => do
    if page.changed then
      let cursor ← Op.own
      let at_ ← Checked.add cursor.start page.index
      Op.lower (below (.write ⟨cursor.medium, at_⟩ page.block))
      -- A page whose write fails stays changed.
      Op.modifyOwn (alter page.index fun kept => { kept with changed := false })
    flushPages below rest

/-- Write the changed table blocks to the medium, in ascending order. -/
def flush (below : Store σ) : Op (Cursor × σ) Unit := do
  flushPages below (← Op.own).pages

end Journal

/-! ### Looking up a page -/

/-- After a page is inserted among others, its number finds it, and
every other number finds what it found before. -/
theorem find?_insertPage (page : Page) (pages : List Page) (index : UInt32)
    (h : ∀ p ∈ pages, p.index ≠ page.index) :
    (insertPage page pages).find? (fun p => p.index = index) =
      if page.index = index then some page else pages.find? fun p => p.index = index := by
  induction pages with
  | nil =>
    by_cases hi : page.index = index <;> simp [insertPage, List.find?, hi]
  | cons first rest ih =>
    have hfirst : first.index ≠ page.index := h first (List.mem_cons_self ..)
    have hrest := ih fun p hp => h p (List.mem_cons_of_mem _ hp)
    unfold insertPage
    split
    · by_cases hi : page.index = index <;> simp [List.find?, hi]
    · by_cases hi : page.index = index
      · have hne : first.index ≠ index := hi ▸ hfirst
        rw [List.find?_cons_of_neg (by simpa using hne), hrest, if_pos hi, if_pos hi]
      · simp only [List.find?_cons, hrest, hi, if_false]

end Cursor

end BlockLayers.Fat
