/-!
# `BlockLayers.Fat.Link`: links of the allocation table

The blocks of a file, and the blocks that no file uses, form chains:
entry `i` of the allocation table describes data block `i` and holds a
`Link` to the entry after it. A link is a word; the largest word is the
end of a chain and never an entry (`Link.endMark`).

The table stands in blocks of 128 links. `Link.position` splits an
entry number into the number of its block and the place in it;
`position_injective` says that no two entries share a place.
-/

set_option autoImplicit false

namespace BlockLayers.Fat

/-- A link of the allocation table: the number of an entry, or the end
of a chain. -/
structure Link where
  /-- The word that stands for the link on the medium. -/
  word : UInt32
  deriving DecidableEq, Repr

namespace Link

/-- The end of a chain. -/
def endMark : Link := ⟨0xffffffff⟩

/-- Whether the link is the end of a chain. -/
def isEnd (link : Link) : Bool := link.word == 0xffffffff

/-- The link as a message shows it. -/
def text (link : Link) : String :=
  if link.isEnd then "EOC" else toString link.word

/-- The table block of an entry, counted from the start of the table,
and the place of its link in that block. -/
def position (link : Link) : UInt32 × Fin 128 :=
  (link.word / 128, ⟨link.word.toNat % 128, Nat.mod_lt _ (by decide)⟩)

/-- The end mark is the only link that ends a chain. -/
theorem isEnd_iff {link : Link} : link.isEnd = true ↔ link = endMark := by
  cases link
  simp [isEnd, endMark]

/-- No two entries have the same place in the table. -/
theorem position_injective {a b : Link} (h : a.position = b.position) : a = b := by
  have hblock : (a.word / 128).toNat = (b.word / 128).toNat := congrArg (fun p => p.1.toNat) h
  have hplace : a.word.toNat % 128 = b.word.toNat % 128 := congrArg (fun p => p.2.val) h
  rw [UInt32.toNat_div, UInt32.toNat_div] at hblock
  have h128 : (128 : UInt32).toNat = 128 := rfl
  rw [h128] at hblock
  obtain ⟨a⟩ := a
  obtain ⟨b⟩ := b
  congr 1
  apply UInt32.toNat_inj.1
  dsimp only at hblock hplace
  omega

end Link

end BlockLayers.Fat
