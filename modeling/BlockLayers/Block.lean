/-!
# `BlockLayers.Block`: blocks of 512 bytes and the words in them

A `Block` is the unit of every read and write, and an `Address` says
where on a store it stands. Tables on a medium keep their numbers in it
as 128 words of 32 bits, least significant byte first: `Block.word`
reads one and `Block.setWord` replaces one.
`Block.ofWords` builds a block from all of its words, `Block.ofBytes`
from at most 512 bytes with zeros after them, and `Block.chunks` cuts
a byte string into pieces that fit a block.

Main statements: `word_setWord_self` and `word_setWord_of_ne` (a word
set is read back, and no other word changes), and
`getElem_setWord_of_ne` (a byte of another word keeps its value).
-/

set_option autoImplicit false

namespace BlockLayers

/-- A block: 512 bytes. -/
abbrev Block := Vector UInt8 512

/-- The place of a block on a store: block `offset` of inode `ino`. -/
structure Address where
  /-- The inode that holds the block. -/
  ino : UInt32
  /-- The number of the block within its inode, counted from zero. -/
  offset : UInt32
  deriving DecidableEq, Repr

namespace Word

/-- The word whose bytes are `b0` to `b3`, least significant first. -/
def ofBytes (b0 b1 b2 b3 : UInt8) : UInt32 :=
  UInt32.ofNat (b0.toNat + 256 * b1.toNat + 65536 * b2.toNat + 16777216 * b3.toNat)

/-- Byte `k` of a word, counted from the least significant one. -/
def byte (w : UInt32) (k : Nat) : UInt8 :=
  UInt8.ofNat (w.toNat >>> (8 * k))

/-- A word is made up of its four bytes. -/
theorem ofBytes_byte (w : UInt32) :
    ofBytes (byte w 0) (byte w 1) (byte w 2) (byte w 3) = w := by
  have hw := w.toNat_lt
  apply UInt32.toNat_inj.1
  simp only [ofBytes, byte, UInt32.toNat_ofNat', UInt8.toNat_ofNat']
  omega

end Word

namespace Block

/-- The block of zeros. -/
def zero : Block := Vector.replicate 512 0

/-- The block whose bytes are all `b`. -/
def fill (b : UInt8) : Block := Vector.replicate 512 b

/-- The first 512 bytes of `bytes`, with zeros up to a whole block. -/
def ofBytes (bytes : List UInt8) : Block :=
  let given := bytes.toArray
  Vector.ofFn fun i => given.getD i.val 0

/-- Word `i` of a block. -/
def word (b : Block) (i : Fin 128) : UInt32 :=
  Word.ofBytes b[4 * i.val] b[4 * i.val + 1] b[4 * i.val + 2] b[4 * i.val + 3]

/-- The block with word `i` replaced by `w`. -/
def setWord (b : Block) (i : Fin 128) (w : UInt32) : Block :=
  (((b.set (4 * i.val) (Word.byte w 0) (by omega)).set
    (4 * i.val + 1) (Word.byte w 1) (by omega)).set
    (4 * i.val + 2) (Word.byte w 2) (by omega)).set
    (4 * i.val + 3) (Word.byte w 3) (by omega)

/-- The block with the given 128 words. -/
def ofWords (words : Vector UInt32 128) : Block :=
  Vector.ofFn fun i => Word.byte words[i.val / 4] (i.val % 4)

/-- The byte string cut into pieces of 512 bytes, the last one as long
as what is left. The empty string has no pieces. -/
def chunks (bytes : List UInt8) : List (List UInt8) :=
  if bytes.isEmpty then []
  else bytes.take 512 :: chunks (bytes.drop 512)
termination_by bytes.length
decreasing_by
  cases bytes with
  | nil => simp_all
  | cons b rest => simp only [List.length_drop, List.length_cons]; omega

/-! ### A word set is read back -/

/-- A byte outside the word that is set keeps its value. -/
theorem getElem_setWord_of_ne (b : Block) (i : Fin 128) (w : UInt32) (j : Nat) (hj : j < 512)
    (hne : j / 4 ≠ i.val) : (b.setWord i w)[j] = b[j] := by
  unfold setWord
  rw [Vector.getElem_set_ne _ _ (by omega), Vector.getElem_set_ne _ _ (by omega),
    Vector.getElem_set_ne _ _ (by omega), Vector.getElem_set_ne _ _ (by omega)]

/-- The word that was set is read back. -/
theorem word_setWord_self (b : Block) (i : Fin 128) (w : UInt32) : (b.setWord i w).word i = w := by
  have hi := i.isLt
  have h0 : (b.setWord i w)[4 * i.val] = Word.byte w 0 := by
    unfold setWord
    rw [Vector.getElem_set_ne _ _ (by omega), Vector.getElem_set_ne _ _ (by omega),
      Vector.getElem_set_ne _ _ (by omega), Vector.getElem_set_self]
  have h1 : (b.setWord i w)[4 * i.val + 1] = Word.byte w 1 := by
    unfold setWord
    rw [Vector.getElem_set_ne _ _ (by omega), Vector.getElem_set_ne _ _ (by omega),
      Vector.getElem_set_self]
  have h2 : (b.setWord i w)[4 * i.val + 2] = Word.byte w 2 := by
    unfold setWord
    rw [Vector.getElem_set_ne _ _ (by omega), Vector.getElem_set_self]
  have h3 : (b.setWord i w)[4 * i.val + 3] = Word.byte w 3 := by
    unfold setWord
    rw [Vector.getElem_set_self]
  unfold word
  rw [h0, h1, h2, h3, Word.ofBytes_byte]

/-- The other words keep their value. -/
theorem word_setWord_of_ne (b : Block) {i j : Fin 128} (w : UInt32) (h : j ≠ i) :
    (b.setWord i w).word j = b.word j := by
  have hij : j.val ≠ i.val := fun e => h (Fin.ext e)
  have hj := j.isLt
  unfold word
  rw [getElem_setWord_of_ne _ _ _ _ _ (by omega), getElem_setWord_of_ne _ _ _ _ _ (by omega),
    getElem_setWord_of_ne _ _ _ _ _ (by omega), getElem_setWord_of_ne _ _ _ _ _ (by omega)]

end Block

end BlockLayers
