import BlockLayers.Copy
import BlockLayers.Proofs.Below
import BlockLayers.Proofs.Mimics
import Mathlib.Data.List.Basic

/-!
# `BlockLayers.Proofs.Copy`: what a copy leaves in an inode

A byte string is copied into an inode block by block, so the inode ends
up with the blocks of the string (`Block.blocksOf`), the last one filled
up with zeros, and no other inode changes (`Plain.Replaced`). That is
said of every store that keeps the contract, for a copy that reaches its
end; nothing is known of one that is refused half way.

Main statements: `copyIn_toNat` (how many blocks a copy tells, over any
store at all), `copyIn_holds` and `copyIn_mimics`.
-/

set_option autoImplicit false

namespace BlockLayers

namespace Block

/-- Block `k` of a byte string, with zeros behind the end of the
string. -/
def padded (bytes : List UInt8) (k : Nat) : Block :=
  Vector.ofFn fun i => bytes.getD (512 * k + i.val) 0

/-- The blocks that a byte string fills. -/
def blocksOf (bytes : List UInt8) : List Block :=
  (List.range ((bytes.length + 511) / 512)).map (padded bytes)

/-- The number of blocks that a byte string fills. -/
theorem length_blocksOf (bytes : List UInt8) :
    (blocksOf bytes).length = (bytes.length + 511) / 512 := by
  rw [blocksOf, List.length_map, List.length_range]

/-- The first piece makes the first block. -/
theorem ofBytes_take (bytes : List UInt8) : ofBytes (bytes.take 512) = padded bytes 0 := by
  refine Vector.ext fun i hi => ?_
  simp only [ofBytes, padded, Vector.getElem_ofFn, Array.getD_eq_getD_getElem?,
    List.getElem?_toArray, List.getD_eq_getElem?_getD, List.getElem?_take, if_pos hi, Nat.mul_zero,
    Nat.zero_add]

/-- The later blocks are those of the rest. -/
theorem padded_drop (bytes : List UInt8) (k : Nat) :
    padded (bytes.drop 512) k = padded bytes (k + 1) := by
  refine Vector.ext fun i hi => ?_
  simp only [padded, Vector.getElem_ofFn, List.getD_eq_getElem?_getD, List.getElem?_drop]
  rw [show 512 + (512 * k + i) = 512 * (k + 1) + i by omega]

/-- The pieces of a byte string make its blocks. -/
theorem map_ofBytes_chunks (bytes : List UInt8) : (chunks bytes).map ofBytes = blocksOf bytes := by
  induction bytes using chunks.induct with
  | case1 bytes hempty =>
    obtain rfl := List.isEmpty_iff.mp hempty
    rw [chunks]
    rfl
  | case2 bytes hne ih =>
    have hpos := List.length_pos_iff.mpr fun h => hne (List.isEmpty_iff.mpr h)
    -- The rest fills one block less than the whole.
    have hcount : (bytes.length + 511) / 512 = ((bytes.drop 512).length + 511) / 512 + 1 := by
      rw [List.length_drop]
      omega
    rw [chunks, if_neg hne, List.map_cons, ih, ofBytes_take, blocksOf, blocksOf, hcount,
      List.range_succ_eq_map, List.map_cons, List.map_map]
    exact congrArg _ (List.map_congr_left fun k _ => padded_drop bytes k)

/-- The number of pieces that a byte string is cut into. -/
theorem length_chunks (bytes : List UInt8) :
    (chunks bytes).length = (bytes.length + 511) / 512 := by
  rw [← length_blocksOf, ← map_ofBytes_chunks, List.length_map]

end Block

/-! ### Other blocks of one inode -/

/-- A content in which one inode has other blocks. -/
structure Plain.Replaced (ino : UInt32) (blocks : List Block) (p p' : Plain) : Prop where
  size_eq : p'.size = p.size
  self : ∀ k, p'.at_ ino.toNat k = blocks[k]?
  other : ∀ i k, i ≠ ino.toNat → p'.at_ i k = p.at_ i k

namespace Plain.Replaced

variable {ino : UInt32} {blocks : List Block} {p p' : Plain}

/-- An inode that is emptied. -/
theorem emptied (hino : ino.toNat < p.size) : Replaced ino [] p (p.resize ino 0) where
  size_eq := size_resize ..
  self k := by
    rw [at_resize _ hino, if_pos rfl, UInt32.toNat_zero, if_neg (Nat.not_lt_zero k)]
    rfl
  other i k hi := by rw [at_resize _ hino, if_neg hi]

/-- One more block is written behind the others. -/
theorem append (h : Replaced ino blocks p p') (hino : ino.toNat < p'.size) {number : UInt32}
    (hnumber : number.toNat = blocks.length) (block : Block) :
    Replaced ino (blocks ++ [block]) p (p'.write ⟨ino, number⟩ block) where
  size_eq := (size_write ..).trans h.size_eq
  self k := by
    have hat := at_write (a := ⟨ino, number⟩) block hino ino.toNat k
    simp only [true_and, h.self, hnumber] at hat
    rw [hat]
    -- Before the new block the old ones stay, and behind it there is nothing.
    rcases Nat.lt_trichotomy k blocks.length with hlt | rfl | hgt
    · rw [if_neg (Nat.ne_of_lt hlt), if_pos hlt, List.getElem?_append_left hlt,
        List.getElem?_eq_getElem hlt, Option.getD_some]
    · rw [if_pos rfl, List.getElem?_concat_length]
    · rw [if_neg (Nat.ne_of_gt hgt), if_neg (by omega), List.getElem?_eq_none (by omega),
        List.getElem?_eq_none (by rw [List.length_append, List.length_singleton]; omega)]
  other i k hi := by
    rw [at_write (a := ⟨ino, number⟩) block hino, if_neg fun hat => hi hat.1,
      if_neg fun hat => hi hat.1]
    exact h.other i k hi

end Plain.Replaced

/-! ### A copy that reaches its end -/

section Copy

variable {σ τ : Type} {below : Store σ} {below' : Store τ} {ino : UInt32}

/-- The number behind the last piece. -/
theorem writePieces_toNat {pieces : List (List UInt8)} {number k : UInt32} {s after : σ}
    (h : writePieces below ino pieces number s = .ok k after) :
    k.toNat = number.toNat + pieces.length := by
  induction pieces generalizing number s with
  | nil =>
    cases h
    rfl
  | cons piece rest ih =>
    obtain ⟨_, s₁, -, h⟩ := Op.exists_of_bind_ok h
    obtain ⟨next, s₂, hnext, h⟩ := Op.exists_of_bind_ok h
    have hsum := Checked.add_eq_ok_iff.mp (Op.of_lift_ok hnext).1
    rw [UInt32.toNat_one] at hsum
    rw [ih h, List.length_cons]
    omega

/-- A copy tells the number of blocks that the byte string fills. -/
theorem copyIn_toNat {bytes : List UInt8} {k : UInt32} {s after : σ}
    (h : copyIn below ino bytes s = .ok k after) : k.toNat = (bytes.length + 511) / 512 := by
  obtain ⟨_, s₁, -, h⟩ := Op.exists_of_bind_ok h
  obtain ⟨blocks, s₂, hpieces, h⟩ := Op.exists_of_bind_ok h
  obtain ⟨_, s₃, -, h⟩ := Op.exists_of_bind_ok h
  cases h
  rw [writePieces_toNat hpieces, UInt32.toNat_zero, Nat.zero_add, Block.length_chunks]

/-- A copy does to a store what it does to one that answers alike. -/
theorem copyIn_mimics {R : σ → τ → Prop} (h : ∀ q, Op.Mimics R (below q) (below' q))
    (ino : UInt32) (bytes : List UInt8) :
    Op.Mimics R (copyIn below ino bytes) (copyIn below' ino bytes) := by
  -- Piece by piece, by induction on the pieces, and for every number to begin with.
  have hpieces : ∀ pieces number,
      Op.Mimics R (writePieces below ino pieces number) (writePieces below' ino pieces number) := by
    intro pieces
    induction pieces with
    | nil => exact fun _ => .pure
    | cons piece rest ih => exact fun number => .bind (h _) fun _ => .bind .lift fun next => ih next
  exact .bind (h _) fun _ => .bind (hpieces _ _) fun _ => .bind (h _) fun _ => .pure

variable [Journal σ] {allowed : UInt32 → Prop} {lost : Plain → Address → Fault → σ → Prop}
  {refused : Plain → UInt32 → Fault → σ → Prop} {holds : (UInt32 → Prop) → σ → Plain → Prop}
  {settled : UInt32 → Prop} {p p' : Plain} {s after : σ} {k : UInt32}

/-- The pieces stand behind the blocks that the inode had. -/
theorem writePieces_holds (hB : Backing below allowed lost refused holds) (hallowed : allowed ino)
    (hfree : ¬ settled ino) {pieces : List (List UInt8)} {number : UInt32} {blocks : List Block}
    (hnumber : number.toNat = blocks.length) (hs : holds settled s p')
    (hp : p.Replaced ino blocks p')
    (hrun : writePieces below ino pieces number s = .ok k after) :
    ∃ p'', holds settled after p'' ∧
      p.Replaced ino (blocks ++ pieces.map Block.ofBytes) p'' := by
  induction pieces generalizing number blocks p' s with
  | nil =>
    cases hrun
    exact ⟨p', hs, by rwa [List.map_nil, List.append_nil]⟩
  | cons piece rest ih =>
    obtain ⟨_, s₁, hwrite, hrun⟩ := Op.exists_of_bind_ok hrun
    obtain ⟨next, s₂, hnext, hrest⟩ := Op.exists_of_bind_ok hrun
    obtain ⟨hs₁, hino⟩ := (hB.write _ _ hs hallowed hfree).good_of hwrite
    obtain ⟨hadd, rfl⟩ := Op.of_lift_ok hnext
    -- The next number counts the piece that was just written.
    have hlength : next.toNat = (blocks ++ [Block.ofBytes piece]).length := by
      rw [← Checked.add_eq_ok_iff.mp hadd, hnumber, List.length_append]
      rfl
    obtain ⟨p'', hafter, hp''⟩ := ih hlength hs₁ (hp.append hino hnumber _) hrest
    refine ⟨p'', hafter, ?_⟩
    rwa [List.map_cons, List.append_cons]

/-- After a copy the inode has the blocks of the byte string, every
other inode what it had, and the inode is settled. -/
theorem copyIn_holds (hB : Backing below allowed lost refused holds) (hallowed : allowed ino)
    (hfree : ¬ settled ino) {bytes : List UInt8} (hs : holds settled s p)
    (hrun : copyIn below ino bytes s = .ok k after) :
    ∃ p', holds (fun other => other = ino ∨ settled other) after p' ∧
      p.Replaced ino (Block.blocksOf bytes) p' := by
  obtain ⟨_, s₁, hresize, hrun⟩ := Op.exists_of_bind_ok hrun
  obtain ⟨blocks, s₂, hpieces, hrun⟩ := Op.exists_of_bind_ok hrun
  obtain ⟨_, s₃, hsync, hrun⟩ := Op.exists_of_bind_ok hrun
  cases hrun
  obtain ⟨hs₁, hino⟩ := (hB.resize _ _ hs hallowed hfree).good_of hresize
  -- The resize empties the inode, the pieces fill it, and the sync settles it.
  have hempty : p.Replaced ino [] (p.resize ino 0) := .emptied hino
  obtain ⟨p', hs₂, hp'⟩ := writePieces_holds hB hallowed hfree rfl hs₁ hempty hpieces
  rw [List.nil_append, Block.map_ofBytes_chunks] at hp'
  exact ⟨p', (hB.sync _ hs₂ hallowed).good_of hsync, hp'⟩

end Copy

end BlockLayers
