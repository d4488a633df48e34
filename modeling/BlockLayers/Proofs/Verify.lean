import BlockLayers.Proofs.Copy
import BlockLayers.Proofs.Run

/-!
# `BlockLayers.Proofs.Verify`: a byte string is read back

The blocks of a byte string are compared with those of an inode, one
after the other, as far as the string goes. So over a store that answers
with the blocks of a byte string (`Block.padded`), a string of the same
length passes exactly when it is the same string. Zeros behind the end
of the last block are not looked at.

Main statement: `verify_outcome`, over any store.
-/

set_option autoImplicit false

namespace BlockLayers

namespace Block

/-- The first block of a byte string starts with its first piece. -/
theorem take_padded (bytes : List UInt8) :
    (padded bytes 0).toList.take (bytes.take 512).length = bytes.take 512 := by
  refine List.ext_getElem (by simp) fun i hi hi' => ?_
  rw [List.length_take] at hi'
  have hlt : i < bytes.length := by omega
  simp only [List.getElem_take, Vector.getElem_toList, padded, Vector.getElem_ofFn, Nat.mul_zero,
    Nat.zero_add, List.getD_eq_getElem?_getD, List.getElem?_eq_getElem hlt, Option.getD_some]

/-- A byte string is known from its first piece and the rest. -/
theorem eq_iff_pieces {bytes bytes' : List UInt8} :
    bytes' = bytes ↔ bytes.take 512 = bytes'.take 512 ∧ bytes'.drop 512 = bytes.drop 512 := by
  constructor
  · rintro rfl
    exact ⟨rfl, rfl⟩
  · rintro ⟨hfront, hback⟩
    rw [← List.take_append_drop 512 bytes', ← List.take_append_drop 512 bytes, hfront, hback]

end Block

variable {σ : Type} [Journal σ] {below : Store σ} {ino : UInt32} {kept : σ → Prop} {s : σ}

/-- The rest of a byte string is compared with the rest of another. -/
theorem comparePieces_outcome {bytes bytes' : List UInt8} (hlength : bytes'.length = bytes.length)
    {number : UInt32}
    (hread : ∀ k < (bytes.length + 511) / 512, ∀ s, kept s → ∃ after,
      below (.read ⟨ino, number + UInt32.ofNat k⟩) s = .ok (Block.padded bytes k) after ∧
        kept after) (hs : kept s) :
    Op.outcome (comparePieces below ino (Block.chunks bytes') number) s =
      if bytes' = bytes then .ok () else .error (.fault (.corrupted .contentDiffers)) := by
  -- Both strings lose a block at a time, and the numbers go up with them.
  induction bytes' using Block.chunks.induct generalizing bytes number s with
  | case1 bytes' hempty =>
    obtain rfl := List.isEmpty_iff.mp hempty
    obtain rfl := List.length_eq_zero_iff.mp hlength.symm
    rw [Block.chunks]
    rfl
  | case2 bytes' hne ih =>
    have hpos := List.length_pos_iff.mpr fun h => hne (List.isEmpty_iff.mpr h)
    obtain ⟨after, hrun, hafter⟩ := hread 0 (by omega) s hs
    have hpiece : (bytes'.take 512).length = (bytes.take 512).length := by
      rw [List.length_take, List.length_take, hlength]
    rw [show number + UInt32.ofNat 0 = number from UInt32.add_zero number] at hrun
    rw [Block.chunks, if_neg hne, comparePieces, Op.outcome_bind hrun, hpiece, Block.take_padded]
    by_cases hfront : bytes.take 512 = bytes'.take 512
    · have hlength' : (bytes'.drop 512).length = (bytes.drop 512).length := by
        rw [List.length_drop, List.length_drop, hlength]
      rw [if_pos hfront]
      refine (ih hlength' (fun k hk s hs => ?_) hafter).trans ?_
      · -- Block `k` of the rest is the one after.
        rw [List.length_drop] at hk
        obtain ⟨after, hrun, hafter⟩ := hread (k + 1) (by omega) s hs
        have hnumber : number + UInt32.ofNat (k + 1) = number + 1 + UInt32.ofNat k := by
          rw [UInt32.ofNat_add, UInt32.add_assoc, UInt32.add_comm (UInt32.ofNat k)]
          rfl
        rw [hnumber, ← Block.padded_drop] at hrun
        exact ⟨after, hrun, hafter⟩
      · have hrest : bytes' = bytes ↔ bytes'.drop 512 = bytes.drop 512 :=
          Block.eq_iff_pieces.trans (and_iff_right hfront)
        simp only [hrest]
    · rw [if_neg hfront, if_neg fun heq => hfront (Block.eq_iff_pieces.mp heq).1]
      rfl

/-- A store that reads the blocks of a byte string back. -/
theorem verify_outcome {bytes bytes' : List UInt8} (hlength : bytes'.length = bytes.length)
    (hread : ∀ k < (bytes.length + 511) / 512, ∀ s, kept s → ∃ after,
      below (.read ⟨ino, UInt32.ofNat k⟩) s = .ok (Block.padded bytes k) after ∧ kept after)
    (hs : kept s) :
    Op.outcome (verify below ino bytes') s =
      if bytes' = bytes then .ok () else .error (.fault (.corrupted .contentDiffers)) := by
  refine comparePieces_outcome hlength (fun k hk s hs => ?_) hs
  exact (UInt32.zero_add (UInt32.ofNat k)).symm ▸ hread k hk s hs

end BlockLayers
