import BlockLayers.Proofs.Agrees
import BlockLayers.Proofs.Copy

/-!
# `BlockLayers.Proofs.Serves`: requests that a store is ready for

`Serves below asked blame kept` is a contract about some requests only,
those that are `asked`. The store keeps a condition on its state whatever
becomes of them, it does not abort, and it refuses them only where
`blame` holds. Where that does not hold at all, nothing is refused.

Main statements: `Serves.along`, by which a store serves what a store
serves that it agrees with, and `copyIn_serves`, for a copy of a byte
string whose blocks can be numbered.
-/

set_option autoImplicit false

namespace BlockLayers

variable {σ τ : Type} [Journal σ] [Journal τ] {below : Store σ} {below' : Store τ}
  {asked : Request → Prop} {blame : Prop} {kept : σ → Prop}

/-- An operation keeps a condition, and it fails only where `blame`
holds. -/
abbrev Op.Served {α : Type} (blame : Prop) (kept : σ → Prop) (x : Op σ α) (s : σ) : Prop :=
  Op.Ends x s (fun _ after => kept after) fun _ after => kept after ∧ blame

/-- A store keeps a condition under the requests that are asked, and
refuses them only where `blame` holds. -/
structure Serves {σ : Type} [Journal σ] (below : Store σ) (asked : Request → Prop) (blame : Prop)
    (kept : σ → Prop) : Prop where
  /-- A request that is asked. -/
  call : ∀ {q : Request} {s : σ}, asked q → kept s → Op.Served blame kept (below q) s
  /-- A report keeps the condition. -/
  note : ∀ {s : σ} (event : Event), kept s → kept (Journal.enter event s)

/-- A store that agrees with another serves what the other serves. -/
theorem Serves.along {R : σ → τ → Prop} {kept : τ → Prop}
    (h : ∀ q, Op.Agrees R (below q) (below' q))
    (hnote : ∀ event s t, R s t → R (Journal.enter event s) (Journal.enter event t))
    (hS : Serves below' asked blame kept) :
    Serves below asked blame (fun s => ∃ t, R s t ∧ kept t) where
  call := by
    rintro q s hq ⟨t, hR, ht⟩
    refine ((h q).ends hR (hS.call hq ht)).mono (fun _ _ hgood => hgood) ?_
    rintro fault s' ⟨t', hR', ht', hblame⟩
    exact ⟨⟨t', hR', ht'⟩, hblame⟩
  note := by
    rintro s event ⟨t, hR, ht⟩
    exact ⟨_, hnote event s t hR, hS.note event ht⟩

/-! ### A copy -/

/-- The requests of a copy of `count` blocks into an inode. -/
def Request.Copying (ino : UInt32) (count : Nat) : Request → Prop
  | .resize other blocks => other = ino ∧ blocks = 0
  | .write a _ => a.ino = ino ∧ a.offset.toNat < count
  | .sync other => other = ino
  | _ => False

section Copy

variable {ino : UInt32} {count : Nat} {s : σ}

/-- Pieces are written, up to a last block that has a number. -/
theorem writePieces_serves (hS : Serves below (Request.Copying ino count) blame kept)
    (hword : count < 4294967296) {pieces : List (List UInt8)} {number : UInt32}
    (hcount : number.toNat + pieces.length = count) (hs : kept s) :
    Op.Served blame kept (writePieces below ino pieces number) s := by
  induction pieces generalizing number s with
  | nil => exact Op.Ends.pure hs
  | cons piece rest ih =>
    rw [List.length_cons] at hcount
    -- The number is counted up behind the last piece too, and `count` is still a word.
    have hone : (1 : UInt32).toNat = 1 := rfl
    have hnext : Checked.add number 1 = .ok (number + 1) := if_pos (by omega)
    have hsum := Checked.add_eq_ok_iff.mp hnext
    have hasked : Request.Copying ino count (.write ⟨ino, number⟩ (Block.ofBytes piece)) :=
      ⟨rfl, show number.toNat < count by omega⟩
    exact (hS.call hasked hs).seq fun _ after hafter =>
      .lift_seq hnext (ih (by omega) hafter)

/-- A byte string is copied over a store that serves the requests of the
copy. -/
theorem copyIn_serves {bytes : List UInt8}
    (hS : Serves below (Request.Copying ino ((bytes.length + 511) / 512)) blame kept)
    (hword : (bytes.length + 511) / 512 < 4294967296) (hs : kept s) :
    Op.Served blame kept (copyIn below ino bytes) s := by
  have hlength : (0 : UInt32).toNat + (Block.chunks bytes).length = (bytes.length + 511) / 512 := by
    rw [UInt32.toNat_zero, Nat.zero_add, Block.length_chunks]
  have hresize : Request.Copying ino ((bytes.length + 511) / 512) (.resize ino 0) := ⟨rfl, rfl⟩
  have hsync : Request.Copying ino ((bytes.length + 511) / 512) (.sync ino) := rfl
  exact (hS.call hresize hs).seq fun _ _ hs₁ =>
    (writePieces_serves hS hword hlength hs₁).seq fun _ _ hs₂ =>
      (hS.call hsync hs₂).seq fun _ _ hs₃ => .pure hs₃

end Copy

end BlockLayers
