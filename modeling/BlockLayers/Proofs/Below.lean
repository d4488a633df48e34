import BlockLayers.Proofs.Ends
import BlockLayers.Proofs.Plain
import Mathlib.Logic.Function.Basic

/-!
# `BlockLayers.Proofs.Below`: what a layer needs of the store below it

A layer is a function of the store below it, so what is proved of a
layer is proved from a contract that the store below keeps. There are
two. `Backing` is about all inodes of a store (`Plain`), for layers that
pass addresses on; `Medium` is about a single inode of fixed size, for
layers that lay it out themselves. `Legible` is the part of it that a
layer needs which changes nothing, `Discloses` the part that one needs
which reads some places only, and `Permits` the part that one needs which
writes to some places only. `Takes` is about the writes alone.

Both leave room for faults. A contract names the faults that the store
may give, as conditions on the fault and the state after it, and
promises that a call that ends with a fault leaves the content as it is.
`holds s content` says that the content in the state `s` is `content`.

Main statements: `Memory.backing` and `Memory.medium`, the contracts of
a store in memory that is not dead.
-/

set_option autoImplicit false

namespace BlockLayers

/-! ### The two contracts -/

/-- A store that keeps the blocks of all its inodes. The inodes in
`settled` are those whose content has reached the bottom of the stack;
a sync settles its inode. Writes are promised for inodes that are
`allowed` and not settled. A read may fail for the reasons in `lost`,
and a write, a resize or a sync for those in `refused`. -/
structure Backing {σ : Type} [Journal σ] (below : Store σ) (allowed : UInt32 → Prop)
    (lost : Plain → Address → Fault → σ → Prop) (refused : Plain → UInt32 → Fault → σ → Prop)
    (holds : (UInt32 → Prop) → σ → Plain → Prop) : Prop where
  /-- A block that is read is the one that is there. -/
  read : ∀ {settled : UInt32 → Prop} {s : σ} {p : Plain} (a : Address), holds settled s p →
    Op.Ends (below (.read a)) s
      (fun block after => holds settled after p ∧ p.block? a = some block)
      (fun fault after => holds settled after p ∧ lost p a fault after)
  /-- A block is written to an inode that is there. -/
  write : ∀ {settled : UInt32 → Prop} {s : σ} {p : Plain} (a : Address) (block : Block),
    holds settled s p → allowed a.ino → ¬ settled a.ino → Op.Ends (below (.write a block)) s
      (fun _ after => holds settled after (p.write a block) ∧ a.ino.toNat < p.size)
      (fun fault after => holds settled after p ∧ refused p a.ino fault after)
  /-- An inode that is there is resized. -/
  resize : ∀ {settled : UInt32 → Prop} {s : σ} {p : Plain} (ino blocks : UInt32),
    holds settled s p → allowed ino → ¬ settled ino → Op.Ends (below (.resize ino blocks)) s
      (fun _ after => holds settled after (p.resize ino blocks) ∧ ino.toNat < p.size)
      (fun fault after => holds settled after p ∧ refused p ino fault after)
  /-- A sync changes no content. -/
  sync : ∀ {settled : UInt32 → Prop} {s : σ} {p : Plain} (ino : UInt32), holds settled s p →
    allowed ino → Op.Ends (below (.sync ino)) s
      (fun _ after => holds (fun other => other = ino ∨ settled other) after p)
      (fun fault after => holds settled after p ∧ refused p ino fault after)
  /-- Asking for a size changes no content. -/
  size : ∀ {settled : UInt32 → Prop} {s : σ} {p : Plain} (ino : UInt32), holds settled s p →
    Op.Ends (below (.size ino)) s (fun _ after => holds settled after p)
      (fun _ after => holds settled after p)
  /-- Asking for the number of inodes changes no content. -/
  capacity : ∀ {settled : UInt32 → Prop} {s : σ} {p : Plain}, holds settled s p →
    Op.Ends (below .capacity) s (fun _ after => holds settled after p)
      (fun _ after => holds settled after p)
  /-- A report changes no content. -/
  note : ∀ {settled : UInt32 → Prop} {s : σ} {p : Plain} (event : Event), holds settled s p →
    holds settled (Journal.enter event s) p

/-- Requests may be refused for more reasons. -/
theorem Backing.weaken {σ : Type} [Journal σ] {below : Store σ} {allowed : UInt32 → Prop}
    {lost : Plain → Address → Fault → σ → Prop}
    {refused refused' : Plain → UInt32 → Fault → σ → Prop}
    {holds : (UInt32 → Prop) → σ → Plain → Prop} (h : Backing below allowed lost refused holds)
    (hmore : ∀ p ino fault s, refused p ino fault s → refused' p ino fault s) :
    Backing below allowed lost refused' holds where
  read := h.read
  write a block hs ha hfree := (h.write a block hs ha hfree).mono (fun _ _ hgood => hgood)
    fun _ _ hbad => hbad.imp_right (hmore _ _ _ _)
  resize ino blocks hs ha hfree := (h.resize ino blocks hs ha hfree).mono (fun _ _ hgood => hgood)
    fun _ _ hbad => hbad.imp_right (hmore _ _ _ _)
  sync ino hs ha := (h.sync ino hs ha).mono (fun _ _ hgood => hgood)
    fun _ _ hbad => hbad.imp_right (hmore _ _ _ _)
  size := h.size
  capacity := h.capacity
  note := h.note

/-- A store whose inode `ino` has blocks at the places that are `shown`,
which can be read. -/
structure Discloses {σ : Type} [Journal σ] (below : Store σ) (ino : UInt32) (shown : Nat → Prop)
    (blame : Fault → σ → Prop) (holds : σ → (Nat → Block) → Prop) : Prop where
  /-- A block that is read is the one that is there. -/
  read : ∀ {s : σ} {image : Nat → Block} {n : UInt32}, holds s image → shown n.toNat →
    Op.Ends (below (.read ⟨ino, n⟩)) s
      (fun block after => block = image n.toNat ∧ holds after image)
      (fun fault after => holds after image ∧ blame fault after)
  /-- A report changes no content. -/
  note : ∀ {s : σ} {image : Nat → Block} (event : Event), holds s image →
    holds (Journal.enter event s) image

/-- What is promised of more places is promised of fewer. -/
theorem Discloses.restrict {σ : Type} [Journal σ] {below : Store σ} {ino : UInt32}
    {shown shown' : Nat → Prop} {blame : Fault → σ → Prop} {holds : σ → (Nat → Block) → Prop}
    (h : Discloses below ino shown blame holds) (hless : ∀ n, shown' n → shown n) :
    Discloses below ino shown' blame holds where
  read hs hn := h.read hs (hless _ hn)
  note := h.note

/-- A store whose inode `ino` has `size` blocks that can be read. -/
structure Legible {σ : Type} [Journal σ] (below : Store σ) (ino : UInt32) (size : Nat)
    (blame : Fault → σ → Prop) (holds : σ → (Nat → Block) → Prop) : Prop
    extends Discloses below ino (fun n => n < size) blame holds where
  /-- The size of the inode is the one it has. -/
  size : ∀ {s : σ} {image : Nat → Block}, holds s image → Op.Ends (below (.size ino)) s
    (fun count after => count.toNat = size ∧ holds after image)
    (fun fault after => holds after image ∧ blame fault after)

/-- A store whose inode `ino` has `size` blocks that can be read, and
keeps what is written to the places that `may` be written. -/
structure Permits {σ : Type} [Journal σ] (below : Store σ) (ino : UInt32) (size : Nat)
    (may : Nat → Prop) (blame : Fault → σ → Prop) (holds : σ → (Nat → Block) → Prop) : Prop
    extends Legible below ino size blame holds where
  /-- A block is written. -/
  write : ∀ {s : σ} {image : Nat → Block} {n : UInt32} (block : Block), holds s image →
    may n.toNat → Op.Ends (below (.write ⟨ino, n⟩ block)) s
      (fun _ after => holds after (Function.update image n.toNat block))
      (fun fault after => holds after image ∧ blame fault after)

/-- A store whose inode `ino` keeps what is written to the places that
`may` be written. -/
structure Takes {σ : Type} (below : Store σ) (ino : UInt32) (may : Nat → Prop)
    (blame : Fault → σ → Prop) (holds : σ → (Nat → Block) → Prop) : Prop where
  /-- A block is written. -/
  write : ∀ {s : σ} {image : Nat → Block} {n : UInt32} (block : Block), holds s image →
    may n.toNat → Op.Ends (below (.write ⟨ino, n⟩ block)) s
      (fun _ after => holds after (Function.update image n.toNat block))
      (fun fault after => holds after image ∧ blame fault after)

/-- A store that permits writes takes them. -/
theorem Permits.takes {σ : Type} [Journal σ] {below : Store σ} {ino : UInt32} {size : Nat}
    {may : Nat → Prop} {blame : Fault → σ → Prop} {holds : σ → (Nat → Block) → Prop}
    (h : Permits below ino size may blame holds) : Takes below ino may blame holds where
  write := h.write

/-- What is promised of more places is promised of fewer. -/
theorem Takes.restrict {σ : Type} {below : Store σ} {ino : UInt32} {may may' : Nat → Prop}
    {blame : Fault → σ → Prop} {holds : σ → (Nat → Block) → Prop}
    (h : Takes below ino may blame holds) (hless : ∀ n, may' n → may n) :
    Takes below ino may' blame holds where
  write block hs hn := h.write block hs (hless _ hn)

/-- What is promised of more places is promised of fewer. -/
theorem Permits.restrict {σ : Type} [Journal σ] {below : Store σ} {ino : UInt32} {size : Nat}
    {may may' : Nat → Prop} {blame : Fault → σ → Prop} {holds : σ → (Nat → Block) → Prop}
    (h : Permits below ino size may blame holds) (hless : ∀ n, may' n → may n) :
    Permits below ino size may' blame holds where
  toLegible := h.toLegible
  write block hs hn := h.write block hs (hless _ hn)

/-- A store that keeps `blocks` blocks on the inode `ino`. -/
structure Medium {σ : Type} [Journal σ] (below : Store σ) (ino : UInt32) (blocks : Nat)
    (blame : Fault → σ → Prop) (holds : σ → (Nat → Block) → Prop) : Prop
    extends Permits below ino blocks (fun n => n < blocks) blame holds where
  /-- A sync changes no content. -/
  sync : ∀ {s : σ} {image : Nat → Block}, holds s image → Op.Ends (below (.sync ino)) s
    (fun _ after => holds after image) (fun fault after => holds after image ∧ blame fault after)

/-- The inode that a request is to. -/
def Request.inode? : Request → Option UInt32
  | .capacity => none
  | .size ino => some ino
  | .resize ino _ => some ino
  | .read a => some a.ino
  | .write a _ => some a.ino
  | .sync ino => some ino

/-- The requests that change what a store keeps. -/
def Request.changes : Request → Bool
  | .write _ _ => true
  | .resize _ _ => true
  | _ => false

/-- A request that changes nothing, or that writes to one of the places
of the inode `ino` that `may` be written. -/
def Request.Writes (ino : UInt32) (may : Nat → Prop) (q : Request) : Prop :=
  q.changes = true → ∃ n block, q = .write ⟨ino, n⟩ block ∧ may n.toNat

/-- A request that changes nothing writes nowhere. -/
theorem Request.Writes.of_not_changes {q : Request} (h : q.changes = false) (ino : UInt32)
    (may : Nat → Prop) : q.Writes ino may := fun hchanges => by
  rw [h] at hchanges
  cases hchanges

/-- A request to one of the first `size` inodes, or to none. -/
def Request.Within (size : Nat) (q : Request) : Prop :=
  ∀ ino, q.inode? = some ino → ino.toNat < size

/-! ### The store in memory -/

namespace Memory

/-- The store after one more call. -/
def called (m : Memory) : Memory := { m with calls := m.calls + 1 }

/-- A store that is not dead counts the call and goes on. -/
theorem enter_apply {m : Memory} (h : m.dead = false) : enter m = .ok () m.called := by
  obtain ⟨inodes, dead, calls⟩ := m
  subst h
  rfl

/-- An inode is refused exactly when it is not there. -/
theorem checkInode_apply (ino : UInt32) (m : Memory) :
    checkInode ino m = if m.inodes.size ≤ ino.toNat then
      .error (.fault (.noInode ino (UInt32.ofNat m.inodes.size))) m else .ok () m := by
  unfold checkInode
  rw [Op.bind_apply, Op.get_apply]
  dsimp only
  split <;> rfl

variable {m : Memory}

/-- A request to an inode that is not there is refused. -/
theorem store_apply_of_le (h : m.dead = false) {q : Request} {ino : UInt32}
    (hq : q.inode? = some ino) (hino : m.inodes.size ≤ ino.toNat) :
    store q m = .error (.fault (.noInode ino (UInt32.ofNat m.inodes.size))) m.called := by
  cases q <;> cases hq <;>
    simp only [store, Op.bind_apply, enter_apply h, checkInode_apply] <;>
    rw [if_pos (show m.called.inodes.size ≤ _ from hino)] <;> rfl

/-- Reading from an inode that is there. -/
theorem read_eq (h : m.dead = false) {a : Address} (hino : a.ino.toNat < m.inodes.size) :
    store (.read a) m = match Plain.block? m.inodes a with
      | some block => .ok block m.called
      | none => .error (.fault (.pastEnd a.ino a.offset
          (UInt32.ofNat (m.inodes.getD a.ino.toNat #[]).size))) m.called := by
  simp only [store, Op.bind_apply, enter_apply h, checkInode_apply]
  rw [if_neg (show ¬ m.called.inodes.size ≤ a.ino.toNat from Nat.not_le.mpr hino)]
  simp only [Op.get_apply]
  unfold Plain.block? Plain.at_
  cases hblock : (m.called.inodes.getD a.ino.toNat #[])[a.offset.toNat]? with
  | some block =>
    rw [show (m.inodes.getD a.ino.toNat #[])[a.offset.toNat]? = some block from hblock]
    rfl
  | none =>
    rw [show (m.inodes.getD a.ino.toNat #[])[a.offset.toNat]? = none from hblock]
    rfl

/-- Reading from a store that is not dead. -/
theorem read_apply (h : m.dead = false) (a : Address) :
    (∃ block, Plain.block? m.inodes a = some block ∧ store (.read a) m = .ok block m.called) ∨
      Plain.block? m.inodes a = none ∧
        ∃ fault, store (.read a) m = .error (.fault fault) m.called := by
  -- An inode that is not there has no blocks, so the two reasons to refuse a read are one.
  by_cases hino : a.ino.toNat < m.inodes.size
  · rw [read_eq h hino]
    cases hblock : Plain.block? m.inodes a with
    | some block => exact .inl ⟨block, rfl, rfl⟩
    | none => exact .inr ⟨rfl, _, rfl⟩
  · have hle := Nat.not_lt.mp hino
    refine .inr ⟨?_, _, store_apply_of_le h rfl hle⟩
    simp [Plain.block?, Plain.at_, Array.getD_eq_getD_getElem?, Array.getElem?_eq_none hle]

/-- Writing to an inode that is there. -/
theorem write_apply (h : m.dead = false) {a : Address} (block : Block)
    (hino : a.ino.toNat < m.inodes.size) :
    store (.write a block) m =
      .ok () { m.called with inodes := Plain.write a block m.inodes } := by
  simp only [store, Op.bind_apply, enter_apply h, checkInode_apply]
  rw [if_neg (show ¬ m.called.inodes.size ≤ a.ino.toNat from Nat.not_le.mpr hino)]
  rfl

/-- Resizing an inode that is there. -/
theorem resize_apply (h : m.dead = false) {ino : UInt32} (blocks : UInt32)
    (hino : ino.toNat < m.inodes.size) :
    store (.resize ino blocks) m =
      .ok (UInt32.ofNat (m.inodes.getD ino.toNat #[]).size)
        { m.called with inodes := Plain.resize ino blocks m.inodes } := by
  simp only [store, Op.bind_apply, enter_apply h, checkInode_apply]
  rw [if_neg (show ¬ m.called.inodes.size ≤ ino.toNat from Nat.not_le.mpr hino)]
  rfl

/-- Asking for the size of an inode that is there. -/
theorem size_apply (h : m.dead = false) {ino : UInt32} (hino : ino.toNat < m.inodes.size) :
    store (.size ino) m = .ok (UInt32.ofNat (m.inodes.getD ino.toNat #[]).size) m.called := by
  simp only [store, Op.bind_apply, enter_apply h, checkInode_apply]
  rw [if_neg (show ¬ m.called.inodes.size ≤ ino.toNat from Nat.not_le.mpr hino)]
  rfl

/-- A sync of an inode that is there. -/
theorem sync_apply (h : m.dead = false) {ino : UInt32} (hino : ino.toNat < m.inodes.size) :
    store (.sync ino) m = .ok () m.called := by
  simp only [store, Op.bind_apply, enter_apply h, checkInode_apply]
  rw [if_neg (show ¬ m.called.inodes.size ≤ ino.toNat from Nat.not_le.mpr hino)]

/-- A dead store refuses every request. -/
theorem store_dead (h : m.dead = true) (q : Request) :
    store q m = .error (.fault .io) m.called := by
  obtain ⟨inodes, dead, calls⟩ := m
  subst h
  cases q <;> rfl

/-- Stores with the same content, both dead or both not. Their numbers of
calls may differ. -/
structure Alike (m m' : Memory) : Prop where
  inodes : m.inodes = m'.inodes
  dead : m.dead = m'.dead

/-- Stores that are alike answer alike and are alike again. A fault
leaves the content as it is. -/
theorem store_alike {m' : Memory} (h : Alike m m') (q : Request) :
    Op.Ends (store q) m
      (fun value after => ∃ after', store q m' = .ok value after' ∧ Alike after after' ∧
        after.dead = m.dead)
      fun fault after => ∃ after', store q m' = .error (.fault fault) after' ∧
        Alike after after' ∧ Alike after m := by
  obtain ⟨inodes, dead, calls⟩ := m
  obtain ⟨inodes', dead', calls'⟩ := m'
  obtain ⟨rfl, rfl⟩ := h
  -- A dead store refuses everything, and any other one first the inodes that it does not have.
  cases dead with
  | true => exact .of_fault (store_dead rfl q) ⟨_, store_dead rfl q, ⟨rfl, rfl⟩, rfl, rfl⟩
  | false =>
    by_cases hout : ∃ ino, q.inode? = some ino ∧ inodes.size ≤ ino.toNat
    · obtain ⟨ino, hq, hino⟩ := hout
      exact .of_fault (store_apply_of_le rfl hq hino)
        ⟨_, store_apply_of_le rfl hq hino, ⟨rfl, rfl⟩, rfl, rfl⟩
    · -- All other requests are to inodes that both stores have, or to none.
      have hin : ∀ ino, q.inode? = some ino → ino.toNat < inodes.size := by
        simpa only [not_exists, not_and, Nat.not_le] using hout
      cases q with
      | capacity => exact ⟨_, rfl, ⟨rfl, rfl⟩, rfl⟩
      | size ino =>
        have hino := hin ino rfl
        exact .of_ok (size_apply rfl hino) ⟨_, size_apply rfl hino, ⟨rfl, rfl⟩, rfl⟩
      | resize ino blocks =>
        have hino := hin ino rfl
        exact .of_ok (resize_apply rfl blocks hino)
          ⟨_, resize_apply rfl blocks hino, ⟨rfl, rfl⟩, rfl⟩
      | read a =>
        unfold Op.Ends
        rw [read_eq rfl (hin a.ino rfl), read_eq rfl (hin a.ino rfl)]
        cases Plain.block? inodes a with
        | some block => exact ⟨_, rfl, ⟨rfl, rfl⟩, rfl⟩
        | none => exact ⟨_, rfl, ⟨rfl, rfl⟩, rfl, rfl⟩
      | write a block =>
        have hino := hin a.ino rfl
        exact .of_ok (write_apply rfl block hino)
          ⟨_, write_apply rfl block hino, ⟨rfl, rfl⟩, rfl⟩
      | sync ino =>
        have hino := hin ino rfl
        exact .of_ok (sync_apply rfl hino) ⟨_, sync_apply rfl hino, ⟨rfl, rfl⟩, rfl⟩

/-- The content of a store that is not dead. All of it is settled. -/
def Healthy (_ : UInt32 → Prop) (m : Memory) (p : Plain) : Prop := m.dead = false ∧ m.inodes = p

/-- Reads fail where there is no block. -/
def Missing (p : Plain) (a : Address) (_ : Fault) (_ : Memory) : Prop := p.block? a = none

/-- Changes are refused to inodes that are not there. -/
def NoInode (p : Plain) (ino : UInt32) (fault : Fault) (_ : Memory) : Prop :=
  p.size ≤ ino.toNat ∧ fault = .noInode ino (UInt32.ofNat p.size)

/-- A store in memory that is not dead keeps all of its inodes, and
refuses only what is not there. -/
theorem backing : Backing store (fun _ => True) Missing NoInode Healthy where
  read := by
    rintro _ m _ a ⟨h, rfl⟩
    -- The answer is the block that is there, and a fault says that there is none.
    rcases read_apply h a with ⟨block, hblock, hrun⟩ | ⟨hblock, fault, hrun⟩
    · exact .of_ok hrun ⟨⟨h, rfl⟩, hblock⟩
    · exact .of_fault hrun ⟨⟨h, rfl⟩, hblock⟩
  write := by
    rintro _ m _ a block ⟨h, rfl⟩ - -
    by_cases hino : a.ino.toNat < m.inodes.size
    · exact .of_ok (write_apply h block hino) ⟨⟨h, rfl⟩, hino⟩
    · have hle := Nat.not_lt.mp hino
      exact .of_fault (store_apply_of_le h rfl hle) ⟨⟨h, rfl⟩, hle, rfl⟩
  resize := by
    rintro _ m _ ino blocks ⟨h, rfl⟩ - -
    by_cases hino : ino.toNat < m.inodes.size
    · exact .of_ok (resize_apply h blocks hino) ⟨⟨h, rfl⟩, hino⟩
    · have hle := Nat.not_lt.mp hino
      exact .of_fault (store_apply_of_le h rfl hle) ⟨⟨h, rfl⟩, hle, rfl⟩
  sync := by
    rintro _ m _ ino ⟨h, rfl⟩ -
    by_cases hino : ino.toNat < m.inodes.size
    · exact .of_ok (sync_apply h hino) ⟨h, rfl⟩
    · have hle := Nat.not_lt.mp hino
      exact .of_fault (store_apply_of_le h rfl hle) ⟨⟨h, rfl⟩, hle, rfl⟩
  size := by
    rintro _ m _ ino ⟨h, rfl⟩
    by_cases hino : ino.toNat < m.inodes.size
    · exact .of_ok (size_apply h hino) ⟨h, rfl⟩
    · exact .of_fault (store_apply_of_le h rfl (Nat.not_lt.mp hino)) ⟨h, rfl⟩
  capacity := by
    rintro _ m _ ⟨h, rfl⟩
    simp only [store, Op.Ends, Op.bind_apply, enter_apply h]
    exact ⟨h, rfl⟩
  note := fun _ h => h

/-- A request that is no change leaves the content as it is. -/
theorem store_keeps {q : Request} (hq : q.changes = false) :
    Op.Ends (store q) m (fun _ after => Alike after m) fun _ after => Alike after m := by
  -- What an answer leaves is known from the contract, and what a fault leaves from a store that is
  -- alike.
  have hinodes : Op.Ends (store q) m (fun _ after => after.inodes = m.inodes) fun _ _ => True := by
    by_cases h : m.dead = true
    · exact .of_fault (store_dead h q) trivial
    have hm : Healthy (fun _ => True) m m.inodes := ⟨Bool.eq_false_iff.mpr h, rfl⟩
    cases q with
    | capacity => exact (backing.capacity hm).mono (fun _ _ hkept => hkept.2) fun _ _ _ => trivial
    | size ino => exact (backing.size ino hm).mono (fun _ _ hkept => hkept.2) fun _ _ _ => trivial
    | read a => exact (backing.read a hm).mono (fun _ _ hkept => hkept.1.2) fun _ _ _ => trivial
    | sync ino =>
      exact (backing.sync ino hm trivial).mono (fun _ _ hkept => hkept.2) fun _ _ _ => trivial
    | _ => cases hq
  refine (hinodes.and (store_alike ⟨rfl, rfl⟩ q)).mono ?_ ?_
  · rintro value after ⟨hkept, _, -, -, hdead⟩
    exact ⟨hkept, hdead⟩
  · rintro fault after ⟨-, _, -, -, halike⟩
    exact halike

/-- The inode `ino` of a store that is not dead has the blocks of an
image. Its size is told as a word. -/
def Carries (ino : UInt32) (size : Nat) (m : Memory) (image : Nat → Block) : Prop :=
  m.dead = false ∧ ∃ blocks : Array Block, m.inodes[ino.toNat]? = some blocks ∧
    blocks.size % 4294967296 = size ∧ ∀ n < size, blocks[n]? = some (image n)

/-- The images of an inode are the same within its size. -/
theorem Carries.image_eq {ino : UInt32} {size : Nat} {image image' : Nat → Block}
    (h : Carries ino size m image) (h' : Carries ino size m image') :
    ∀ n < size, image n = image' n := by
  obtain ⟨-, blocks, hblocks, -, himage⟩ := h
  obtain ⟨-, blocks', hblocks', -, himage'⟩ := h'
  cases hblocks.symm.trans hblocks'
  exact fun n hn => Option.some.inj ((himage n hn).symm.trans (himage' n hn))

/-- An inode of a store in memory that is not dead keeps its blocks, and
nothing within its size is refused. -/
theorem medium (ino : UInt32) (size : Nat) :
    Medium store ino size (fun _ _ => False) (Carries ino size) where
  read := by
    rintro m image n ⟨h, blocks, hblocks, hcount, himage⟩ hn
    have hread : Plain.block? m.inodes ⟨ino, n⟩ = some (image n.toNat) := by
      simp only [Plain.block?, Plain.at_, Array.getD_eq_getD_getElem?, hblocks, Option.getD_some]
      exact himage _ hn
    rcases read_apply h ⟨ino, n⟩ with ⟨block, hblock, hrun⟩ | ⟨hblock, -⟩
    · rw [hread, Option.some.injEq] at hblock
      exact .of_ok hrun ⟨hblock.symm, h, blocks, hblocks, hcount, himage⟩
    · rw [hread] at hblock
      cases hblock
  write := by
    rintro m image n block ⟨h, blocks, hblocks, hcount, himage⟩ hn
    have hino : ino.toNat < m.inodes.size := (Array.getElem?_eq_some_iff.mp hblocks).1
    refine .of_ok (write_apply h (a := ⟨ino, n⟩) block hino)
      ⟨h, put blocks n.toNat block, ?_, ?_, fun k hk => ?_⟩
    · simp [Plain.write, Array.getElem?_modify, hblocks]
    · have hle := Nat.mod_le blocks.size 4294967296
      rw [put, dif_pos (by omega), Array.size_set, hcount]
    · by_cases hkn : k = n.toNat
      · subst hkn
        rw [put_getElem?_self, Function.update_self]
      · have hle := Nat.mod_le blocks.size 4294967296
        rw [put_getElem?_of_ne _ _ hkn, if_pos (by omega), Function.update_of_ne hkn]
        exact himage k hk
  size := by
    rintro m image ⟨h, blocks, hblocks, hcount, himage⟩
    have hino : ino.toNat < m.inodes.size := (Array.getElem?_eq_some_iff.mp hblocks).1
    refine .of_ok (size_apply h hino) ⟨?_, h, blocks, hblocks, hcount, himage⟩
    simp only [Array.getD_eq_getD_getElem?, hblocks, Option.getD_some]
    exact (UInt32.toNat_ofNat' ..).trans hcount
  sync := by
    rintro m image ⟨h, blocks, hblocks, hrest⟩
    have hino : ino.toNat < m.inodes.size := (Array.getElem?_eq_some_iff.mp hblocks).1
    exact .of_ok (sync_apply h hino) ⟨h, blocks, hblocks, hrest⟩
  note := fun _ h => h

end Memory

end BlockLayers
