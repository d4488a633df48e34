import BlockLayers.Image
import BlockLayers.Proofs.Agrees
import BlockLayers.Proofs.Host.Directory

/-!
# `BlockLayers.Proofs.Image.Calls`: what an image does to its file

An image that is open for reading and writing refuses nothing but other
inodes and reads behind its end, and what it does is done to one file of
the directory (`changed`). `Asks` splits the requests accordingly, and
there is an equation for each of them.

Main statements: `medium`, the contract that an image keeps within its
size, and `exchange`. Images of files with the same bytes (`SameBytes`)
end every request alike and leave files with the same bytes.
-/

set_option autoImplicit false

namespace BlockLayers.Image

open Host (Machine File Directory)

/-! ### Calls of an image -/

section Calls

variable {name : String} {m : Machine}

/-- The image of the file with a kept name, open for everything. -/
def ofFile (name : String) : Image := ⟨.file name, .readWrite⟩

/-- The number of blocks that the image of a file tells. -/
def told (name : String) (m : Machine) : UInt32 :=
  UInt32.ofNat ((m.directory.get name).length / 512)

/-- The machine after a change to a file. -/
def changed (name : String) (f : File → File) (m : Machine) : Machine :=
  m.onDirectory (Directory.alter name f)

/-- A file that is changed is there as before. -/
theorem mem_changed {f : File → File} :
    name ∈ (changed name f m).directory.files ↔ name ∈ m.directory.files :=
  Directory.mem_alter

/-- A file becomes what it is changed to. -/
theorem get_changed (h : name ∈ m.directory.files) (f : File → File) :
    (changed name f m).directory.get name = f (m.directory.get name) :=
  Directory.get_alter h f

/-- What an image can be asked: something of another inode than its own,
or one of the six requests. -/
inductive Asks : Request → Prop
  | other {q : Request} {ino : UInt32} (hq : q.inode? = some ino) (hino : ino ≠ 0) : Asks q
  | capacity : Asks .capacity
  | size : Asks (.size 0)
  | resize (blocks : UInt32) : Asks (.resize 0 blocks)
  | read (offset : UInt32) : Asks (.read ⟨0, offset⟩)
  | write (offset : UInt32) (block : Block) : Asks (.write ⟨0, offset⟩ block)
  | sync : Asks (.sync 0)

/-- There are no other requests. -/
theorem asks (q : Request) : Asks q := by
  by_cases hother : ∃ ino, q.inode? = some ino ∧ ino ≠ 0
  · obtain ⟨ino, hq, hino⟩ := hother
    exact .other hq hino
  -- So the inode of the request, if it has one, is the first.
  have hzero : ∀ ino, q.inode? = some ino → ino = 0 := by
    simpa only [not_exists, not_and, not_not] using hother
  cases q with
  | capacity => exact .capacity
  | size ino =>
    obtain rfl := hzero ino rfl
    exact .size
  | resize ino blocks =>
    obtain rfl := hzero ino rfl
    exact .resize blocks
  | read a =>
    obtain ⟨ino, offset⟩ := a
    obtain rfl := hzero ino rfl
    exact .read offset
  | write a block =>
    obtain ⟨ino, offset⟩ := a
    obtain rfl := hzero ino rfl
    exact .write offset block
  | sync ino =>
    obtain rfl := hzero ino rfl
    exact .sync

/-- Every inode but the first is refused, and the machine stays as it
is. -/
theorem checkInode_apply (ino : UInt32) (m : Machine) :
    checkInode ino m = if ino = 0 then .ok () m else .error (.fault (.noInode ino 1)) m := by
  unfold checkInode
  split <;> rfl

/-- An image has one inode. -/
theorem store_apply_of_ne {q : Request} {ino : UInt32} (hq : q.inode? = some ino) (hino : ino ≠ 0) :
    (ofFile name).store q m = .error (.fault (.noInode ino 1)) m := by
  cases q <;> cases hq <;> simp only [store, Op.bind_apply, checkInode_apply, if_neg hino]

/-- The size of an image is told. -/
theorem size_apply : (ofFile name).store (.size 0) m = .ok (told name m) m := rfl

/-- An image is cut or grows, and its old size is told. -/
theorem resize_apply (blocks : UInt32) :
    (ofFile name).store (.resize 0 blocks) m =
      .ok (told name m) (changed name (fun file => file.setLength (512 * blocks.toNat)) m) := rfl

/-- A block is read unless it lies behind the end that is told. -/
theorem read_apply (name : String) (m : Machine) (offset : UInt32) :
    (ofFile name).store (.read ⟨0, offset⟩) m =
      if told name m ≤ offset then .error (.fault (.pastEnd 0 offset (told name m))) m
      else .ok ((m.directory.get name).blockAt offset.toNat) m := by
  by_cases h : told name m ≤ offset
  · rw [if_pos h]
    show (if told name m ≤ offset then _ else _ : Op Machine Block) m = _
    rw [if_pos h]
    rfl
  · rw [if_neg h]
    show (if told name m ≤ offset then _ else _ : Op Machine Block) m = _
    rw [if_neg h]
    rfl

/-- A block is put into the file, however far behind its end. -/
theorem write_apply (offset : UInt32) (block : Block) :
    (ofFile name).store (.write ⟨0, offset⟩ block) m =
      .ok () (changed name (fun file => file.putBlock offset.toNat block) m) := rfl

/-- There is nothing to sync. -/
theorem sync_apply : (ofFile name).store (.sync 0) m = .ok () m := rfl

end Calls

/-! ### Files with the same bytes -/

/-- Two files have the same bytes, on machines whose logs keep the same
events. -/
structure SameBytes (name name' : String) (m n : Machine) : Prop where
  mem : name ∈ m.directory.files
  mem' : name' ∈ n.directory.files
  filter : m.filter = n.filter
  bytes : ∃ bytes, (m.directory.get name).Has bytes ∧ (n.directory.get name').Has bytes

/-- A report leaves the directory and the filter of the log. -/
theorem enter_directory (event : Event) (m : Machine) :
    (Journal.enter event m).directory = m.directory ∧ (Journal.enter event m).filter = m.filter := by
  show (if m.filter.keeps event then _ else _ : Machine).directory = _ ∧
    (if m.filter.keeps event then _ else _ : Machine).filter = _
  split <;> exact ⟨rfl, rfl⟩

namespace SameBytes

variable {name name' : String} {m n : Machine}

/-- The same is done to both files. -/
theorem changed (h : SameBytes name name' m n) {f : File → File} {g : List UInt8 → List UInt8}
    (hf : ∀ file bytes, file.Has bytes → (f file).Has (g bytes)) :
    SameBytes name name' (Image.changed name f m) (Image.changed name' f n) where
  mem := mem_changed.mpr h.mem
  mem' := mem_changed.mpr h.mem'
  filter := h.filter
  bytes := by
    obtain ⟨bytes, hm, hn⟩ := h.bytes
    rw [get_changed h.mem, get_changed h.mem']
    exact ⟨g bytes, hf _ _ hm, hf _ _ hn⟩

/-- A report leaves the bytes of both files. -/
theorem enter (h : SameBytes name name' m n) (event : Event) :
    SameBytes name name' (Journal.enter event m) (Journal.enter event n) := by
  obtain ⟨hm, hfilter⟩ := enter_directory event m
  obtain ⟨hn, hfilter'⟩ := enter_directory event n
  refine ⟨?_, ?_, ?_, ?_⟩
  · rw [hm]; exact h.mem
  · rw [hn]; exact h.mem'
  · rw [hfilter, hfilter']; exact h.filter
  · rw [hm, hn]; exact h.bytes

/-- Files with the same bytes tell the same size. -/
theorem told_eq (h : SameBytes name name' m n) : told name m = told name' n := by
  obtain ⟨bytes, hm, hn⟩ := h.bytes
  rw [told, told, hm.length, hn.length]

end SameBytes

/-- Images of files with the same bytes answer alike. -/
theorem request_agrees (name name' : String) (q : Request) :
    Op.Agrees (SameBytes name name') ((ofFile name).store q) ((ofFile name').store q) := by
  intro m n h
  refine Op.Ends.agree (R := SameBytes name name') ?_
  cases asks q with
  | other hq hino => exact .of_fault (store_apply_of_ne hq hino) ⟨_, store_apply_of_ne hq hino, h⟩
  | capacity => exact .of_ok rfl ⟨_, rfl, h⟩
  | size =>
    refine .of_ok size_apply ⟨_, ?_, h⟩
    rw [h.told_eq]
    exact size_apply
  | resize blocks =>
    refine .of_ok (resize_apply blocks) ⟨_, ?_, h.changed fun _ _ hbytes => hbytes.setLength _⟩
    rw [h.told_eq]
    exact resize_apply blocks
  | read offset =>
    obtain ⟨bytes, hm, hn⟩ := h.bytes
    -- Both ends are told alike, and the blocks of both files are those of the bytes.
    have hrun := read_apply name m offset
    have hrun' := read_apply name' n offset
    rw [h.told_eq, hm.blockAt] at hrun
    rw [hn.blockAt] at hrun'
    by_cases hend : told name' n ≤ offset
    · rw [if_pos hend] at hrun hrun'
      exact .of_fault hrun ⟨_, hrun', h⟩
    · rw [if_neg hend] at hrun hrun'
      exact .of_ok hrun ⟨_, hrun', h⟩
  | write offset block =>
    exact .of_ok (write_apply offset block)
      ⟨_, write_apply offset block, h.changed fun _ _ hbytes => hbytes.putBlock _ _⟩
  | sync => exact .of_ok sync_apply ⟨_, sync_apply, h⟩

/-- An image can stand for one of a file with the same bytes. -/
theorem exchange (name name' : String) :
    Op.Exchange (SameBytes name name') (ofFile name).store (ofFile name').store where
  request := request_agrees name name'
  note event := .note fun _ _ h => h.enter event
  keeps level := by
    intro m n h
    refine ⟨?_, h⟩
    show Except.ok (m.filter.reaches level) = Except.ok (n.filter.reaches level)
    rw [h.filter]

/-! ### The contract of an image -/

/-- The file with a kept name has the blocks of an image of `size`
blocks. Its size is told as a word. -/
def Carries (name : String) (size : Nat) (m : Machine) (image : Nat → Block) : Prop :=
  name ∈ m.directory.files ∧ (told name m).toNat = size ∧
    ∀ n < size, (m.directory.get name).blockAt n = image n

/-- A block within the file does not make it longer. -/
theorem length_putBlock_of_lt {file : File} {n : Nat} (h : n < file.length / 512) (block : Block) :
    (file.putBlock n block).length = file.length := by
  simp only [File.putBlock]
  omega

/-- The image of a file keeps its blocks, and refuses nothing within its
size. -/
theorem medium (name : String) (size : Nat) :
    Medium (ofFile name).store 0 size (fun _ _ => False) (Carries name size) where
  read := by
    rintro m image n ⟨hmem, hsize, hblocks⟩ hn
    have hrun := read_apply name m n
    -- A number below the size that is told is not behind the end.
    rw [if_neg fun hle => ?_] at hrun
    · exact .of_ok hrun ⟨hblocks _ hn, hmem, hsize, hblocks⟩
    · have hle := UInt32.le_iff_toNat_le.mp hle
      omega
  size := by
    rintro m image ⟨hmem, hsize, hblocks⟩
    exact .of_ok size_apply ⟨hsize, hmem, hsize, hblocks⟩
  write := by
    rintro m image n block ⟨hmem, hsize, hblocks⟩ hn
    have hget := get_changed hmem fun file => file.putBlock n.toNat block
    -- The size that is told is at most the number of whole blocks, so the write does not make the
    -- file longer.
    have hlt : n.toNat < (m.directory.get name).length / 512 := by
      have hle := Nat.mod_le ((m.directory.get name).length / 512) 4294967296
      rw [told, UInt32.toNat_ofNat'] at hsize
      omega
    refine .of_ok (write_apply n block) ⟨mem_changed.mpr hmem, ?_, fun k hk => ?_⟩
    · -- The file is as long as before, and has the block in the place of one of the image.
      rw [told, hget, length_putBlock_of_lt hlt]
      exact hsize
    · rw [hget, File.blockAt_putBlock]
      by_cases hkn : k = n.toNat
      · rw [if_pos hkn, hkn, Function.update_self]
      · rw [if_neg hkn, Function.update_of_ne hkn, hblocks k hk]
  sync := by
    rintro m image hm
    exact .of_ok sync_apply hm
  note := by
    rintro m image event ⟨hmem, hsize, hblocks⟩
    have henter := (enter_directory event m).1
    unfold Carries told
    rw [henter]
    exact ⟨hmem, hsize, hblocks⟩

end BlockLayers.Image
