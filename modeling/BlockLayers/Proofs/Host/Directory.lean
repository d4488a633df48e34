import BlockLayers.Proofs.Host.File
import BlockLayers.Host.Directory

/-!
# `BlockLayers.Proofs.Host.Directory`: a path that is followed again

Where a path leads depends on the directories on the way and on whether
there is a file at its end. So a path that was opened for creating leads
to the same file from then on, whatever becomes of the bytes of files
(`Created.again`).

A path is new when nothing is at its end (`New`), and blank when there
is no byte (`Blank`).
-/

set_option autoImplicit false

namespace BlockLayers.Host.Directory

variable {d d' d'' : Directory} {path name : String}

/-! ### Files by their kept names -/

/-- The changed file is there as before. -/
theorem mem_alter {other : String} {f : File → File} :
    other ∈ (d.alter name f).files ↔ other ∈ d.files :=
  Std.HashMap.mem_modify

/-- A file that is there becomes what it is changed to. -/
theorem get_alter (h : name ∈ d.files) (f : File → File) :
    (d.alter name f).get name = f (d.get name) := by
  have hfile := Std.HashMap.getElem?_eq_some_getElem h
  rw [get, get, alter, Std.HashMap.getD_modify, Std.HashMap.getD_eq_getD_getElem?, hfile,
    if_pos (beq_self_eq_true name), Option.map_some, Option.getD_some, Option.getD_some]

/-- The file that was put under a name is found under it. -/
@[simp] theorem get_put (d : Directory) (name : String) (file : File) :
    (d.put name file).get name = file :=
  Std.HashMap.getD_insert_self

/-! ### Following a path -/

/-- The directories decide alone what is one of them. -/
theorem isFolder_congr (hfolders : d'.folders = d.folders) (place : Place) :
    d'.isFolder place = d.isFolder place := by
  rw [isFolder, isFolder, hfolders]

/-- Names that lead on lead on as long as the directories stay. -/
theorem follow_congr (hfolders : d'.folders = d.folders) {here place : Place} {names : List String}
    (h : d.follow here names = .ok place) : d'.follow here names = .ok place := by
  -- By induction on the names that are left, with the place reached so far generalized.
  induction names generalizing here with
  | nil => exact h
  | cons next rest ih =>
    unfold follow at h ⊢
    dsimp only at h ⊢
    rw [isFolder_congr hfolders]
    split at h
    · cases h
    rename_i hshort
    rw [if_neg hshort]
    split at h
    · rename_i hfolder
      rw [if_pos hfolder]
      exact ih h
    · -- There is no way on from a place that is no directory.
      split at h <;> cases h

/-- What is at the place with a kept name. -/
def at_ (d : Directory) (name : String) : Target :=
  if d.files.contains name then .file name else .vacant name

/-- A target that is the file of a kept name, or the place where one can
come to be. -/
def HasPlace (target : Except Failure Target) (name : String) : Prop :=
  target = .ok (.vacant name) ∨ target = .ok (.file name)

/-- A last name that leads to the place of a file leads there as long as
the directories stay. -/
theorem last_eq (hfolders : d'.folders = d.folders) {slash : Bool} {here : Place} {word : String}
    (h : HasPlace (d.last true slash here word) name) :
    d'.last true slash here word = .ok (d'.at_ name) := by
  unfold last HasPlace at h
  unfold last
  dsimp only at h ⊢
  rw [isFolder_congr hfolders]
  -- Every refusal comes before any file is looked for.
  by_cases hdots : word = "." ∨ word = ".."
  · simp only [if_pos hdots] at h
    rcases h with h | h <;> cases h
  by_cases hslash : True ∧ slash = true
  · simp only [if_neg hdots, if_pos hslash] at h
    rcases h with h | h <;> cases h
  by_cases hlong : nameLimit < word.utf8ByteSize
  · simp only [if_neg hdots, if_neg hslash, if_pos hlong] at h
    rcases h with h | h <;> cases h
  by_cases hfolder : d.isFolder (here.go word) = true
  · simp only [if_neg hdots, if_neg hslash, if_neg hlong, if_pos hfolder] at h
    rcases h with h | h <;> cases h
  have hopen : ¬ slash = true := fun hopen => hslash ⟨trivial, hopen⟩
  simp only [if_neg hdots, if_neg hslash, if_neg hlong, if_neg hfolder, if_neg hopen] at h ⊢
  -- A file or a vacant place has the name of the place that the last name leads to.
  have hname : (here.go word).name = name := by
    split at h <;> rcases h with h | h <;> cases h <;> rfl
  rw [hname, at_]
  cases d'.files.contains name <;> rfl

/-- A path that leads to the place of a file leads there as long as the
directories stay. -/
theorem target_eq (hfolders : d'.folders = d.folders)
    (h : HasPlace (d.target true path) name) : d'.target true path = .ok (d'.at_ name) := by
  unfold target HasPlace at h
  unfold target
  by_cases hzero : path.toList.contains '\x00' = true
  · simp only [if_pos hzero] at h
    rcases h with h | h <;> cases h
  by_cases hlong : pathLimit < path.utf8ByteSize
  · simp only [if_neg hzero, if_pos hlong] at h
    rcases h with h | h <;> cases h
  by_cases hempty : path = ""
  · simp only [if_neg hzero, if_neg hlong, if_pos hempty] at h
    rcases h with h | h <;> cases h
  simp only [if_neg hzero, if_neg hlong, if_neg hempty] at h ⊢
  cases hlast : (names path).getLast? with
  | none =>
    simp only [hlast] at h
    rcases h with h | h <;> cases h
  | some word =>
    simp only [hlast] at h ⊢
    cases hfollow : d.follow (Place.start path) (names path).dropLast with
    | error failure =>
      rw [hfollow] at h
      rcases h with h | h <;> cases h
    | ok here =>
      rw [hfollow] at h
      rw [follow_congr hfolders hfollow]
      -- The names before the last lead to the same place, so the last is looked for there.
      exact last_eq hfolders h

/-! ### Opening for creating -/

/-- Nothing is at the end of the path yet. -/
def New (d : Directory) (path : String) : Prop := ∃ name, d.target true path = .ok (.vacant name)

/-- If there is a file at the end of the path, it has no bytes. -/
def Blank (d : Directory) (path : String) : Prop :=
  ∀ name, d.target true path = .ok (.file name) → (d.get name).Has []

/-- A new path is blank, since there is no file that could have bytes.
-/
theorem New.blank (h : d.New path) : d.Blank path := by
  intro name hfile
  obtain ⟨other, hvacant⟩ := h
  cases hvacant.symm.trans hfile

/-- The file of a path is there once it was opened for creating, and
nothing else has changed. -/
structure Created (d : Directory) (path name : String) (d' : Directory) : Prop where
  names : HasPlace (d.target true path) name
  folders : d'.folders = d.folders
  mem : name ∈ d'.files
  blank : d.Blank path → (d'.get name).Has []

/-- Opening a path for creating finds its file or puts an empty one
there, and changes nothing else. -/
theorem create_eq_ok (h : d.create path = .ok (name, d')) : d.Created path name d' := by
  unfold create at h
  cases htarget : d.target true path with
  | error failure =>
    rw [htarget] at h
    cases h
  | ok target =>
    rw [htarget] at h
    cases target with
    | folder => cases h
    | file other =>
      cases h
      have hnames : HasPlace (d.target true path) name := .inr htarget
      refine ⟨hnames, rfl, ?_, fun hblank => hblank name htarget⟩
      -- The target is what is at the place, so there is a file.
      have hat : d.at_ name = .file name := by
        simpa using (target_eq rfl hnames).symm.trans htarget
      unfold at_ at hat
      split at hat
      · rename_i hcontains
        exact Std.HashMap.contains_iff_mem.mp hcontains
      · cases hat
    | vacant other =>
      cases h
      -- The file that is put there is empty, so nothing is asked of what was there before.
      refine ⟨.inl htarget, rfl, Std.HashMap.mem_insert_self, fun _ => ?_⟩
      rw [get_put]
      exact File.has_empty

/-- A path that was opened for creating leads to the same file as long as
the directories stay and the file is there. -/
theorem Created.again (h : d.Created path name d') (hfolders : d''.folders = d.folders)
    (hmem : name ∈ d''.files) : d''.create path = .ok (name, d'') := by
  have htarget := target_eq hfolders h.names
  have hcontains : d''.files.contains name = true := Std.HashMap.contains_iff_mem.mpr hmem
  rw [at_, if_pos hcontains] at htarget
  unfold create
  rw [htarget]
  rfl

/-- A new path can be opened for creating. -/
theorem New.create (h : d.New path) : ∃ name d', d.create path = .ok (name, d') := by
  obtain ⟨name, hvacant⟩ := h
  refine ⟨name, d.put name File.empty, ?_⟩
  unfold Directory.create
  rw [hvacant]
  rfl

end BlockLayers.Host.Directory
