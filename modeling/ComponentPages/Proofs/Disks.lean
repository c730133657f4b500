import ComponentPages.Command.Disk
import ComponentPages.Proofs.Results

/-!
# What writing does to a disk

A text that is written changes one file and no directory, so that every path names the same place
before and after. What a file holds after any number of writes is the text that was written to it
last, if there is one.

- **`walk_cons_eq_ok_iff`** — where a walk ends, step by step.
- **`Disk.SameTree`** — two disks with the same directories; a path names the same place on both
  (**`locate_eq_ok_iff`**).
- **`Disk.KeepsFiles`** — a disk that has at most directories more; walks lead where they have led
  (**`KeepsFiles.walk_eq_ok`**).
- **`Disk.writeAll`** — writes one after another, told by **`sameTree_of_writeAll`** and
  **`at?_of_writeAll`**; **`Disk.lastText?`** is the last text of those that go to one place.
- **`Disk.writable`** — the writes in front of the first that cannot be made.
- **`pathSteps_joinPath`** — a name in a directory is a step more.
-/

namespace ComponentPages

namespace Disk

variable {d e : Disk} {path s : Text} {place : Place}

/-! ## Walks -/

/-- The place that one step leads to from a directory. -/
def placeAfter (place : Place) (step : Text) : Except FileError Place :=
  if step = ['.'] then .ok place
  else if step = ['.', '.'] then .ok place.dropLast
  else if maxNameLength < utf8Length step then .error .nameTooLong
  else .ok (place ++ [step])

theorem isDirectoryAt_iff : d.isDirectoryAt place = true ↔ d.at? place = some .directory := by
  simp [isDirectoryAt]

/-- A walk goes on from a directory, and from nothing else. -/
theorem walk_cons_eq_ok_iff {step : Text} {steps : List Text} {q : Place} :
    d.walk place (step :: steps) = .ok q ↔
      d.isDirectoryAt place = true ∧
        ∃ next, placeAfter place step = .ok next ∧ d.walk next steps = .ok q := by
  rw [walk_cons, isDirectoryAt_iff]
  cases hn : d.at? place with
  | none => simp
  | some node =>
    cases node with
    | file content => simp
    | directory =>
      simp only [placeAfter, true_and]
      split_ifs <;> simp

/-! ## Disks with the same directories -/

/-- Two disks with the same directories, whatever the files on them hold. -/
structure SameTree (d e : Disk) : Prop where
  workingDirectory : e.workingDirectory = d.workingDirectory
  isDirectoryAt : ∀ place, e.isDirectoryAt place = d.isDirectoryAt place

namespace SameTree

theorem refl (d : Disk) : SameTree d d := ⟨rfl, fun _ => rfl⟩

theorem trans {f : Disk} (hd : SameTree d e) (he : SameTree e f) : SameTree d f :=
  ⟨he.workingDirectory.trans hd.workingDirectory,
    fun place => (he.isDirectoryAt place).trans (hd.isDirectoryAt place)⟩

/-- A walk leads to the same place on every disk with the same directories. -/
theorem walk_eq_ok_iff (h : SameTree d e) {steps : List Text} {q : Place} :
    e.walk place steps = .ok q ↔ d.walk place steps = .ok q := by
  induction steps generalizing place with
  | nil => simp
  | cons step steps ih => simp only [walk_cons_eq_ok_iff, h.isDirectoryAt, ih]

/-- A path that names a place names it on every disk with the same directories. -/
theorem locate_eq_ok_iff (h : SameTree d e) {q : Place} :
    e.locate path = .ok q ↔ d.locate path = .ok q := by
  simp only [locate, h.workingDirectory]
  split_ifs
  · simp
  · simp
  · exact h.walk_eq_ok_iff
  · exact h.walk_eq_ok_iff

/-- A file keeps its text where what stands at its place stays. -/
theorem readText_eq (h : SameTree d e) (hl : d.locate path = .ok place)
    (hat : e.at? place = d.at? place) : e.readText path = d.readText path := by
  have he : e.locate path = .ok place := h.locate_eq_ok_iff.2 hl
  simp only [readText, nodeAt, hl, he, ok_bind, hat]

end SameTree

/-! ## Reading and writing one file -/

/-- A text is read from the file at the place that a path names, if the path does not end in a
slash. -/
theorem readText_eq_ok_iff :
    d.readText path = .ok s ↔
      endsInSlash path = false ∧
        ∃ place, d.locate path = .ok place ∧ d.at? place = some (.file (.text s)) := by
  cases hl : d.locate path with
  | error failure => simp [readText, nodeAt, hl]
  | ok place =>
    cases hat : d.at? place with
    | none => simp [readText, nodeAt, hl, hat]
    | some node =>
      rcases node with (t | b) | _ <;> cases hslash : endsInSlash path <;>
        simp [readText, nodeAt, hl, hat, hslash]

/-- A file stands at the place that a path names, if the path does not end in a slash. -/
theorem isFile_iff :
    d.isFile path = true ↔
      endsInSlash path = false ∧
        ∃ place content, d.locate path = .ok place ∧ d.at? place = some (.file content) := by
  cases hl : d.locate path with
  | error failure => simp [isFile, nodeAt, hl]
  | ok place =>
    cases hat : d.at? place with
    | none => simp [isFile, nodeAt, hl, hat]
    | some node =>
      cases node <;> cases hslash : endsInSlash path <;> simp [isFile, nodeAt, hl, hat, hslash]

/-- A text is written to the place that a path names, if no directory stands there. -/
theorem writeText_eq_ok_iff :
    d.writeText path s = .ok e ↔
      endsInSlash path = false ∧
        ∃ place, d.locate path = .ok place ∧ d.isDirectoryAt place = false ∧
          e = d.put place (.file (.text s)) := by
  cases hl : d.locate path with
  | error failure => simp [writeText, hl]
  | ok place =>
    cases hdir : d.isDirectoryAt place <;> cases hslash : endsInSlash path <;>
      simp [writeText, hl, hdir, hslash, @eq_comm Disk]

/-- The top is a directory, so that no text is put there. -/
theorem ne_top_of_isDirectoryAt_eq_false (h : d.isDirectoryAt place = false) : place ≠ [] := by
  rintro rfl
  simp [isDirectoryAt, at?] at h

/-- A written text stands at its place, and what stands elsewhere stays. -/
theorem at?_of_writeText (h : d.writeText path s = .ok e) (q : Place) :
    e.at? q = if d.locate path = .ok q then some (.file (.text s)) else d.at? q := by
  obtain ⟨-, place, hl, hdir, rfl⟩ := writeText_eq_ok_iff.1 h
  rw [at?_put d _ (ne_top_of_isDirectoryAt_eq_false hdir), hl]
  simp only [Except.ok.injEq, eq_comm]

/-- To write a text makes and takes away no directory. -/
theorem sameTree_of_writeText (h : d.writeText path s = .ok e) : SameTree d e := by
  obtain ⟨-, place, hl, hdir, rfl⟩ := writeText_eq_ok_iff.1 h
  refine ⟨rfl, fun q => ?_⟩
  rw [isDirectoryAt, at?_put d _ (ne_top_of_isDirectoryAt_eq_false hdir)]
  split
  · next hq => rw [hq, hdir]; rfl
  · rfl

/-! ## Writing many files -/

/-- The disk with texts written under paths, one after another. -/
def writeAll (d : Disk) (writes : List (Text × Text)) : Except FileError Disk :=
  writes.foldlM (fun e w => e.writeText w.1 w.2) d

@[simp] theorem writeAll_nil (d : Disk) : d.writeAll [] = .ok d := rfl

theorem writeAll_cons_eq_ok_iff {w : Text × Text} {writes : List (Text × Text)} :
    d.writeAll (w :: writes) = .ok e ↔
      ∃ f, d.writeText w.1 w.2 = .ok f ∧ f.writeAll writes = .ok e := by
  rw [writeAll, List.foldlM_cons]
  exact bind_eq_ok_iff

theorem writeAll_append_eq_ok_iff {writes more : List (Text × Text)} :
    d.writeAll (writes ++ more) = .ok e ↔
      ∃ f, d.writeAll writes = .ok f ∧ f.writeAll more = .ok e := by
  rw [writeAll, List.foldlM_append]
  exact bind_eq_ok_iff

/-- Writes leave all directories as they are. -/
theorem sameTree_of_writeAll {writes : List (Text × Text)} (h : d.writeAll writes = .ok e) :
    SameTree d e := by
  induction writes generalizing d with
  | nil =>
    cases h
    exact .refl _
  | cons w writes ih =>
    obtain ⟨f, hw, hmore⟩ := writeAll_cons_eq_ok_iff.1 h
    exact (sameTree_of_writeText hw).trans (ih hmore)

/-- The text that goes last to a place, of some that are written under paths. -/
def lastText? (d : Disk) (place : Place) (writes : List (Text × Text)) : Option Text :=
  (writes.filter fun w => d.locate w.1 = .ok place).getLast?.map (·.2)

@[simp] theorem lastText?_nil (d : Disk) (place : Place) : d.lastText? place [] = none := rfl

theorem lastText?_cons (d : Disk) (place : Place) (w : Text × Text)
    (writes : List (Text × Text)) :
    d.lastText? place (w :: writes) =
      (d.lastText? place writes).or (if d.locate w.1 = .ok place then some w.2 else none) := by
  unfold lastText?
  rw [List.filter_cons]
  by_cases hw : d.locate w.1 = .ok place
  · simp only [hw, decide_true, if_true, List.getLast?_cons]
    cases (writes.filter fun w => d.locate w.1 = .ok place).getLast? <;> simp
  · simp [hw]

theorem SameTree.lastText?_eq (h : SameTree d e) (place : Place) (writes : List (Text × Text)) :
    e.lastText? place writes = d.lastText? place writes := by
  simp only [lastText?, h.locate_eq_ok_iff]

/-- The last text that is written to a place stands there in the end, and where none is written
there stands what was there. -/
theorem at?_of_writeAll {writes : List (Text × Text)} (h : d.writeAll writes = .ok e)
    (q : Place) :
    e.at? q = ((d.lastText? q writes).map fun s => Node.file (.text s)).or (d.at? q) := by
  induction writes generalizing d with
  | nil =>
    cases h
    simp
  | cons w writes ih =>
    obtain ⟨f, hw, hmore⟩ := writeAll_cons_eq_ok_iff.1 h
    rw [ih hmore, (sameTree_of_writeText hw).lastText?_eq, at?_of_writeText hw, lastText?_cons]
    cases d.lastText? q writes <;> split <;> simp

/-- What is different after writes are files that were written to. -/
theorem exists_mem_of_writeAll_of_ne {writes : List (Text × Text)} (h : d.writeAll writes = .ok e)
    (hne : e.at? place ≠ d.at? place) :
    ∃ w ∈ writes, d.locate w.1 = .ok place ∧ ∃ s, e.at? place = some (.file (.text s)) := by
  rw [at?_of_writeAll h] at hne ⊢
  unfold lastText? at hne ⊢
  cases hlast : (writes.filter fun w => d.locate w.1 = .ok place).getLast? with
  | none => simp [hlast] at hne
  | some w =>
    obtain ⟨hw, hl⟩ := List.mem_filter.1 (List.mem_of_getLast? hlast)
    exact ⟨w, hw, by simpa using hl, w.2, rfl⟩

/-- A file to which nothing is written keeps what it holds. -/
theorem readText_of_writeAll_of_ne {writes : List (Text × Text)} (h : d.writeAll writes = .ok e)
    (hl : d.locate path = .ok place) (hne : ∀ w ∈ writes, d.locate w.1 ≠ .ok place) :
    e.readText path = d.readText path := by
  refine (sameTree_of_writeAll h).readText_eq hl ?_
  have hnone : d.lastText? place writes = none := by
    simpa [lastText?] using hne
  rw [at?_of_writeAll h, hnone]
  rfl

/-- A file to which something is written holds the last of it. -/
theorem readText_of_writeAll {writes : List (Text × Text)} (h : d.writeAll writes = .ok e)
    (hslash : endsInSlash path = false) (hl : d.locate path = .ok place)
    (hlast : d.lastText? place writes = some s) : e.readText path = .ok s := by
  refine readText_eq_ok_iff.2
    ⟨hslash, place, (sameTree_of_writeAll h).locate_eq_ok_iff.2 hl, ?_⟩
  rw [at?_of_writeAll h, hlast]
  rfl

/-- What is written is written under a path that names a place and does not end in a slash. -/
theorem exists_locate_of_mem_writes {writes : List (Text × Text)} (h : d.writeAll writes = .ok e)
    {w : Text × Text} (hw : w ∈ writes) :
    endsInSlash w.1 = false ∧ ∃ place, d.locate w.1 = .ok place := by
  induction writes generalizing d with
  | nil => cases hw
  | cons v writes ih =>
    obtain ⟨f, hv, hmore⟩ := writeAll_cons_eq_ok_iff.1 h
    rcases List.mem_cons.1 hw with rfl | hw
    · obtain ⟨hslash, place, hl, -⟩ := writeText_eq_ok_iff.1 hv
      exact ⟨hslash, place, hl⟩
    · obtain ⟨hslash, place, hl⟩ := ih hmore hw
      exact ⟨hslash, place, (sameTree_of_writeText hv).locate_eq_ok_iff.1 hl⟩

/-- Of some writes those in front of the first that cannot be made. -/
def writable (d : Disk) : List (Text × Text) → List (Text × Text)
  | [] => []
  | w :: writes =>
    match d.writeText w.1 w.2 with
    | .ok e => w :: e.writable writes
    | .error _ => []

/-- Of writes of which all can be made none are left out. -/
theorem writable_append_of_writeAll {writes : List (Text × Text)} (h : d.writeAll writes = .ok e)
    (more : List (Text × Text)) : d.writable (writes ++ more) = writes ++ e.writable more := by
  induction writes generalizing d with
  | nil =>
    cases h
    rfl
  | cons w writes ih =>
    obtain ⟨f, hw, hmore⟩ := writeAll_cons_eq_ok_iff.1 h
    simp only [List.cons_append, writable, hw, ih hmore]

theorem writable_of_writeAll {writes : List (Text × Text)} (h : d.writeAll writes = .ok e) :
    d.writable writes = writes := by
  simpa [writable] using writable_append_of_writeAll h []

/-- After a write that cannot be made nothing is written. -/
theorem writable_append_of_error {writes : List (Text × Text)}
    (h : ∀ e, d.writeAll writes ≠ .ok e) (more : List (Text × Text)) :
    d.writable (writes ++ more) = d.writable writes := by
  induction writes generalizing d with
  | nil => exact absurd rfl (h d)
  | cons w writes ih =>
    rw [List.cons_append, writable, writable]
    cases hw : d.writeText w.1 w.2 with
    | error failure => rfl
    | ok f =>
      have hrest := ih fun e he => h e (writeAll_cons_eq_ok_iff.2 ⟨f, hw, he⟩)
      simp only [hrest]

theorem writable_prefix (d : Disk) (writes : List (Text × Text)) :
    d.writable writes <+: writes := by
  induction writes generalizing d with
  | nil => exact List.prefix_refl _
  | cons w writes ih =>
    rw [writable]
    split
    · next e _ => exact List.cons_prefix_cons.2 ⟨rfl, ih e⟩
    · exact List.nil_prefix

/-! ## Disks with more directories -/

/-- A disk that has what another has, and at most directories more. -/
structure KeepsFiles (d e : Disk) : Prop where
  at?_eq : ∀ place, e.at? place = d.at? place ∨
    d.at? place = none ∧ e.at? place = some .directory

namespace KeepsFiles

/-- A file stands on a disk exactly where it stands on one that keeps its files. -/
theorem at?_eq_file_iff (h : KeepsFiles d e) {content : Content} :
    e.at? place = some (.file content) ↔ d.at? place = some (.file content) := by
  rcases h.at?_eq place with he | ⟨hd, he⟩
  · rw [he]
  · simp [hd, he]

/-- Directories stay. -/
theorem isDirectoryAt_eq_true (h : KeepsFiles d e) (hdir : d.isDirectoryAt place = true) :
    e.isDirectoryAt place = true := by
  rw [isDirectoryAt_iff] at hdir ⊢
  rcases h.at?_eq place with he | ⟨hnone, -⟩
  · rw [he, hdir]
  · simp [hnone] at hdir

/-- Where a disk has more directories and the same files, walks lead where they have led. -/
theorem walk_eq_ok (h : KeepsFiles d e) {steps : List Text} {q : Place}
    (hwalk : d.walk place steps = .ok q) : e.walk place steps = .ok q := by
  induction steps generalizing place with
  | nil => simpa using hwalk
  | cons step steps ih =>
    obtain ⟨hdir, next, hnext, hrest⟩ := walk_cons_eq_ok_iff.1 hwalk
    exact walk_cons_eq_ok_iff.2 ⟨h.isDirectoryAt_eq_true hdir, next, hnext, ih hrest⟩

end KeepsFiles

/-! ## Names in a directory -/

/-- The steps of a path with a slash in it are those in front of the slash and those behind it. -/
theorem pathSteps_append_slash (s t : Text) :
    pathSteps (s ++ '/' :: t) = pathSteps s ++ pathSteps t := by
  rw [pathSteps, splitOn_append_separator, List.filter_append]
  rfl

/-- A name that is safe is one step. -/
theorem pathSteps_of_isSafeName {name : Text} (h : isSafeName name = true) :
    pathSteps name = [name] := by
  have hslash : '/' ∉ name := fun hmem => by
    simp only [isSafeName, Bool.and_eq_true, Bool.not_eq_true', List.any_eq_false] at h
    simpa using h.2 _ hmem
  have hne : name ≠ [] := by
    rintro rfl
    simp [isSafeName] at h
  simp [pathSteps, splitOn_of_not_mem hslash, hne]

/-- A name inside a directory is a step more. -/
theorem pathSteps_joinPath {name : Text} (h : isSafeName name = true) (directory : Text) :
    pathSteps (joinPath directory name) = pathSteps directory ++ [name] := by
  rw [← pathSteps_of_isSafeName h]
  unfold joinPath
  split
  · next hdirectory =>
    rcases Bool.or_eq_true_iff.1 hdirectory with hempty | hslash
    · rw [List.isEmpty_iff.1 hempty]
      rfl
    · obtain ⟨rest, rfl⟩ := List.getLast?_eq_some_iff.1 (by simpa [endsInSlash] using hslash)
      rw [List.append_assoc, List.singleton_append, pathSteps_append_slash,
        pathSteps_append_slash]
      simp [pathSteps, splitOn]
  · exact pathSteps_append_slash directory name

end Disk

end ComponentPages
