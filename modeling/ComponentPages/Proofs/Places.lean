import ComponentPages.Proofs.Disks

/-!
# Where a path leads

Places are not linked to one another, so that the parts of a path tell where it leads, whatever the
disk holds. The disk only tells whether it leads there.

- **`placeOfParts`**, **`placeFrom`** — the place that parts and paths lead to.
- **`eq_placeFrom_of_locate`** — a path that names a place names that one;
  **`locate_eq_of_pathParts_eq`** has two spellings of a path name the same one, and
  **`SameTree.readText_eq_of_pathParts_eq`** has the file there read alike.
- **`placeFrom_joinPath`** — a name in a directory is below it.
- **`LeadsThrough`** — the places on the way to where a path leads; **`prefix_of_leadsThrough`** has
  them above that one where the path never goes up.
- **`Disk.AddsDirectories`**, **`addsDirectories_makeDirectories`** — to make directories adds some
  of the places that the path leads through, and changes nothing else. Files that could be read are
  read as before (**`AddsDirectories.readText_eq_ok`**).
-/

namespace ComponentPages

/-! ## The parts of a path -/

/-- The place that one part leads to from a place. -/
def PathPart.enter (place : Place) : PathPart → Place
  | root => []
  | here => place
  | up => place.dropLast
  | name n => place ++ [n]

/-- The place that parts lead to from a directory. -/
def placeOfParts (start : Place) (parts : List PathPart) : Place := parts.foldl PathPart.enter start

/-- The place that a path leads to from a directory. -/
def placeFrom (start : Place) (path : Text) : Place := placeOfParts start (pathParts path)

@[simp] theorem placeOfParts_nil (start : Place) : placeOfParts start [] = start := rfl

@[simp] theorem placeOfParts_cons (start : Place) (part : PathPart) (parts : List PathPart) :
    placeOfParts start (part :: parts) = placeOfParts (part.enter start) parts := rfl

theorem placeOfParts_append (start : Place) (parts more : List PathPart) :
    placeOfParts start (parts ++ more) = placeOfParts (placeOfParts start parts) more :=
  List.foldl_append

/-- The part with which a path begins before its steps, if there is one. -/
def leadingPart (path : Text) : List PathPart :=
  if isRooted path then [.root]
  else if (pathSteps path).head? = some ['.'] then [.here]
  else []

theorem pathParts_eq (path : Text) :
    pathParts path = leadingPart path ++ (pathSteps path).filterMap partOfStep? := rfl

/-- A part that can stand anywhere in a path. -/
def PathPart.IsStep : PathPart → Prop
  | root => False
  | here => False
  | up => True
  | name n => n ≠ [] ∧ '/' ∉ n ∧ n ≠ ['.'] ∧ n ≠ ['.', '.']

/-- The steps of a path are texts without a slash. -/
theorem slash_not_mem_of_mem_pathSteps {path step : Text} (h : step ∈ pathSteps path) :
    step ≠ [] ∧ '/' ∉ step := by
  obtain ⟨hstep, hne⟩ := List.mem_filter.1 h
  exact ⟨by simpa using hne, not_mem_of_mem_splitOn hstep⟩

theorem isStep_of_partOfStep? {path step : Text} {part : PathPart} (h : step ∈ pathSteps path)
    (hpart : partOfStep? step = some part) : part.IsStep := by
  obtain ⟨hne, hslash⟩ := slash_not_mem_of_mem_pathSteps h
  unfold partOfStep? at hpart
  split at hpart
  · cases hpart
  · next hdot =>
    split at hpart
    · cases hpart
      trivial
    · next hdots =>
      cases hpart
      exact ⟨hne, hslash, hdot, hdots⟩

/-- All parts of a path but a leading one can stand anywhere. -/
theorem isStep_of_mem_steps {path : Text} {part : PathPart}
    (h : part ∈ (pathSteps path).filterMap partOfStep?) : part.IsStep := by
  obtain ⟨step, hstep, hpart⟩ := List.mem_filterMap.1 h
  exact isStep_of_partOfStep? hstep hpart

/-- Behind the first part of a path all can stand anywhere. -/
theorem isStep_of_mem_tail {path : Text} {part : PathPart} (h : part ∈ (pathParts path).tail) :
    part.IsStep := by
  rw [pathParts_eq, leadingPart] at h
  split_ifs at h
  · exact isStep_of_mem_steps h
  · exact isStep_of_mem_steps h
  · exact isStep_of_mem_steps (List.mem_of_mem_tail h)

/-- The first part of a path is a leading one or can stand anywhere. -/
theorem isStep_of_head? {path : Text} {part : PathPart} (h : (pathParts path).head? = some part) :
    part = .root ∨ part = .here ∨ part.IsStep := by
  rw [pathParts_eq, leadingPart] at h
  split_ifs at h
  · exact .inl (by simpa using h.symm)
  · exact .inr (.inl (by simpa using h.symm))
  · exact .inr (.inr (isStep_of_mem_steps (List.mem_of_head? h)))

/-! ## The texts of parts -/

section PartTexts

open Disk (partsPath)
open Disk.partsPath (partText)

/-- The text of a part is read as that part. -/
theorem partOfStep?_partText {part : PathPart} (h : part.IsStep) :
    partOfStep? (partText part) = some part := by
  cases part with
  | root => exact h.elim
  | here => exact h.elim
  | up => rfl
  | name n =>
    obtain ⟨-, -, hdot, hdots⟩ := h
    rw [partText, partOfStep?, if_neg hdot, if_neg hdots]

/-- The text of a part is not empty and has no slash. -/
theorem partText_of_isStep {part : PathPart} (h : part.IsStep) :
    partText part ≠ [] ∧ '/' ∉ partText part := by
  cases part with
  | root => exact h.elim
  | here => exact h.elim
  | up => exact ⟨List.cons_ne_nil _ _, by decide⟩
  | name n => exact ⟨h.1, h.2.1⟩

theorem filterMap_partText {parts : List PathPart} (h : ∀ part ∈ parts, part.IsStep) :
    (parts.map partText).filterMap partOfStep? = parts := by
  induction parts with
  | nil => rfl
  | cons part parts ih =>
    obtain ⟨hpart, hparts⟩ := List.forall_mem_cons.1 h
    rw [List.map_cons, List.filterMap_cons, partOfStep?_partText hpart, ih hparts]

/-- The steps of texts that are put together with slashes. -/
theorem pathSteps_joinWith {steps : List Text} (h : ∀ step ∈ steps, step ≠ [] ∧ '/' ∉ step) :
    pathSteps (joinWith ['/'] steps) = steps := by
  cases steps with
  | nil => rfl
  | cons step steps =>
    rw [pathSteps, splitOn_joinWith (List.cons_ne_nil _ _) fun s hs => (h s hs).2]
    exact List.filter_eq_self.2 fun s hs => by simpa using (h s hs).1

/-- Steps that are put together with slashes make no path from the top. -/
theorem isRooted_joinWith {steps : List Text} (h : ∀ step ∈ steps, step ≠ [] ∧ '/' ∉ step) :
    isRooted (joinWith ['/'] steps) = false := by
  cases steps with
  | nil => rfl
  | cons step steps =>
    obtain ⟨hne, hslash⟩ := h step (List.mem_cons_self ..)
    obtain ⟨c, rest, rfl⟩ := List.exists_cons_of_ne_nil hne
    have hc : c ≠ '/' := fun hc => hslash (hc ▸ List.mem_cons_self ..)
    cases steps with
    | nil => simp [isRooted, hc]
    | cons next more => simp [isRooted, joinWith_cons_cons, hc]

/-- The parts of texts that are put together with slashes. -/
theorem pathParts_joinWith {steps : List Text} (h : ∀ step ∈ steps, step ≠ [] ∧ '/' ∉ step) :
    pathParts (joinWith ['/'] steps) =
      (if steps.head? = some ['.'] then [.here] else []) ++ steps.filterMap partOfStep? := by
  rw [pathParts_eq, leadingPart, isRooted_joinWith h, pathSteps_joinWith h]
  rfl

/-- **The text of some first parts of a path has these parts.** -/
theorem pathParts_partsPath {path : Text} {parts : List PathPart} (h : parts <+: pathParts path) :
    pathParts (partsPath parts) = parts := by
  cases parts with
  | nil => rfl
  | cons first more =>
    obtain ⟨rest, hrest⟩ := h
    have hmore : ∀ part ∈ more, part.IsStep := fun part hpart => by
      have htail : part ∈ (pathParts path).tail := hrest ▸ List.mem_append_left rest hpart
      exact isStep_of_mem_tail htail
    have htexts : ∀ step ∈ more.map partText, step ≠ [] ∧ '/' ∉ step := by
      simpa using fun part hpart => partText_of_isStep (hmore part hpart)
    have hhead : (pathParts path).head? = some first := by rw [← hrest]; rfl
    rcases isStep_of_head? hhead with rfl | rfl | hfirst
    -- from the top
    · have hsteps : pathSteps ('/' :: joinWith ['/'] (more.map partText)) = more.map partText :=
        (Disk.pathSteps_append_slash [] _).trans (pathSteps_joinWith htexts)
      rw [partsPath, pathParts_eq, leadingPart, hsteps, filterMap_partText hmore]
      rfl
    -- from the working directory, which is written out
    · have hall : ∀ step ∈ ['.'] :: more.map partText, step ≠ [] ∧ '/' ∉ step :=
        List.forall_mem_cons.2 ⟨⟨List.cons_ne_nil _ _, by decide⟩, htexts⟩
      calc pathParts (joinWith ['/'] (['.'] :: more.map partText))
          = .here :: (more.map partText).filterMap partOfStep? := pathParts_joinWith hall
        _ = .here :: more := by rw [filterMap_partText hmore]
    -- from the working directory
    · have hall : ∀ step ∈ (first :: more).map partText, step ≠ [] ∧ '/' ∉ step :=
        List.forall_mem_cons.2 ⟨partText_of_isStep hfirst, htexts⟩
      have hdot : ((first :: more).map partText).head? ≠ some ['.'] := fun hhead => by
        have hpart := partOfStep?_partText hfirst
        rw [Option.some.inj hhead] at hpart
        cases hpart
      have hpath : partsPath (first :: more) = joinWith ['/'] ((first :: more).map partText) := by
        cases first with
        | root => exact hfirst.elim
        | here => rfl
        | up => rfl
        | name n => rfl
      rw [hpath, pathParts_joinWith hall, if_neg hdot,
        filterMap_partText (List.forall_mem_cons.2 ⟨hfirst, hmore⟩)]
      rfl

end PartTexts

/-! ## Where a path leads -/

namespace Disk

variable {d e : Disk} {path : Text} {place : Place}

/-- A walk that does not fail ends where the parts of its steps lead. -/
theorem eq_placeOfParts_of_walk {steps : List Text} {q : Place} (h : d.walk place steps = .ok q) :
    q = placeOfParts place (steps.filterMap partOfStep?) := by
  induction steps generalizing place with
  | nil =>
    rw [walk_nil, Except.ok.injEq] at h
    exact h.symm
  | cons step steps ih =>
    obtain ⟨-, next, hnext, hrest⟩ := walk_cons_eq_ok_iff.1 h
    rw [ih hrest, List.filterMap_cons]
    unfold placeAfter at hnext
    unfold partOfStep?
    split_ifs at hnext ⊢ <;> cases hnext <;> rfl

/-- **A path that names a place names the one that its parts lead to.** -/
theorem eq_placeFrom_of_locate (h : d.locate path = .ok place) :
    place = placeFrom d.workingDirectory path := by
  unfold locate at h
  rw [placeFrom, pathParts_eq, placeOfParts_append, leadingPart]
  split_ifs at h ⊢
  all_goals exact eq_placeOfParts_of_walk h

/-- Two spellings of a path name the same place. -/
theorem locate_eq_of_pathParts_eq {other : Text} {q : Place} (h : d.locate path = .ok place)
    (hother : d.locate other = .ok q) (hparts : pathParts path = pathParts other) : place = q := by
  rw [eq_placeFrom_of_locate h, eq_placeFrom_of_locate hother, placeFrom, placeFrom, hparts]

/-- The file under two spellings of a path is read alike, whatever the file comes to hold. -/
theorem SameTree.readText_eq_of_pathParts_eq {other : Text} (h : SameTree d e)
    (hpath : d.isFile path = true) (hother : d.isFile other = true)
    (hparts : pathParts path = pathParts other) : e.readText path = e.readText other := by
  obtain ⟨hslash, place, -, hl, -⟩ := isFile_iff.1 hpath
  obtain ⟨hslash', place', -, hl', -⟩ := isFile_iff.1 hother
  obtain rfl := locate_eq_of_pathParts_eq hl hl' hparts
  rw [readText, nodeAt, h.locate_eq_ok_iff.2 hl, hslash, readText, nodeAt,
    h.locate_eq_ok_iff.2 hl', hslash']

end Disk

/-- A safe name is a name that can stand anywhere in a path. -/
theorem isStep_of_isSafeName {name : Text} (h : isSafeName name = true) :
    (PathPart.name name).IsStep := by
  simp only [isSafeName, Bool.and_eq_true, Bool.not_eq_true', bne_iff_ne, List.any_eq_false] at h
  refine ⟨by simpa using h.1.1.1, fun hslash => ?_, h.1.1.2, h.1.2⟩
  simpa using h.2 '/' hslash

/-- A path to a name in a directory begins where the one to the directory begins. -/
theorem isRooted_joinPath {name : Text} (h : '/' ∉ name) (directory : Text) :
    isRooted (joinPath directory name) = isRooted directory := by
  cases directory with
  | nil =>
    cases name with
    | nil => rfl
    | cons c rest =>
      have hc : c ≠ '/' := fun hc => h (hc ▸ List.mem_cons_self ..)
      simp [joinPath, isRooted, hc]
  | cons c rest =>
    unfold joinPath
    split <;> rfl

/-- A safe name inside a directory is a part more. -/
theorem pathParts_joinPath {name : Text} (h : isSafeName name = true) (directory : Text) :
    pathParts (joinPath directory name) = pathParts directory ++ [.name name] := by
  have hname := isStep_of_isSafeName h
  have hlead : leadingPart (joinPath directory name) = leadingPart directory := by
    rw [leadingPart, leadingPart, isRooted_joinPath hname.2.1, Disk.pathSteps_joinPath h]
    cases pathSteps directory with
    | nil => simp [hname.2.2.1]
    | cons step steps => rfl
  have hpart : partOfStep? name = some (.name name) := partOfStep?_partText hname
  rw [pathParts_eq, pathParts_eq, hlead, Disk.pathSteps_joinPath h, List.filterMap_append,
    List.append_assoc, List.filterMap_cons_some hpart, List.filterMap_nil]

/-- **The place of a safe name in a directory is below that of the directory.** -/
theorem placeFrom_joinPath {name : Text} (h : isSafeName name = true) (start : Place)
    (directory : Text) :
    placeFrom start (joinPath directory name) = placeFrom start directory ++ [name] := by
  rw [placeFrom, pathParts_joinPath h, placeOfParts_append]
  rfl

/-! ## On the way -/

/-- A place that a path leads to or through: some of its first parts lead there. -/
def LeadsThrough (start : Place) (path : Text) (place : Place) : Prop :=
  ∃ parts, parts ≠ [] ∧ parts <+: pathParts path ∧ placeOfParts start parts = place

/-- Names lead down only. -/
theorem prefix_placeOfParts {start : Place} {parts : List PathPart}
    (h : ∀ part ∈ parts, part.IsStep ∧ part ≠ .up) : start <+: placeOfParts start parts := by
  induction parts generalizing start with
  | nil => exact List.prefix_refl start
  | cons part parts ih =>
    obtain ⟨⟨hpart, hup⟩, hparts⟩ := List.forall_mem_cons.1 h
    cases part with
    | root => exact hpart.elim
    | here => exact hpart.elim
    | up => exact absurd rfl hup
    | name n => exact (List.prefix_append start [n]).trans (ih hparts)

/-- **A path that never goes up leads through places above the one it leads to.** -/
theorem prefix_of_leadsThrough {start place : Place} {path : Text}
    (h : LeadsThrough start path place) (hup : .up ∉ pathParts path) :
    place <+: placeFrom start path := by
  obtain ⟨parts, hne, ⟨rest, hrest⟩, rfl⟩ := h
  rw [placeFrom, ← hrest, placeOfParts_append]
  refine prefix_placeOfParts fun part hpart => ⟨?_, ?_⟩
  · obtain ⟨first, more, rfl⟩ := List.exists_cons_of_ne_nil hne
    have htail : part ∈ (pathParts path).tail := hrest ▸ List.mem_append_right more hpart
    exact isStep_of_mem_tail htail
  · rintro rfl
    exact hup (hrest ▸ List.mem_append_right parts hpart)

/-! ## Making directories -/

namespace Disk

/-- What a disk has more than another are directories at some of the places for which `P` holds. -/
structure AddsDirectories (P : Place → Prop) (d e : Disk) : Prop where
  workingDirectory : e.workingDirectory = d.workingDirectory
  at?_eq : ∀ place, e.at? place = d.at? place ∨
    d.at? place = none ∧ e.at? place = some .directory ∧ P place

namespace AddsDirectories

variable {P : Place → Prop} {d e f : Disk}

theorem refl (P : Place → Prop) (d : Disk) : AddsDirectories P d d := ⟨rfl, fun _ => .inl rfl⟩

theorem trans (hd : AddsDirectories P d e) (he : AddsDirectories P e f) :
    AddsDirectories P d f := by
  refine ⟨he.workingDirectory.trans hd.workingDirectory, fun place => ?_⟩
  rcases hd.at?_eq place with hde | ⟨hnone, hde, hP⟩ <;>
    rcases he.at?_eq place with hef | ⟨hnone', hef, hP'⟩
  · exact .inl (hef.trans hde)
  · exact .inr ⟨hde ▸ hnone', hef, hP'⟩
  · exact .inr ⟨hnone, hef.trans hde, hP⟩
  · exact absurd (hde.symm.trans hnone') (by simp)

theorem mono {Q : Place → Prop} (h : AddsDirectories P d e) (hPQ : ∀ place, P place → Q place) :
    AddsDirectories Q d e :=
  ⟨h.workingDirectory, fun place => (h.at?_eq place).imp_right fun ⟨hnone, hdir, hP⟩ =>
    ⟨hnone, hdir, hPQ place hP⟩⟩

theorem keepsFiles (h : AddsDirectories P d e) : KeepsFiles d e :=
  ⟨fun place => (h.at?_eq place).imp_right fun ⟨hnone, hdir, _⟩ => ⟨hnone, hdir⟩⟩

/-- Where there are more directories, paths that have named a place name that one. -/
theorem locate_eq_ok {path : Text} {place : Place} (h : AddsDirectories P d e)
    (hl : d.locate path = .ok place) : e.locate path = .ok place := by
  unfold locate at hl ⊢
  rw [h.workingDirectory]
  split_ifs at hl ⊢
  · exact h.keepsFiles.walk_eq_ok hl
  · exact h.keepsFiles.walk_eq_ok hl

/-- Where there are more directories, texts that could be read can be read. -/
theorem readText_eq_ok {path s : Text} (h : AddsDirectories P d e)
    (hread : d.readText path = .ok s) : e.readText path = .ok s := by
  obtain ⟨hslash, place, hl, hat⟩ := readText_eq_ok_iff.1 hread
  exact readText_eq_ok_iff.2
    ⟨hslash, place, h.locate_eq_ok hl, h.keepsFiles.at?_eq_file_iff.2 hat⟩

end AddsDirectories

variable {P : Place → Prop} {d e : Disk} {path : Text}

theorem addsDirectories_of_makeDirectory (h : d.makeDirectory path = .ok e)
    (hP : P (placeFrom d.workingDirectory path)) : AddsDirectories P d e := by
  obtain ⟨place, hl, h⟩ := bind_eq_ok_iff.1 h
  cases hat : d.at? place with
  | some node => simp [hat] at h
  | none =>
    have htop : place ≠ [] := by
      rintro rfl
      simp [at?] at hat
    simp only [hat, pure_eq_ok, Except.ok.injEq] at h
    subst h
    refine ⟨rfl, fun q => ?_⟩
    rw [at?_put d _ htop]
    split
    · next hq => exact .inr ⟨hq ▸ hat, rfl, hq ▸ eq_placeFrom_of_locate hl ▸ hP⟩
    · exact .inl rfl

theorem addsDirectories_of_ensureDirectory (h : d.ensureDirectory path = .ok e)
    (hP : P (placeFrom d.workingDirectory path)) : AddsDirectories P d e := by
  unfold ensureDirectory at h
  split at h
  · next f hf =>
    cases h
    exact addsDirectories_of_makeDirectory hf hP
  · split at h
    · cases h
      exact .refl P d
    · cases h
  · cases h

theorem addsDirectories_after {step : Except FileError Disk}
    (h : ∀ e, step = .ok e → AddsDirectories P d e) : AddsDirectories P d (d.after step).1 := by
  cases step with
  | ok e => exact h e rfl
  | error failure => exact .refl P d

/-- A directory that is made with what is above it adds directories, where `above` does. -/
theorem addsDirectories_makeWith {above : Disk → Disk × Except FileError Unit}
    (h : AddsDirectories P d (above d).1) (hP : P (placeFrom d.workingDirectory path)) :
    AddsDirectories P d (makeWith above d path).1 := by
  have hensure (f : Disk) (hf : f.workingDirectory = d.workingDirectory) :
      AddsDirectories P f (f.after (f.ensureDirectory path)).1 :=
    addsDirectories_after fun _ he => addsDirectories_of_ensureDirectory he (hf ▸ hP)
  unfold makeWith
  split
  -- the directories above are made first, and then the directory
  · split
    · next f hf =>
      rw [hf] at h
      exact h.trans (hensure f h.workingDirectory)
    · next f failure hf =>
      rw [hf] at h
      exact h
  · exact hensure d rfl

/-- To make the directory of some first parts of a path adds directories at places that the path
leads through. The parts are given with the last one first. -/
theorem addsDirectories_makeParts {start : Place} (hstart : d.workingDirectory = start)
    {parts : List PathPart} (hparts : parts.reverse <+: pathParts path) :
    AddsDirectories (LeadsThrough start path) d (d.makeParts parts).1 := by
  induction parts generalizing d with
  | nil => exact .refl _ d
  | cons part above ih =>
    have habove : above.reverse <+: pathParts path :=
      (List.reverse_prefix.2 (List.suffix_cons part above)).trans hparts
    unfold makeParts
    split
    · exact .refl _ d
    · exact .refl _ d
    · next hcons =>
      cases hcons
      refine addsDirectories_makeWith (ih hstart habove) ⟨_, by simp, hparts, ?_⟩
      rw [placeFrom, pathParts_partsPath hparts, hstart]

/-- **To make the directories of a path adds directories at places that the path leads through**,
and changes nothing else, whether all of them can be made or not. -/
theorem addsDirectories_makeDirectories (d : Disk) (path : Text) :
    AddsDirectories (LeadsThrough d.workingDirectory path) d (d.makeDirectories path).1 := by
  unfold makeDirectories
  split
  · exact .refl _ d
  · exact .refl _ d
  · next last above _ hparts =>
    have hall : pathParts path = above.reverse ++ [last] := by
      rw [← List.reverse_cons, ← hparts, List.reverse_reverse]
    refine addsDirectories_makeWith (addsDirectories_makeParts rfl ⟨[last], hall.symm⟩)
      ⟨pathParts path, by simp [hall], List.prefix_refl _, rfl⟩

end Disk

end ComponentPages
