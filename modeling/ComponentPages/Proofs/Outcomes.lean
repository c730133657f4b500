import ComponentPages.Proofs.PagesKept

/-!
# What a run has written

A run whose output directory holds none of its files reads all of them as they are at the start. If
no file fails it, it makes every write that it is to make.

- **`Outcome.Wrote`** — a run has written certain texts, in order, and changed no other file.
- **`Outcome.NoFileError`** — a run that was not stopped by a file that cannot be read or written.
- **`Options.KeepsApart`**, **`Options.KeepsApart.sparesInputs`** — the output directory holds none
  of the files that are read.
- **`readText_of_mem_pageWrites`** — what the file of a page holds in the end.
- **`failure_eq_none_iff`**, **`isFileError_of_failure`** — when a run that spares its files
  succeeds, and what else can stop it; **`wrote_of_noFileError`** tells what it has written then.
-/

namespace ComponentPages

/-- What is in the file at a place, if a file stands there. -/
def Disk.fileAt? (d : Disk) (place : Place) : Option Content :=
  match d.at? place with
  | some (.file content) => some content
  | _ => none

/-- A disk that keeps the files of another one has the same in the file at each place. -/
theorem Disk.KeepsFiles.fileAt?_eq {d e : Disk} (h : d.KeepsFiles e) (place : Place) :
    e.fileAt? place = d.fileAt? place := by
  rcases h.at?_eq place with hsame | ⟨hnone, hdirectory⟩
  · rw [fileAt?, hsame, fileAt?]
  · rw [fileAt?, hdirectory, fileAt?, hnone]

/-- A run has written texts under paths, in order. A file to which something was written holds the
last of it, and every other file holds what it held on the disk before. -/
structure Outcome.Wrote (r : Outcome) (disk : Disk) (writes : List (Text × Text)) : Prop where
  paths : r.machine.writtenPaths = writes.map (·.1)
  fileAt? : ∀ place, r.machine.disk.fileAt? place =
    ((r.machine.disk.lastText? place writes).map Content.text).or (disk.fileAt? place)

/-- A run was not stopped by a file or directory that cannot be read or written. -/
def Outcome.NoFileError (r : Outcome) : Prop :=
  ∀ failure, r.failure = some failure → failure.isFileError = false

theorem noFileError_of_failure_eq_none {r : Outcome} (h : r.failure = none) : r.NoFileError := by
  intro failure hfailure
  rw [h] at hfailure
  cases hfailure

/-- The output directory of a run holds none of the files that are to be read. -/
def Options.KeepsApart (o : Options) (disk : Disk) (input : Content) : Prop :=
  ∀ plan m, planOnDisk o disk input = (.ok plan, m) → ∀ file ∈ plan.files,
    (placeFrom disk.workingDirectory file).dropLast ≠
      placeFrom disk.workingDirectory plan.target.directory

/-- What is written of a text is written under safe ids. -/
theorem exists_id_of_mem_writesIn {t : Target} {text : Text} {w : Text × Text}
    (h : w ∈ t.writesIn text) : ∃ id, isSafeName id = true ∧ w.1 = t.pathOf id := by
  obtain ⟨_, _, page, _, _, hsafe, hpath⟩ := Target.mem_writesIn_iff.1 h
  exact ⟨page.id, hsafe, hpath⟩

/-- What is written of the texts of files is written under safe ids. -/
theorem exists_id_of_mem_flatMap_writesIn {t : Target} {contents : List (Text × Text)}
    {w : Text × Text} (h : w ∈ contents.flatMap fun c => t.writesIn c.2) :
    ∃ id, isSafeName id = true ∧ w.1 = t.pathOf id := by
  obtain ⟨content, -, hw⟩ := List.mem_flatMap.1 h
  exact exists_id_of_mem_writesIn hw

/-- Under the path of a page stands what was written there last. -/
theorem readText_of_mem_pageWrites {t : Target} {d e : Disk} {writes : List (Text × Text)}
    (h : d.writeAll writes = .ok e)
    (hids : ∀ w ∈ writes, ∃ id, isSafeName id = true ∧ w.1 = t.pathOf id) {w : Text × Text}
    (hw : w ∈ writes) :
    ∃ v, (writes.filter fun v => v.1 = w.1).getLast? = some v ∧ e.readText w.1 = .ok v.2 := by
  refine readText_of_mem_writes h (fun w hw v hv place hl hl' => ?_) hw
  obtain ⟨id, hsafe, hpath⟩ := hids w hw
  obtain ⟨id', hsafe', hpath'⟩ := hids v hv
  rw [hpath] at hl
  rw [hpath'] at hl'
  rw [hpath, hpath', eq_of_locate_pathOf hsafe hsafe' hl hl']

section Plans

variable {o : Options} {disk : Disk} {input : Content} {plan : Plan} {m m' : Machine}

/-- What is written when a run is ready is what the run has written. -/
theorem outcomeWrote_of_wrote {r : Outcome} {writes : List (Text × Text)}
    (h : (planOnDisk o disk input).2.Wrote r.machine writes) : r.Wrote disk writes where
  paths := by rw [h.paths, writtenPaths_planOnDisk, List.nil_append]
  fileAt? place := by
    rw [(Disk.sameTree_of_writeAll h.disk).lastText?_eq,
      ← (addsDirectories_planOnDisk o disk input).keepsFiles.fileAt?_eq, Disk.fileAt?,
      Disk.at?_of_writeAll h.disk]
    cases (planOnDisk o disk input).2.disk.lastText? place writes <;> rfl

/-- A run that has no plan has written nothing. -/
theorem outcomeWrote_of_planOnDisk_error {failure : Failure} (hf : o.files ≠ [])
    (hp : planOnDisk o disk input = (.error failure, m)) :
    (runOnDisk o disk input).Wrote disk [] := by
  rw [runOnDisk_of_planOnDisk_error hf hp]
  exact outcomeWrote_of_wrote (by rw [hp]; exact .refl m)

/-- No page is written over a file outside the output directory. -/
theorem Options.KeepsApart.sparesInputs (h : o.KeepsApart disk input) :
    o.SparesInputs disk input := by
  intro plan m hp
  refine List.pairwise_of_forall_mem_list fun file _ later hlater w hw hsame => ?_
  obtain ⟨place, hl⟩ := Disk.exists_locate_of_isFile (isFile_of_mem_files hp hlater)
  obtain ⟨id, hsafe, hpath⟩ : ∃ id, isSafeName id = true ∧ w.1 = plan.target.pathOf id := by
    unfold Target.writesOf at hw
    split at hw
    · exact exists_id_of_mem_writesIn hw
    · cases hw
  refine h plan m hp later hlater ?_
  calc (placeFrom disk.workingDirectory later).dropLast
      = (placeFrom disk.workingDirectory w.1).dropLast := by
        rw [← workingDirectory_of_planOnDisk hp, ← Disk.eq_placeFrom_of_locate hl,
          ← Disk.eq_placeFrom_of_locate (hsame.trans hl)]
    _ = placeFrom disk.workingDirectory plan.target.directory := by
        rw [hpath, plan.target.placeFrom_pathOf hsafe, List.dropLast_concat]

/-- A run keeps its files apart from its output directory if its plan does. -/
theorem keepsApart_of_planOnDisk (hp : planOnDisk o disk input = (.ok plan, m))
    (h : ∀ file ∈ plan.files, (placeFrom disk.workingDirectory file).dropLast ≠
      placeFrom disk.workingDirectory plan.target.directory) : o.KeepsApart disk input := by
  intro plan' m' hp'
  cases hp.symm.trans hp'
  exact h

/-- A file that cannot be read is reported as such. -/
theorem isFileError_of_readFiles {d : Disk} {files : List Text} {failure : Failure}
    (h : (d.readFiles files).2 = some failure) : failure.isFileError = true := by
  induction files with
  | nil => cases h
  | cons file files ih =>
    rw [Disk.readFiles] at h
    cases hread : d.readText file with
    | ok text =>
      rw [hread] at h
      exact ih h
    | error e =>
      rw [hread] at h
      cases h
      rfl

/-- A run that spares its files, once it is ready, writes what they hold up to the first that cannot
be read, and stops there. -/
theorem runOnDisk_of_sparesInputs (hf : o.files ≠ []) (hs : o.SparesInputs disk input)
    (hp : planOnDisk o disk input = (.ok plan, m)) :
    runOnDisk o disk input = .ofResult
      (runOn (writeContents Host.onDisk plan.target (m.disk.readFiles plan.files).1 >>= fun _ =>
        stopAt (m.disk.readFiles plan.files).2) m) := by
  rw [runOnDisk_eq_readingAhead hf hs, outcomeOf, runOn_readingAhead hp]

/-- A run that is ready and spares its files is stopped by files that cannot be read or written, and
by nothing else. -/
theorem isFileError_of_failure (hf : o.files ≠ []) (hs : o.SparesInputs disk input)
    (hp : planOnDisk o disk input = (.ok plan, m)) {failure : Failure}
    (h : (runOnDisk o disk input).failure = some failure) : failure.isFileError = true := by
  rw [runOnDisk_of_sparesInputs hf hs hp, runOn_bind] at h
  rcases hrun : runOn (writeContents Host.onDisk plan.target (m.disk.readFiles plan.files).1) m with
    ⟨cause | _, m'⟩
  · rw [hrun] at h
    cases h
    exact (performs_writeContents _ _).isFileError m failure (by rw [hrun])
  · rw [hrun] at h
    cases hstop : (m.disk.readFiles plan.files).2 with
    | none =>
      rw [hstop] at h
      cases h
    | some cause =>
      rw [hstop] at h
      cases h
      exact isFileError_of_readFiles hstop

/-- A run that is ready and spares its files succeeds where all files can be read and all pages can
be written. -/
theorem failure_eq_none_iff (hf : o.files ≠ []) (hs : o.SparesInputs disk input)
    (hp : planOnDisk o disk input = (.ok plan, m)) :
    (runOnDisk o disk input).failure = none ↔
      (∃ e, m.disk.writeAll
        ((m.disk.readFiles plan.files).1.flatMap fun c => plan.target.writesIn c.2) = .ok e) ∧
      (m.disk.readFiles plan.files).2 = none := by
  rw [← (performs_writeContents plan.target _).ok_iff, runOnDisk_of_sparesInputs hf hs hp,
    runOn_bind]
  rcases runOn (writeContents Host.onDisk plan.target (m.disk.readFiles plan.files).1) m with
    ⟨cause | _, m'⟩
  · simp
  · cases (m.disk.readFiles plan.files).2 <;> simp [stopAt, runOn_pure, runOn_throw]

/-- **A run that is ready, spares its files and succeeds makes all of its writes.** -/
theorem wrote_of_failure_eq_none (hf : o.files ≠ []) (hs : o.SparesInputs disk input)
    (hp : planOnDisk o disk input = (.ok plan, m))
    (h : (runOnDisk o disk input).failure = none) :
    m.Wrote (runOnDisk o disk input).machine
      ((m.disk.readFiles plan.files).1.flatMap fun c => plan.target.writesIn c.2) := by
  obtain ⟨hall, hstop⟩ := (failure_eq_none_iff hf hs hp).1 h
  have hperforms := performs_writeContents plan.target (m.disk.readFiles plan.files).1
  have hok := (hperforms.ok_iff m).2 hall
  rw [runOnDisk_of_sparesInputs hf hs hp, hstop, runOn_bind]
  rcases hrun : runOn (writeContents Host.onDisk plan.target (m.disk.readFiles plan.files).1) m with
    ⟨cause | _, m'⟩
  · rw [hrun] at hok
    cases hok
  · exact hperforms.wrote_of_eq_ok hrun

/-- **A run that is ready, spares its files and is stopped by none succeeds and makes all of its
writes.** -/
theorem wrote_of_noFileError (hf : o.files ≠ []) (hs : o.SparesInputs disk input)
    (hp : planOnDisk o disk input = (.ok plan, m))
    (hclean : (runOnDisk o disk input).NoFileError) :
    (runOnDisk o disk input).failure = none ∧
      m.Wrote (runOnDisk o disk input).machine
        ((m.disk.readFiles plan.files).1.flatMap fun c => plan.target.writesIn c.2) := by
  have hnone : (runOnDisk o disk input).failure = none := by
    cases hfailure : (runOnDisk o disk input).failure with
    | none => rfl
    | some failure =>
      have herror := isFileError_of_failure hf hs hp hfailure
      rw [hclean failure hfailure] at herror
      cases herror
  exact ⟨hnone, wrote_of_failure_eq_none hf hs hp hnone⟩

end Plans

end ComponentPages
