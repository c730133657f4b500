import ComponentPages.Proofs.OutputDirectory

/-!
# Runs that fail because of their arguments

A run with files looks at its configuration and asks for an output directory before it makes one. It
looks at the format and at the patterns after that. So a run that its arguments stop has written no
page, but it can have made the output directory.

- **`Failure.isOfArguments`**, **`Failure.isBeforeOutput`** — the failures in question, and those
  that come before the output directory is made.
- **`Disk.plan_eq_error_cases`** — where a run can stop before it is ready.
- **`makeDirectories_of_isDirectory`** — a directory that is there is not made again.
- **`disk_of_isOfArguments`** — the disk after such a run.
- **`not_unchanged_of_arguments`** — the output directory is made before the format is looked at.
-/

namespace ComponentPages

/-- Whether a run has failed because of its arguments: no output directory is given, the
configuration cannot be understood, there is no such format, or a pattern is none. -/
def Failure.isOfArguments : Failure → Bool
  | noOutput | invalidConfig _ | unknownFormat _ | invalidPattern _ => true
  | _ => false

/-- Whether a run has failed because of arguments that are looked at before the output directory is
made. -/
def Failure.isBeforeOutput : Failure → Bool
  | noOutput | invalidConfig _ => true
  | _ => false

/-! ## Where a run can stop -/

/-- An argument stands for no files where its directory cannot be listed or it is no pattern. -/
theorem isBeforeOutput_eq_false_of_expandArgument {arg : Text} {m : Machine} {failure : Failure}
    (h : (runOn (expandArgument Host.onDisk arg) m).1 = .error failure) :
    failure.isBeforeOutput = false := by
  unfold expandArgument at h
  rw [runOn_lift_bind, onDisk_isFile] at h
  cases hfile : m.disk.isFile arg with
  | true => simp [hfile, runOn_pure] at h
  | false =>
    simp only [hfile, Bool.false_eq_true, if_false, runOn_lift_bind, onDisk_isDirectory] at h
    cases hdirectory : m.disk.isDirectory arg with
    | true =>
      simp only [hdirectory, if_true, runOn_lift_bind, onDisk_listDirectory] at h
      cases hnames : m.disk.listDirectory arg with
      | ok names =>
        simp only [hnames, jsonFilesIn, runOn_lift, filterAsking_isFile] at h
        cases h
      | error e =>
        simp only [hnames, runOn_throw, Except.error.injEq] at h
        rw [← h]
        rfl
    | false =>
      simp only [hdirectory, Bool.false_eq_true, if_false] at h
      cases hpatterns : GlobPattern.ofPath? arg with
      | none =>
        simp only [hpatterns, runOn_throw, Except.error.injEq] at h
        rw [← h]
        rfl
      | some patterns =>
        obtain ⟨paths, hpaths⟩ := exists_matchingFiles_eq arg patterns
        simp only [hpatterns, runOn_lift_bind, hpaths] at h
        split at h <;> cases h

/-- Arguments stand for no files where one of them does not. -/
theorem isBeforeOutput_eq_false_of_expandArguments {args : List Text} {d : Disk} {failure : Failure}
    (h : d.ask (expandArguments Host.onDisk args) = .error failure) :
    failure.isBeforeOutput = false := by
  rw [ask_expandArguments, ask_expandAll] at h
  induction args with
  | nil => cases h
  | cons arg args ih =>
    rw [List.mapM_cons] at h
    cases harg : d.ask (expandArgument Host.onDisk arg) with
    | error cause =>
      rw [harg] at h
      cases h
      exact isBeforeOutput_eq_false_of_expandArgument harg
    | ok files =>
      apply ih
      rw [harg, ok_bind] at h
      cases hargs : args.mapM fun arg => d.ask (expandArgument Host.onDisk arg) with
      | error cause =>
        rw [hargs] at h
        cases h
        rfl
      | ok found =>
        rw [hargs] at h
        cases h

/-- A format or a pattern that stops a run is looked at after the output directory is made. -/
theorem isBeforeOutput_eq_false_of_planInto {o : Options} {config : Config} {directory : Text}
    {d : Disk} {failure : Failure} (h : d.ask (planInto o config directory) = .error failure) :
    failure.isBeforeOutput = false := by
  rw [planInto, ask_bind (searches_chooseFormat _)
    fun _ => (searches_expandArguments _).bind fun _ => searches_pure _, ask_chooseFormat] at h
  cases hformat : Format.ofName? o.formatName with
  | none =>
    rw [hformat] at h
    cases h
    rfl
  | some format =>
    rw [hformat, ok_bind, ask_bind (searches_expandArguments _) fun _ => searches_pure _] at h
    cases hfiles : d.ask (expandArguments Host.onDisk o.files) with
    | error cause =>
      rw [hfiles] at h
      cases h
      exact isBeforeOutput_eq_false_of_expandArguments hfiles
    | ok files =>
      rw [hfiles] at h
      cases h

/-- **Where a run can stop before it is ready**: before it makes its output directory, and the disk
is as it was, or after that. -/
theorem Disk.plan_eq_error_cases {d e : Disk} {o : Options} {failure : Failure}
    (h : d.plan o = (.error failure, e)) :
    e = d ∨ (failure.isBeforeOutput = false ∧
      ∃ directory, o.output = some directory ∧ e = (d.makeDirectories directory).1) := by
  unfold Disk.plan at h
  cases hconfig : d.ask (loadConfig Host.onDisk o.config) with
  | error cause =>
    simp only [hconfig, Prod.mk.injEq] at h
    exact .inl h.2.symm
  | ok config =>
    cases houtput : o.output with
    | none =>
      simp only [hconfig, houtput, Prod.mk.injEq] at h
      exact .inl h.2.symm
    | some directory =>
      right
      rcases hmade : d.makeDirectories directory with ⟨made, cause | _⟩
      · simp only [hconfig, houtput, hmade, Prod.mk.injEq, Except.error.injEq] at h
        obtain ⟨rfl, rfl⟩ := h
        exact ⟨rfl, directory, rfl, by rw [hmade]⟩
      · simp only [hconfig, houtput, hmade, Prod.mk.injEq] at h
        obtain ⟨hask, rfl⟩ := h
        exact ⟨isBeforeOutput_eq_false_of_planInto hask, directory, rfl, by rw [hmade]⟩

/-- A run that goes through its files is stopped by one that cannot be read or written, and by
nothing else. -/
theorem isFileError_of_writeFiles {t : Target} {files : List Text} {m : Machine}
    {failure : Failure} (h : (runOn (writeFiles Host.onDisk t files) m).1 = .error failure) :
    failure.isFileError = true := by
  induction files generalizing m with
  | nil => cases h
  | cons file files ih =>
    rw [writeFiles, runOn_bind, runOn_writeFile] at h
    cases hread : m.disk.readText file with
    | error cause =>
      rw [hread] at h
      cases h
      rfl
    | ok text =>
      rw [hread] at h
      dsimp only at h
      rcases hrun : runOn (writeContent Host.onDisk t file text) m with ⟨cause | _, m'⟩
      · rw [hrun] at h
        cases h
        exact (performs_writeContent t file text).isFileError m failure (by rw [hrun])
      · rw [hrun] at h
        exact ih h

/-- No argument is to blame for a file that cannot be read or written. -/
theorem Failure.isOfArguments_eq_false_of_isFileError {failure : Failure}
    (h : failure.isFileError = true) : failure.isOfArguments = false := by
  cases failure <;> first | rfl | cases h

/-- A run that its arguments stop is stopped before it is ready. -/
theorem exists_planOnDisk_of_isOfArguments {o : Options} {disk : Disk} {input : Content}
    {failure : Failure} (hf : o.files ≠ [])
    (hfail : (runOnDisk o disk input).failure = some failure)
    (hargs : failure.isOfArguments = true) :
    ∃ m, planOnDisk o disk input = (.error failure, m) ∧
      runOnDisk o disk input = ⟨some failure, m⟩ := by
  rcases hp : planOnDisk o disk input with ⟨cause | plan, m⟩
  · have hrun := runOnDisk_of_planOnDisk_error hf hp
    rw [hrun, Option.some.injEq] at hfail
    subst hfail
    exact ⟨m, rfl, hrun⟩
  · rw [runOnDisk_of_planOnDisk hf hp] at hfail
    rcases hwrite : runOn (writeFiles Host.onDisk plan.target plan.files) m with ⟨cause | _, m'⟩
    · rw [hwrite] at hfail
      cases hfail
      have herror := Failure.isOfArguments_eq_false_of_isFileError
        (isFileError_of_writeFiles (t := plan.target) (by rw [hwrite]))
      rw [hargs] at herror
      cases herror
    · rw [hwrite] at hfail
      cases hfail

/-! ## A directory that is there -/

/-- **A directory that is there is not made again**: nothing is changed. -/
theorem Disk.makeDirectories_of_isDirectory {d : Disk} {path : Text}
    (h : d.isDirectory path = true) : d.makeDirectories path = (d, .ok ()) := by
  have hensure : d.ensureDirectory path = .ok d := by
    have hnode : ∃ place, d.nodeAt path = .ok (place, .directory) := by
      unfold isDirectory at h
      split at h
      · next place hplace => exact ⟨place, hplace⟩
      · cases h
    obtain ⟨place, hplace⟩ := hnode
    obtain ⟨place', hlocate, hfound⟩ := bind_eq_ok_iff.1 hplace
    have hmake : d.makeDirectory path = .error .alreadyExists := by
      rw [makeDirectory, hlocate, ok_bind]
      cases hat : d.at? place' with
      | none => simp [hat] at hfound
      | some node => rfl
    rw [ensureDirectory, hmake]
    exact if_pos h
  unfold makeDirectories
  split
  · rfl
  · rfl
  · rw [makeWith, hensure]
    rfl

/-! ## The disk after a run that fails -/

/-- **The disk after a run with files that its arguments stop.** Where no output directory is given
or the configuration cannot be understood, nothing is changed. Where there is no such format or a
pattern is none, nothing is changed but that directories are made that the path of the output
directory leads through, and these only if there is no such directory yet. -/
theorem disk_of_isOfArguments {o : Options} {disk : Disk} {input : Content} {failure : Failure}
    (hf : o.files ≠ []) (hfail : (runOnDisk o disk input).failure = some failure)
    (hargs : failure.isOfArguments = true) :
    (failure.isBeforeOutput = true → (runOnDisk o disk input).machine.disk = disk) ∧
    (∀ directory, o.output = some directory → disk.isDirectory directory = true →
      (runOnDisk o disk input).machine.disk = disk) ∧
    disk.AddsDirectories (fun place => ∃ directory, o.output = some directory ∧
      LeadsThrough disk.workingDirectory directory place)
      (runOnDisk o disk input).machine.disk := by
  obtain ⟨m, hp, hrun⟩ := exists_planOnDisk_of_isOfArguments hf hfail hargs
  have hcases : m.disk = disk ∨ (failure.isBeforeOutput = false ∧ ∃ directory,
      o.output = some directory ∧ m.disk = (disk.makeDirectories directory).1) := by
    obtain ⟨events, -, hplan⟩ := exists_planOnDisk_eq o disk input
    obtain ⟨herror, rfl⟩ := Prod.mk.inj (hplan.symm.trans hp)
    exact Disk.plan_eq_error_cases (Prod.ext herror rfl)
  have hadds := addsDirectories_planOnDisk o disk input
  rw [hp] at hadds
  rw [hrun]
  refine ⟨fun hbefore => ?_, fun directory houtput hthere => ?_, hadds⟩
  · rcases hcases with hsame | ⟨hafter, -⟩
    · exact hsame
    · rw [hbefore] at hafter
      cases hafter
  · rcases hcases with hsame | ⟨-, other, hother, hmade⟩
    · exact hsame
    · rw [houtput, Option.some.injEq] at hother
      subst hother
      rw [Disk.makeDirectories_of_isDirectory hthere] at hmade
      exact hmade

/-! ## Runs on a small disk -/

/-- A page is to be written in a format that there is not. -/
def otherFormatRun : Options :=
  ⟨["p.json".toList], some "out".toList, none, some "html".toList⟩

/-- A pattern is to be looked for that is none. -/
def brokenPatternRun : Options := .into "out".toList ["[p".toList]

/-- The output directory is the one place that can have changed. -/
theorem disk_of_isOfArguments_otherFormat :
    otherFormatRun.files ≠ [] ∧
    (runOnDisk otherFormatRun onePage (.text [])).failure =
      some (.unknownFormat "html".toList) ∧
    (Failure.unknownFormat "html".toList).isOfArguments = true ∧
    onePage.AddsDirectories (fun place => ∃ directory, otherFormatRun.output = some directory ∧
      LeadsThrough onePage.workingDirectory directory place)
      (runOnDisk otherFormatRun onePage (.text [])).machine.disk := by
  have hfail : (runOnDisk otherFormatRun onePage (.text [])).failure =
      some (.unknownFormat "html".toList) := by decide +kernel
  exact ⟨List.cons_ne_nil _ _, hfail, rfl,
    (disk_of_isOfArguments (List.cons_ne_nil _ _) hfail rfl).2.2⟩

/-- **A run that its arguments stop can have changed the disk**: the output directory is made before
the format and the patterns are looked at. -/
theorem not_unchanged_of_arguments :
    ((runOnDisk otherFormatRun onePage (.text [])).failure =
        some (.unknownFormat "html".toList) ∧
      (runOnDisk otherFormatRun onePage (.text [])).machine.disk.at? ["out".toList] ≠
        onePage.at? ["out".toList]) ∧
    ((runOnDisk brokenPatternRun onePage (.text [])).failure =
        some (.invalidPattern "[p".toList) ∧
      (runOnDisk brokenPatternRun onePage (.text [])).machine.disk.at? ["out".toList] ≠
        onePage.at? ["out".toList]) := by
  decide +kernel

end ComponentPages
