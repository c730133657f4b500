import ComponentPages.Command.Run
import ComponentPages.Proofs.Writing

/-!
# Runs of the command on a disk

A run with files first makes ready: it reads its configuration, makes the output directory and finds
the files. Then it goes through the files and writes their pages.

- **`Plan`**, **`prepare`** — what a run with files goes by, and how it comes to it;
  **`runOptions_eq_prepare`** has the run go on from there.
- **`planOnDisk`** — the plan of a run on a disk. The disk alone tells it (**`Disk.plan`**,
  **`exists_planOnDisk_eq`**). It has directories more then at most
  (**`keepsFiles_of_planOnDisk`**), and what is planned to be read are files
  (**`isFile_of_mem_files`**).
- **`Target.write?`**, **`Target.writesIn`** — what is written of a page and of a text, and where
  to.
- **`performs_writePage`**, **`performs_writeContents`** — what is written of one page and of the
  texts of files.
-/

namespace ComponentPages

theorem runOn_orFail {α ε : Type} (failure : ε → Failure) (result : Except ε α) (m : Machine) :
    runOn (orFail failure result) m =
      match result with
      | .ok a => (.ok a, m)
      | .error e => (.error (failure e), m) := by
  cases result <;> rfl

theorem onDisk_makeDirectories (path : Text) (m : Machine) :
    Host.onDisk.makeDirectories path m =
      ((m.disk.makeDirectories path).2, { m with disk := (m.disk.makeDirectories path).1 }) := rfl

/-! ## What goes before the first file -/

/-- What a run with files goes by: where the pages go, and the files to be read in order. -/
structure Plan where
  target : Target
  files : List Text

section Prepare

variable {m : Type → Type} [Monad m]

/-- What the command with files does before it reads the first of them. -/
def prepare (h : Host m) (o : Options) : ExceptT Failure m Plan := do
  let config ← loadConfig h o.config
  match o.output with
  | none => throw .noOutput
  | some directory =>
    orFail (.makeOutput directory) (← h.makeDirectories directory)
    let format ← chooseFormat o.formatName
    let files ← expandArguments h o.files
    return ⟨⟨directory, config, format⟩, files⟩

/-- The command with files makes ready and then writes the pages of its files. -/
theorem runOptions_eq_prepare [LawfulMonad m] (h : Host m) {o : Options} (hf : o.files ≠ []) :
    runOptions h o = prepare h o >>= fun plan => writeFiles h plan.target plan.files := by
  simp only [runOptions, prepare, runFiles, List.isEmpty_iff, hf, if_false, bind_assoc]
  congr 1
  funext config
  cases o.output with
  | none => exact ExceptT.ext (by simp)
  | some directory => simp [bind_assoc]

end Prepare

/-! ## Plans -/

/-- The plan of a run on a disk, or why there is none, and the machine before the first file is
read. -/
def planOnDisk (o : Options) (disk : Disk) (input : Content) : Except Failure Plan × Machine :=
  runOn (prepare Host.onDisk o) ⟨disk, input, [], []⟩

/-- What goes on when a run is ready goes on from its plan. -/
theorem runOn_prepare_bind {α : Type} (o : Options) (disk : Disk) (input : Content)
    (f : Plan → Computation α) :
    runOn (prepare Host.onDisk o >>= f) ⟨disk, input, [], []⟩ =
      match planOnDisk o disk input with
      | (.ok plan, m) => runOn (f plan) m
      | (.error failure, m) => (.error failure, m) := by
  rw [runOn_bind, planOnDisk]
  rcases runOn (prepare Host.onDisk o) ⟨disk, input, [], []⟩ with ⟨_ | plan, m⟩ <;> rfl

theorem searches_orFail {α ε : Type} (failure : ε → Failure) (result : Except ε α) :
    Searches (orFail failure result) := by
  cases result with
  | ok a => exact searches_pure a
  | error e => exact searches_throw _

/-- To read the configuration is a search. -/
theorem searches_loadConfig (path : Option Text) : Searches (loadConfig Host.onDisk path) := by
  cases path with
  | none => exact searches_pure _
  | some path =>
    refine (looks_look (·.readText path)).searches.bind fun text => ?_
    exact (searches_orFail _ text).bind fun _ => searches_orFail _ _

theorem searches_chooseFormat (name : Text) : Searches (chooseFormat name) := by
  unfold chooseFormat
  split
  · exact searches_pure _
  · exact searches_throw _

/-- The plan of some options, where the output directory is made. -/
def planInto (o : Options) (config : Config) (directory : Text) : Computation Plan := do
  let format ← chooseFormat o.formatName
  let files ← expandArguments Host.onDisk o.files
  return ⟨⟨directory, config, format⟩, files⟩

theorem searches_planInto (o : Options) (config : Config) (directory : Text) :
    Searches (planInto o config directory) :=
  (searches_chooseFormat _).bind fun _ => (searches_expandArguments _).bind fun _ =>
    searches_pure _

/-- The plan of some options on a disk, or why there is none, and the disk when it is made. -/
def Disk.plan (d : Disk) (o : Options) : Except Failure Plan × Disk :=
  match d.ask (loadConfig Host.onDisk o.config), o.output with
  | .error failure, _ => (.error failure, d)
  | .ok _, none => (.error .noOutput, d)
  | .ok config, some directory =>
    match d.makeDirectories directory with
    | (e, .ok ()) => (e.ask (planInto o config directory), e)
    | (e, .error cause) => (.error (.makeOutput directory cause), e)

/-- When the plan is made, the output directory is made at most. -/
theorem Disk.addsDirectories_plan (d : Disk) (o : Options) :
    AddsDirectories (fun place => ∃ directory, o.output = some directory ∧
      LeadsThrough d.workingDirectory directory place) d (d.plan o).2 := by
  unfold Disk.plan
  cases d.ask (loadConfig Host.onDisk o.config) with
  | error failure => exact .refl _ d
  | ok config =>
    cases o.output with
    | none => exact .refl _ d
    | some directory =>
      have hmade : AddsDirectories (fun place => ∃ other, some directory = some other ∧
          LeadsThrough d.workingDirectory other place) d (d.makeDirectories directory).1 :=
        (d.addsDirectories_makeDirectories directory).mono
          fun _ hthrough => ⟨directory, rfl, hthrough⟩
      dsimp only
      rcases hdisk : d.makeDirectories directory with ⟨e, cause | _⟩ <;> rw [hdisk] at hmade <;>
        exact hmade

/-- **What comes before the first file is told by the disk alone.** -/
theorem exists_planOnDisk_eq (o : Options) (disk : Disk) (input : Content) :
    ∃ events, (∀ e ∈ events, LogEvent.writtenPath? e = none) ∧
      planOnDisk o disk input = ((disk.plan o).1, ⟨(disk.plan o).2, input, [], events⟩) := by
  obtain ⟨events, htold, hconfig⟩ := searches_loadConfig o.config ⟨disk, input, [], []⟩
  rw [planOnDisk, prepare, runOn_bind, hconfig, Disk.plan]
  cases disk.ask (loadConfig Host.onDisk o.config) with
  | error failure => exact ⟨events, htold, rfl⟩
  | ok config =>
    cases o.output with
    | none => exact ⟨events, htold, rfl⟩
    | some directory =>
      dsimp only
      rw [runOn_lift_bind, onDisk_makeDirectories, runOn_bind, runOn_orFail]
      rcases disk.makeDirectories directory with ⟨e, cause | _⟩
      · exact ⟨events, htold, rfl⟩
      · obtain ⟨more, htold', hplan⟩ :=
          searches_planInto o config directory ⟨e, input, [], [] ++ events⟩
        exact ⟨events ++ more, fun e he => (List.mem_append.1 he).elim (htold e) (htold' e), hplan⟩

/-- What a plan of some options on a disk is made of. The disk `e` is the one on which the output
directory is made. -/
structure Disk.Plans (d : Disk) (o : Options) (plan : Plan) (e : Disk) : Prop where
  config : d.ask (loadConfig Host.onDisk o.config) = .ok plan.target.config
  output : o.output = some plan.target.directory
  made : d.makeDirectories plan.target.directory = (e, .ok ())
  format : Format.ofName? o.formatName = some plan.target.format
  files : e.ask (expandArguments Host.onDisk o.files) = .ok plan.files

theorem ask_chooseFormat (name : Text) (d : Disk) :
    d.ask (chooseFormat name) =
      match Format.ofName? name with
      | some format => .ok format
      | none => .error (.unknownFormat name) := by
  unfold chooseFormat
  cases Format.ofName? name <;> rfl

/-- A plan is found where there is such a format and the arguments stand for files. -/
theorem ask_planInto_eq_ok_iff {o : Options} {config : Config} {directory : Text} {d : Disk}
    {plan : Plan} :
    d.ask (planInto o config directory) = .ok plan ↔
      ∃ format files, Format.ofName? o.formatName = some format ∧
        d.ask (expandArguments Host.onDisk o.files) = .ok files ∧
        plan = ⟨⟨directory, config, format⟩, files⟩ := by
  rw [planInto, ask_bind (searches_chooseFormat _)
    fun _ => (searches_expandArguments _).bind fun _ => searches_pure _, ask_chooseFormat]
  cases Format.ofName? o.formatName with
  | none => simp
  | some format =>
    rw [ok_bind, ask_bind (searches_expandArguments _) fun _ => searches_pure _]
    cases d.ask (expandArguments Host.onDisk o.files) with
    | error failure => simp
    | ok files =>
      rw [ok_bind]
      show Except.ok _ = Except.ok plan ↔ _
      simp [@eq_comm Plan]

theorem Disk.plan_eq_ok_iff {d e : Disk} {o : Options} {plan : Plan} :
    d.plan o = (.ok plan, e) ↔ d.Plans o plan e := by
  constructor
  · intro h
    unfold Disk.plan at h
    cases hconfig : d.ask (loadConfig Host.onDisk o.config) with
    | error failure => simp [hconfig] at h
    | ok config =>
      cases houtput : o.output with
      | none => simp [hconfig, houtput] at h
      | some directory =>
        rcases hmade : d.makeDirectories directory with ⟨made, cause | _⟩
        · simp [hconfig, houtput, hmade] at h
        · simp only [hconfig, houtput, hmade, Prod.mk.injEq] at h
          obtain ⟨hask, rfl⟩ := h
          obtain ⟨format, files, hformat, hfiles, rfl⟩ := ask_planInto_eq_ok_iff.1 hask
          exact ⟨hconfig, houtput, hmade, hformat, hfiles⟩
  · rintro ⟨hconfig, houtput, hmade, hformat, hfiles⟩
    unfold Disk.plan
    simp only [hconfig, houtput, hmade]
    exact Prod.ext (ask_planInto_eq_ok_iff.2 ⟨_, _, hformat, hfiles, rfl⟩) rfl

section PlanOnDisk

variable {o : Options} {disk : Disk} {input : Content} {plan : Plan} {m : Machine}

/-- A run that is ready has a plan of its options. -/
theorem plans_of_planOnDisk (h : planOnDisk o disk input = (.ok plan, m)) :
    disk.Plans o plan m.disk := by
  obtain ⟨events, -, hplan⟩ := exists_planOnDisk_eq o disk input
  obtain ⟨hok, rfl⟩ := Prod.mk.inj (hplan.symm.trans h)
  exact Disk.plan_eq_ok_iff.1 (Prod.ext hok rfl)

/-- Before the first file is read, directories are made on the way to the output directory, and
nothing else is changed. -/
theorem addsDirectories_planOnDisk (o : Options) (disk : Disk) (input : Content) :
    disk.AddsDirectories (fun place => ∃ directory, o.output = some directory ∧
      LeadsThrough disk.workingDirectory directory place) (planOnDisk o disk input).2.disk := by
  obtain ⟨events, -, hplan⟩ := exists_planOnDisk_eq o disk input
  rw [hplan]
  exact disk.addsDirectories_plan o

/-- The disk that the files are read from has the files of the disk before the run. -/
theorem keepsFiles_of_planOnDisk (h : planOnDisk o disk input = (.ok plan, m)) :
    disk.KeepsFiles m.disk := by
  have hadds := addsDirectories_planOnDisk o disk input
  rw [h] at hadds
  exact hadds.keepsFiles

/-- The disk that the files are read from has the working directory of the disk before the run. -/
theorem workingDirectory_of_planOnDisk (h : planOnDisk o disk input = (.ok plan, m)) :
    m.disk.workingDirectory = disk.workingDirectory := by
  have hadds := addsDirectories_planOnDisk o disk input
  rw [h] at hadds
  exact hadds.workingDirectory

/-- Before a run is ready it writes no page. -/
theorem writtenPaths_planOnDisk (o : Options) (disk : Disk) (input : Content) :
    (planOnDisk o disk input).2.writtenPaths = [] := by
  obtain ⟨events, htold, hplan⟩ := exists_planOnDisk_eq o disk input
  rw [hplan]
  exact List.filterMap_eq_nil_iff.2 htold

/-- What is planned to be read are files. -/
theorem isFile_of_mem_files (h : planOnDisk o disk input = (.ok plan, m)) {file : Text}
    (hfile : file ∈ plan.files) : m.disk.isFile file = true :=
  isFile_of_mem_expandArguments (plans_of_planOnDisk h).files file hfile

end PlanOnDisk

/-- The plan of a run without a configuration whose arguments are files. -/
theorem planOnDisk_of_isFile {o : Options} {directory : Text} {format : Format} {disk : Disk}
    (hconfig : o.config = none) (houtput : o.output = some directory)
    (hformat : Format.ofName? o.formatName = some format)
    (hmade : (disk.makeDirectories directory).2 = .ok ())
    (hfiles : ∀ file ∈ o.files, (disk.makeDirectories directory).1.isFile file = true)
    (input : Content) :
    planOnDisk o disk input =
      (.ok ⟨⟨directory, .builtin, format⟩, sortPaths o.files⟩,
        ⟨(disk.makeDirectories directory).1, input, [], []⟩) := by
  refine runOn_bind_eq_ok_iff.2 ⟨.builtin, _, by rw [hconfig]; rfl, ?_⟩
  rw [houtput]
  dsimp only
  rw [runOn_lift_bind]
  refine runOn_bind_eq_ok_iff.2 ⟨(), ⟨(disk.makeDirectories directory).1, input, [], []⟩, ?_, ?_⟩
  · rw [onDisk_makeDirectories, runOn_orFail, hmade]
  · refine runOn_bind_eq_ok_iff.2 ⟨format, _, by rw [chooseFormat, hformat]; rfl, ?_⟩
    refine runOn_bind_eq_ok_iff.2 ⟨sortPaths o.files, _, ?_, rfl⟩
    exact runOn_bind_eq_ok_iff.2 ⟨o.files, _, runOn_expandAll_of_isFile hfiles, rfl⟩

/-! ## What is written -/

/-- What is written of a page, and the path that it is written under. Nothing is written of a page
that cannot be made or whose id is no name of a file. -/
def Target.write? (t : Target) (page : Metadata.Page) : Option (Text × Text) :=
  match page.render t.config t.format with
  | .ok text => if isSafeName page.id then some (t.pathOf page.id, text) else none
  | .error _ => none

/-- What is written of the pages in a text. -/
def Target.writesIn (t : Target) (text : Text) : List (Text × Text) :=
  match Metadata.parsePages text with
  | .ok pages => pages.filterMap t.write?
  | .error _ => []

theorem Target.write?_eq_some_iff {t : Target} {page : Metadata.Page} {w : Text × Text} :
    t.write? page = some w ↔
      page.render t.config t.format = .ok w.2 ∧ isSafeName page.id = true ∧
        w.1 = t.pathOf page.id := by
  unfold write?
  cases page.render t.config t.format with
  | error e => simp
  | ok text => cases isSafeName page.id <;> simp [Prod.ext_iff, eq_comm, and_comm]

/-- What is written of a text are the pages in it that can be made and have safe ids. -/
theorem Target.mem_writesIn_iff {t : Target} {text : Text} {w : Text × Text} :
    w ∈ t.writesIn text ↔
      ∃ pages, Metadata.parsePages text = .ok pages ∧ ∃ page ∈ pages,
        page.render t.config t.format = .ok w.2 ∧ isSafeName page.id = true ∧
          w.1 = t.pathOf page.id := by
  unfold writesIn
  cases Metadata.parsePages text with
  | error e => simp
  | ok pages => simp [write?_eq_some_iff]

section WriteContent

variable {m : Type → Type} [Monad m]

/-- Writes the pages in the text of a file, or tells that it holds none. -/
def writeContent (h : Host m) (t : Target) (file text : Text) : ExceptT Failure m Unit :=
  match Metadata.parsePages text with
  | .ok pages => writePages h t file pages
  | .error _ => h.log (.unparsable file)

/-- Writes the pages in the texts of files in order. -/
def writeContents (h : Host m) (t : Target) : List (Text × Text) → ExceptT Failure m Unit
  | [] => pure ()
  | (file, text) :: contents => do
    writeContent h t file text
    writeContents h t contents

end WriteContent

/-- A file is read when its turn comes. -/
theorem runOn_writeFile (t : Target) (file : Text) (m : Machine) :
    runOn (writeFile Host.onDisk t file) m =
      match m.disk.readText file with
      | .ok text => runOn (writeContent Host.onDisk t file text) m
      | .error e => (.error (.readFile file e), m) := by
  rw [writeFile, runOn_lift_bind, onDisk_readText, runOn_bind, runOn_orFail]
  cases m.disk.readText file <;> rfl

theorem onDisk_writeText (path s : Text) (m : Machine) :
    Host.onDisk.writeText path s m =
      match m.disk.writeText path s with
      | .ok e => (.ok (), { m with disk := e })
      | .error failure => (.error failure, m) := by
  show ((m.disk.after (m.disk.writeText path s)).2,
    { m with disk := (m.disk.after (m.disk.writeText path s)).1 }) = _
  cases m.disk.writeText path s <;> rfl

/-- A page is written, which is told, or that is reported as a failure. -/
theorem performs_writeText (id path s : Text) :
    Performs (do
      orFail (.writeFile path) (← Host.onDisk.writeText path s)
      Host.onDisk.log (.wrote id path)) [(path, s)] := by
  have hrun (m : Machine) : runOn (do
      orFail (.writeFile path) (← Host.onDisk.writeText path s)
      Host.onDisk.log (.wrote id path)) m =
        match m.disk.writeText path s with
        | .ok e => (.ok (), { m with disk := e, events := m.events ++ [.wrote id path] })
        | .error cause => (.error (.writeFile path cause), m) := by
    rw [runOn_lift_bind, onDisk_writeText]
    cases m.disk.writeText path s <;> rfl
  refine ⟨fun m => ?_, fun m => ?_, fun m failure hfail => ?_⟩
  all_goals cases hwrite : m.disk.writeText path s
  · rw [hrun, hwrite, Disk.writable, hwrite]
    exact .refl m
  · next e =>
    rw [hrun, hwrite, Disk.writable, hwrite]
    refine ⟨Disk.writeAll_cons_eq_ok_iff.2 ⟨e, hwrite, rfl⟩, ?_⟩
    simp [Machine.writtenPaths, LogEvent.writtenPath?, Disk.writable]
  · simp [hrun, hwrite, Disk.writeAll_cons_eq_ok_iff]
  · simp [hrun, hwrite, Disk.writeAll_cons_eq_ok_iff]
  · rw [hrun, hwrite] at hfail
    cases hfail
    rfl
  · rw [hrun, hwrite] at hfail
    cases hfail

/-- A page is written where and as it is told, if at all. -/
theorem performs_writePage (t : Target) (file : Text) (page : Metadata.Page) :
    Performs (writePage Host.onDisk t file page) (t.write? page).toList := by
  unfold writePage Target.write?
  cases page.render t.config t.format with
  | error e => exact performs_log rfl
  | ok text =>
    cases isSafeName page.id with
    | false => exact performs_log rfl
    | true => exact performs_writeText page.id (t.pathOf page.id) text

theorem performs_writePages (t : Target) (file : Text) (pages : List Metadata.Page) :
    Performs (writePages Host.onDisk t file pages) (pages.filterMap t.write?) := by
  induction pages with
  | nil => exact performs_pure
  | cons page pages ih =>
    have hcons : (page :: pages).filterMap t.write? =
        (t.write? page).toList ++ pages.filterMap t.write? := by
      cases hw : t.write? page <;> simp [hw]
    rw [hcons]
    exact (performs_writePage t file page).bind ih

/-- The pages in a text are written one after another. -/
theorem performs_writeContent (t : Target) (file text : Text) :
    Performs (writeContent Host.onDisk t file text) (t.writesIn text) := by
  unfold writeContent Target.writesIn
  cases Metadata.parsePages text with
  | ok pages => exact performs_writePages t file pages
  | error e => exact performs_log rfl

/-- The texts of files are written page by page. -/
theorem performs_writeContents (t : Target) (contents : List (Text × Text)) :
    Performs (writeContents Host.onDisk t contents)
      (contents.flatMap fun c => t.writesIn c.2) := by
  induction contents with
  | nil => exact performs_pure
  | cons content contents ih => exact (performs_writeContent t content.1 content.2).bind ih

end ComponentPages
