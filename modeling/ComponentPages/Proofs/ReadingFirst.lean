import ComponentPages.Proofs.Runs

/-!
# Reading before writing

A run reads each file when its turn comes, after the pages of the files before it are written. That
is the same as to read all files before the first page is written, as long as no page is written
over a file that is still to be read, and as long as every file can be read: where one cannot, the
pages of the files before it are written already.

- **`Disk.readFiles`** — what files hold, in order up to the first that cannot be read.
- **`readingFirst`**, **`readingAhead`** — the command with all files read before the first page is
  written. A file that cannot be read stops the one before anything is written, and the other when
  what is in front of the file is written.
- **`Target.Spares`**, **`Options.SparesInputs`** — no page is written over a file that is still to
  be read.
- **`runOn_writeFiles`** — files that are spared are read as they are in the beginning.
- **`runOnDisk_eq_readingAhead`**, **`exitCode_readingAhead`** — what that says about the command.
-/

namespace ComponentPages

/-! ## Reading files -/

/-- What files hold, with their paths and in order, up to the first that cannot be read, and what is
reported of that one. -/
def Disk.readFiles (d : Disk) : List Text → List (Text × Text) × Option Failure
  | [] => ([], none)
  | file :: files =>
    match d.readText file with
    | .ok text => ((file, text) :: (d.readFiles files).1, (d.readFiles files).2)
    | .error e => ([], some (.readFile file e))

/-- Where every file can be read there is nothing to report. -/
theorem Disk.readFiles_eq_none_iff {d : Disk} {files : List Text} :
    (d.readFiles files).2 = none ↔ ∀ file ∈ files, ∃ text, d.readText file = .ok text := by
  induction files with
  | nil => simp [readFiles]
  | cons file files ih =>
    cases hread : d.readText file with
    | ok text => simp [readFiles, hread, ih]
    | error e => simp [readFiles, hread]

/-- Stops with a failure, if there is one. -/
def stopAt : Option Failure → Computation Unit
  | none => pure ()
  | some failure => throw failure

/-- The command with files on a machine, reading all of them before it writes the first page. A file
that cannot be read stops it at once. -/
def readingFirst (o : Options) : Computation Unit := do
  let plan ← prepare Host.onDisk o
  let (contents, failure) ← (Host.look (·.readFiles plan.files) : StateM Machine _)
  stopAt failure
  writeContents Host.onDisk plan.target contents

/-- The command with files on a machine, reading all of them before it writes the first page. A file
that cannot be read stops it when the pages of the files in front are written. -/
def readingAhead (o : Options) : Computation Unit := do
  let plan ← prepare Host.onDisk o
  let (contents, failure) ← (Host.look (·.readFiles plan.files) : StateM Machine _)
  writeContents Host.onDisk plan.target contents
  stopAt failure

/-- The outcome that the end of a computation is. -/
def Outcome.ofResult : Except Failure Unit × Machine → Outcome
  | (.ok (), machine) => ⟨none, machine⟩
  | (.error e, machine) => ⟨some e, machine⟩

@[simp] theorem Outcome.machine_ofResult (r : Except Failure Unit × Machine) :
    (Outcome.ofResult r).machine = r.2 := by
  rcases r with ⟨_ | _, m⟩ <;> rfl

@[simp] theorem Outcome.failure_ofResult (r : Except Failure Unit × Machine) :
    (Outcome.ofResult r).failure = match r.1 with
      | .ok _ => none
      | .error failure => some failure := by
  rcases r with ⟨_ | _, m⟩ <;> rfl

/-- What comes of a computation on a machine with a disk and an input. -/
def outcomeOf (x : Computation Unit) (disk : Disk) (input : Content) : Outcome :=
  .ofResult (runOn x ⟨disk, input, [], []⟩)

/-- A run that reads its files first goes through what they hold if it can read all of them. -/
theorem runOn_readingFirst {o : Options} {disk : Disk} {input : Content} {plan : Plan} {m : Machine}
    (hp : planOnDisk o disk input = (.ok plan, m)) :
    runOn (readingFirst o) ⟨disk, input, [], []⟩ =
      runOn (stopAt (m.disk.readFiles plan.files).2 >>= fun _ =>
        writeContents Host.onDisk plan.target (m.disk.readFiles plan.files).1) m := by
  rw [readingFirst, runOn_prepare_bind, hp]
  rfl

/-- A run that reads ahead goes through what its files hold, as far as it can read them. -/
theorem runOn_readingAhead {o : Options} {disk : Disk} {input : Content} {plan : Plan} {m : Machine}
    (hp : planOnDisk o disk input = (.ok plan, m)) :
    runOn (readingAhead o) ⟨disk, input, [], []⟩ =
      runOn (writeContents Host.onDisk plan.target (m.disk.readFiles plan.files).1 >>= fun _ =>
        stopAt (m.disk.readFiles plan.files).2) m := by
  rw [readingAhead, runOn_prepare_bind, hp]
  rfl

/-! ## Files that are spared -/

/-- What is written of the pages in a file. -/
def Target.writesOf (t : Target) (d : Disk) (file : Text) : List (Text × Text) :=
  match d.readText file with
  | .ok text => t.writesIn text
  | .error _ => []

/-- No page in one of some files is written over one that comes after it. -/
def Target.Spares (t : Target) (d : Disk) (files : List Text) : Prop :=
  files.Pairwise fun file later => ∀ w ∈ t.writesOf d file, d.locate w.1 ≠ d.locate later

instance (t : Target) (d : Disk) (files : List Text) : Decidable (t.Spares d files) :=
  inferInstanceAs (Decidable (List.Pairwise _ _))

/-- A run on a disk writes no page over a file that is still to be read. -/
def Options.SparesInputs (o : Options) (disk : Disk) (input : Content) : Prop :=
  ∀ plan m, planOnDisk o disk input = (.ok plan, m) → plan.target.Spares m.disk plan.files

/-- A run spares its files if its plan does. -/
theorem sparesInputs_of_planOnDisk {o : Options} {disk : Disk} {input : Content} {plan : Plan}
    {m : Machine} (hp : planOnDisk o disk input = (.ok plan, m))
    (h : plan.target.Spares m.disk plan.files) : o.SparesInputs disk input := by
  intro plan' m' hp'
  cases hp.symm.trans hp'
  exact h

theorem Disk.exists_locate_of_isFile {d : Disk} {path : Text} (h : d.isFile path = true) :
    ∃ place, d.locate path = .ok place := by
  obtain ⟨-, place, -, hl, -⟩ := isFile_iff.1 h
  exact ⟨place, hl⟩

/-- To write the pages of a file changes no directory, and no file that none of them is written
over. -/
theorem readText_of_writeContent {t : Target} {file text : Text} {d : Disk} {m m' : Machine}
    (htree : d.SameTree m.disk)
    (h : runOn (writeContent Host.onDisk t file text) m = (.ok (), m')) :
    d.SameTree m'.disk ∧ ∀ later, d.isFile later = true →
      (∀ w ∈ t.writesIn text, d.locate w.1 ≠ d.locate later) →
      m'.disk.readText later = m.disk.readText later := by
  have hall := ((performs_writeContent t file text).wrote_of_eq_ok h).disk
  refine ⟨htree.trans (Disk.sameTree_of_writeAll hall), fun later hlater hne => ?_⟩
  obtain ⟨place, hplace⟩ := Disk.exists_locate_of_isFile hlater
  refine Disk.readText_of_writeAll_of_ne hall (htree.locate_eq_ok_iff.2 hplace) fun w hw hsame => ?_
  exact hne w hw ((htree.locate_eq_ok_iff.1 hsame).trans hplace.symm)

/-- The files of a plan are read as they are in the beginning, if nothing is written over those that
are still to be read. The induction keeps that all files ahead read as they did, on a disk with the
same directories. -/
theorem runOn_writeFiles (t : Target) {d : Disk} {files : List Text} {m : Machine}
    (htree : d.SameTree m.disk) (hread : ∀ file ∈ files, m.disk.readText file = d.readText file)
    (hfiles : ∀ file ∈ files, d.isFile file = true)
    (hspared : t.Spares d files) :
    runOn (writeFiles Host.onDisk t files) m =
      runOn (writeContents Host.onDisk t (d.readFiles files).1 >>= fun _ =>
        stopAt (d.readFiles files).2) m := by
  induction files generalizing m with
  | nil => rfl
  | cons file files ih =>
    obtain ⟨hlater, hrest⟩ := List.pairwise_cons.1 hspared
    obtain ⟨hhead, htail⟩ := List.forall_mem_cons.1 hread
    obtain ⟨-, hfiles⟩ := List.forall_mem_cons.1 hfiles
    rw [writeFiles, runOn_bind, runOn_writeFile, hhead]
    cases hfile : d.readText file with
    | error e => simp only [Disk.readFiles, hfile]; rfl
    | ok text =>
      simp only [Disk.readFiles, hfile, writeContents, bind_assoc]
      rw [runOn_bind]
      rcases hwritten : runOn (writeContent Host.onDisk t file text) m with ⟨_ | _, m'⟩
      · rfl
      · obtain ⟨htree', hkept⟩ := readText_of_writeContent htree hwritten
        refine ih htree' (fun later hmem => ?_) hfiles hrest
        rw [← htail later hmem]
        refine hkept later (hfiles later hmem) ?_
        simpa only [Target.writesOf, hfile] using hlater later hmem

/-! ## The command -/

theorem runOnDisk_eq_outcomeOf (o : Options) (disk : Disk) (input : Content) :
    runOnDisk o disk input = outcomeOf (runOptions Host.onDisk o) disk input := rfl

/-- A run that has a plan goes through its files. -/
theorem runOnDisk_of_planOnDisk {o : Options} {disk : Disk} {input : Content} {plan : Plan}
    {m : Machine} (hf : o.files ≠ []) (hp : planOnDisk o disk input = (.ok plan, m)) :
    runOnDisk o disk input =
      .ofResult (runOn (writeFiles Host.onDisk plan.target plan.files) m) := by
  rw [runOnDisk_eq_outcomeOf, runOptions_eq_prepare Host.onDisk hf, outcomeOf, runOn_prepare_bind,
    hp]

/-- A run that has no plan stops where it would be ready. -/
theorem runOnDisk_of_planOnDisk_error {o : Options} {disk : Disk} {input : Content}
    {failure : Failure} {m : Machine} (hf : o.files ≠ [])
    (hp : planOnDisk o disk input = (.error failure, m)) :
    runOnDisk o disk input = ⟨some failure, m⟩ := by
  rw [runOnDisk_eq_outcomeOf, runOptions_eq_prepare Host.onDisk hf, outcomeOf, runOn_prepare_bind,
    hp]
  rfl

/-- A run that spares its files is one that reads all of them before it writes the first page, but
for what it does when one cannot be read. -/
theorem runOnDisk_eq_readingAhead {o : Options} {disk : Disk} {input : Content}
    (hf : o.files ≠ []) (hs : o.SparesInputs disk input) :
    runOnDisk o disk input = outcomeOf (readingAhead o) disk input := by
  rcases hp : planOnDisk o disk input with ⟨failure | plan, m⟩
  · rw [runOnDisk_eq_outcomeOf, runOptions_eq_prepare Host.onDisk hf, outcomeOf, outcomeOf,
      readingAhead, runOn_prepare_bind, runOn_prepare_bind, hp]
  · rw [runOnDisk_of_planOnDisk hf hp, outcomeOf, runOn_readingAhead hp]
    exact congrArg Outcome.ofResult
      (runOn_writeFiles plan.target (.refl m.disk) (fun _ _ => rfl)
        (fun _ hfile => isFile_of_mem_files hp hfile) (hs plan m hp))

/-- A computation may come before or after a look at whether to stop, where there is nothing to stop
at. -/
theorem runOn_stopAt_none (x : Computation Unit) (m : Machine) :
    runOn (x >>= fun _ => stopAt none) m = runOn (stopAt none >>= fun _ => x) m := by
  simp [stopAt]

/-- To stop before or after a computation fails or succeeds alike. -/
theorem isOk_runOn_stopAt (x : Computation Unit) (failure : Option Failure) (m : Machine) :
    (runOn (x >>= fun _ => stopAt failure) m).1.isOk =
      (runOn (stopAt failure >>= fun _ => x) m).1.isOk := by
  cases failure with
  | none => rw [runOn_stopAt_none]
  | some e =>
    rw [runOn_bind]
    rcases runOn x m with ⟨_ | _, m'⟩ <;> rfl

/-- The exit status tells whether a computation has succeeded. -/
theorem exitCode_outcomeOf (x : Computation Unit) (disk : Disk) (input : Content) :
    (outcomeOf x disk input).exitCode =
      if (runOn x ⟨disk, input, [], []⟩).1.isOk then 0 else 1 := by
  unfold outcomeOf Outcome.ofResult
  rcases runOn x ⟨disk, input, [], []⟩ with ⟨_ | _, m⟩ <;> rfl

/-- A computation with exit status zero has succeeded. -/
theorem runOn_of_exitCode_eq_zero {x : Computation Unit} {disk : Disk} {input : Content}
    (h : (outcomeOf x disk input).exitCode = 0) :
    runOn x ⟨disk, input, [], []⟩ = (.ok (), (outcomeOf x disk input).machine) := by
  rw [exitCode_outcomeOf] at h
  rcases hx : runOn x ⟨disk, input, [], []⟩ with ⟨_ | _, m⟩
  · rw [hx] at h
    cases h
  · rw [outcomeOf, hx]
    rfl

/-- The exit status does not depend on when a file that cannot be read stops the run. -/
theorem exitCode_readingAhead (o : Options) (disk : Disk) (input : Content) :
    (outcomeOf (readingAhead o) disk input).exitCode =
      (outcomeOf (readingFirst o) disk input).exitCode := by
  rcases hp : planOnDisk o disk input with ⟨failure | plan, m⟩
  · rw [outcomeOf, outcomeOf, readingAhead, readingFirst, runOn_prepare_bind, runOn_prepare_bind,
      hp]
  · rw [exitCode_outcomeOf, exitCode_outcomeOf, runOn_readingAhead hp, runOn_readingFirst hp,
      isOk_runOn_stopAt]

/-- All files of a run on a disk can be read. -/
def Options.CanReadInputs (o : Options) (disk : Disk) (input : Content) : Prop :=
  ∀ plan m, planOnDisk o disk input = (.ok plan, m) →
    ∀ file ∈ plan.files, ∃ text, m.disk.readText file = .ok text

/-- Where all files can be read, a run that reads ahead is one that reads its files first. -/
theorem outcomeOf_readingAhead {o : Options} {disk : Disk} {input : Content}
    (h : o.CanReadInputs disk input) :
    outcomeOf (readingAhead o) disk input = outcomeOf (readingFirst o) disk input := by
  rcases hp : planOnDisk o disk input with ⟨failure | plan, m⟩
  · rw [outcomeOf, outcomeOf, readingAhead, readingFirst, runOn_prepare_bind, runOn_prepare_bind,
      hp]
  · have hnone : (m.disk.readFiles plan.files).2 = none :=
      Disk.readFiles_eq_none_iff.2 (h plan m hp)
    rw [outcomeOf, outcomeOf, runOn_readingAhead hp, runOn_readingFirst hp, hnone,
      runOn_stopAt_none]

/-- A run that spares its files has the exit status of one that reads all of them before it writes
the first page. If all of them can be read, nothing at all is different. If one cannot, it is a run
that reads all files in front of that one first, writes their pages, and fails then. -/
theorem runOnDisk_eq_readingFirst {o : Options} {disk : Disk} {input : Content}
    (hf : o.files ≠ []) (hs : o.SparesInputs disk input) :
    (runOnDisk o disk input).exitCode = (outcomeOf (readingFirst o) disk input).exitCode ∧
      runOnDisk o disk input = outcomeOf (readingAhead o) disk input ∧
      (o.CanReadInputs disk input →
        runOnDisk o disk input = outcomeOf (readingFirst o) disk input) := by
  have hahead := runOnDisk_eq_readingAhead hf hs
  refine ⟨?_, hahead, fun hread => ?_⟩
  · rw [hahead, exitCode_readingAhead]
  · rw [hahead, outcomeOf_readingAhead hread]

/-! ## Runs on small disks -/

/-- A text that holds one page, with an id, a title and nothing else. -/
def singlePage (id title : Text) : Text :=
  "\x7b\"id\":\"".toList ++ id ++ "\",\"title\":\"".toList ++ title ++
    "\",\"component\":\x7b\x7d\x7d".toList

/-- A disk with some files in the working directory. -/
def Disk.ofFiles (files : List (Text × Content)) : Disk :=
  files.foldl (fun d file => d.put [file.1] (.file file.2)) ⟨.empty, []⟩

/-- The options to write the pages of files into a directory. -/
def Options.into (directory : Text) (files : List Text) : Options :=
  ⟨files, some directory, none, none⟩

/-- The plan of a run on arguments that stand for files in order. -/
theorem exists_planOnDisk_into {directory : Text} {args files : List Text} {disk : Disk}
    (hmade : (disk.makeDirectories directory).2 = .ok ())
    (hfound : (disk.makeDirectories directory).1.ask (expandAll Host.onDisk args) = .ok files)
    (hsorted : files.Pairwise fun p q =>
      (comparePaths p q).isLE = true ∧ pathParts p ≠ pathParts q) :
    ∃ m, planOnDisk (.into directory args) disk (.text []) =
      (.ok ⟨⟨directory, .builtin, .markdown⟩, files⟩, m) ∧
        m.disk = (disk.makeDirectories directory).1 := by
  have hfiles : (disk.makeDirectories directory).1.ask (expandArguments Host.onDisk args) =
      .ok files := by
    rw [ask_expandArguments, hfound]
    exact congrArg Except.ok (sortPaths_eq_self hsorted)
  have hformat : Format.ofName? "markdown".toList = some .markdown := by decide
  have hplan : disk.plan (.into directory args) =
      (.ok ⟨⟨directory, .builtin, .markdown⟩, files⟩, (disk.makeDirectories directory).1) :=
    Disk.plan_eq_ok_iff.2 ⟨rfl, rfl, Prod.ext rfl hmade, hformat, hfiles⟩
  obtain ⟨events, -, hp⟩ := exists_planOnDisk_eq (.into directory args) disk (.text [])
  rw [hplan] at hp
  exact ⟨_, hp, rfl⟩

/-- The plan of a run on files that are in order. -/
theorem planOnDisk_into {directory : Text} {files : List Text} {disk : Disk}
    (hmade : (disk.makeDirectories directory).2 = .ok ())
    (hfiles : ∀ file ∈ files, (disk.makeDirectories directory).1.isFile file = true)
    (hsorted : files.Pairwise fun p q =>
      (comparePaths p q).isLE = true ∧ pathParts p ≠ pathParts q) :
    planOnDisk (.into directory files) disk (.text []) =
      (.ok ⟨⟨directory, .builtin, .markdown⟩, files⟩,
        ⟨(disk.makeDirectories directory).1, .text [], [], []⟩) := by
  have hformat : Format.ofName? "markdown".toList = some .markdown := by decide
  have h := planOnDisk_of_isFile (show (Options.into directory files).config = none from rfl) rfl
    hformat hmade hfiles (.text [])
  rwa [show (Options.into directory files).files = files from rfl,
    sortPaths_eq_self hsorted] at h

/-- Two files with a page each. -/
def twoFiles : Disk :=
  .ofFiles [("a.json".toList, .text (singlePage ['x'] ['X'])),
    ("b.json".toList, .text (singlePage ['y'] ['Y']))]

/-- The pages of the two files go into the directory where the files are. -/
def twoFilesRun : Options := .into ['.'] ["a.json".toList, "b.json".toList]

theorem planOnDisk_twoFiles :
    planOnDisk twoFilesRun twoFiles (.text []) =
      (.ok ⟨⟨['.'], .builtin, .markdown⟩, ["a.json".toList, "b.json".toList]⟩,
        ⟨(twoFiles.makeDirectories ['.']).1, .text [], [], []⟩) :=
  planOnDisk_into (by decide +kernel) (by decide +kernel) (by decide +kernel)

theorem sparesInputs_twoFiles : twoFilesRun.SparesInputs twoFiles (.text []) :=
  sparesInputs_of_planOnDisk planOnDisk_twoFiles (by decide +kernel)

theorem runOnDisk_eq_readingFirst_twoFiles :
    runOnDisk twoFilesRun twoFiles (.text []) =
      outcomeOf (readingFirst twoFilesRun) twoFiles (.text []) := by
  refine (runOnDisk_eq_readingFirst (List.cons_ne_nil _ _) sparesInputs_twoFiles).2.2 ?_
  intro plan m hp
  cases planOnDisk_twoFiles.symm.trans hp
  exact Disk.readFiles_eq_none_iff.1 (by decide +kernel)

/-- A file with a page and one that is no text. -/
def fileAndBytes : Disk :=
  .ofFiles [("a.json".toList, .text (singlePage ['x'] ['X'])), ("b.json".toList, .bytes [255])]

def fileAndBytesRun : Options := .into "out".toList ["a.json".toList, "b.json".toList]

theorem planOnDisk_fileAndBytes :
    planOnDisk fileAndBytesRun fileAndBytes (.text []) =
      (.ok ⟨⟨"out".toList, .builtin, .markdown⟩, ["a.json".toList, "b.json".toList]⟩,
        ⟨(fileAndBytes.makeDirectories "out".toList).1, .text [], [], []⟩) :=
  planOnDisk_into (by decide +kernel) (by decide +kernel) (by decide +kernel)

/-- The page of the first file is written before the second one turns out to be no text. A run that
reads both first writes nothing. -/
theorem not_readingFirst_fileAndBytes :
    ¬ ((runOnDisk fileAndBytesRun fileAndBytes (.text [])).exitCode =
        (outcomeOf (readingFirst fileAndBytesRun) fileAndBytes (.text [])).exitCode ∧
      ∀ place, (runOnDisk fileAndBytesRun fileAndBytes (.text [])).machine.disk.at? place =
        (outcomeOf (readingFirst fileAndBytesRun) fileAndBytes
          (.text [])).machine.disk.at? place) := by
  rintro ⟨-, hsame⟩
  have h := hsame ["out".toList, "x.md".toList]
  rw [runOnDisk_of_planOnDisk (List.cons_ne_nil _ _) planOnDisk_fileAndBytes, outcomeOf,
    runOn_readingFirst planOnDisk_fileAndBytes] at h
  revert h
  decide +kernel

/-- Two files with a page each; the page of the first goes under the name of the second. -/
def fileUnderPage : Disk :=
  .ofFiles [("a.json".toList, .text (singlePage ['b'] ['B'])),
    ("b.md".toList, .text (singlePage ['c'] ['C']))]

def fileUnderPageRun : Options := .into ['.'] ["a.json".toList, "b.md".toList]

theorem planOnDisk_fileUnderPage :
    planOnDisk fileUnderPageRun fileUnderPage (.text []) =
      (.ok ⟨⟨['.'], .builtin, .markdown⟩, ["a.json".toList, "b.md".toList]⟩,
        ⟨(fileUnderPage.makeDirectories ['.']).1, .text [], [], []⟩) :=
  planOnDisk_into (by decide +kernel) (by decide +kernel) (by decide +kernel)

/-- The page of the first file is written over the second file, which is read only then. The page
that it held is not found, and no failure is reported. -/
theorem not_readingFirst_fileUnderPage :
    (runOnDisk fileUnderPageRun fileUnderPage (.text [])).exitCode = 0 ∧
      (outcomeOf (readingFirst fileUnderPageRun) fileUnderPage (.text [])).exitCode = 0 ∧
      (runOnDisk fileUnderPageRun fileUnderPage (.text [])).machine.disk.at? ["c.md".toList] ≠
        (outcomeOf (readingFirst fileUnderPageRun) fileUnderPage
          (.text [])).machine.disk.at? ["c.md".toList] := by
  rw [runOnDisk_of_planOnDisk (List.cons_ne_nil _ _) planOnDisk_fileUnderPage, outcomeOf,
    runOn_readingFirst planOnDisk_fileUnderPage]
  refine ⟨?_, ?_, ?_⟩ <;> decide +kernel

end ComponentPages
