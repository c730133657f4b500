import ComponentPages.Command.Expand
import ComponentPages.Proofs.PathOrder
import ComponentPages.Proofs.Places

/-!
# The search for files on a disk

To find the files that arguments stand for, the command looks at the disk and does not change it.
What it finds are files.

- **`runOn`** — a computation of the command on a machine; **`runOn_bind`** and
  **`runOn_bind_eq_ok_iff`** take it apart.
- **`Looks`** — computations that only look at the disk, such as the search for the paths that
  patterns lead to (**`looks_matchingPaths`**).
- **`Searches`** — computations that find something out about the disk or fail, and at most tell
  that there was nothing to be found; **`searches_expandArguments`** is the search for all files.
- **`Disk.ask`** — what such a computation finds; **`ask_expandAll`** puts it together from the
  arguments, and **`isFile_of_mem_expandArguments`** has it be files.
- **`runOn_expandAll_of_isFile`** — arguments that are files.
-/

namespace ComponentPages

/-! ## Computations on a machine -/

/-- A computation of the command that works on a machine that is a value. -/
abbrev Computation (α : Type) := ExceptT Failure (StateM Machine) α

/-- What comes of a computation on a machine, and the machine afterwards. -/
def runOn {α : Type} (x : Computation α) (m : Machine) : Except Failure α × Machine := x.run m

section Computations

variable {α β : Type}

theorem runOn_pure (a : α) (m : Machine) : runOn (pure a) m = (.ok a, m) := rfl

theorem runOn_throw (failure : Failure) (m : Machine) :
    runOn (throw failure : Computation α) m = (.error failure, m) := rfl

/-- A computation goes on where the one before it has succeeded. -/
theorem runOn_bind (x : Computation α) (f : α → Computation β) (m : Machine) :
    runOn (x >>= f) m =
      match runOn x m with
      | (.ok a, m') => runOn (f a) m'
      | (.error failure, m') => (.error failure, m') := by
  show (ExceptT.bindCont f (runOn x m).1) (runOn x m).2 = _
  rcases runOn x m with ⟨_ | a, m'⟩ <;> rfl

theorem runOn_lift_bind (x : StateM Machine α) (f : α → Computation β) (m : Machine) :
    runOn (liftM x >>= f) m = runOn (f (x m).1) (x m).2 := rfl

theorem runOn_lift (x : StateM Machine α) (m : Machine) :
    runOn (liftM x) m = (.ok (x m).1, (x m).2) := rfl

theorem onDisk_isFile (path : Text) (m : Machine) :
    Host.onDisk.isFile path m = (m.disk.isFile path, m) := rfl

theorem onDisk_isDirectory (path : Text) (m : Machine) :
    Host.onDisk.isDirectory path m = (m.disk.isDirectory path, m) := rfl

theorem onDisk_listDirectory (path : Text) (m : Machine) :
    Host.onDisk.listDirectory path m = (m.disk.listDirectory path, m) := rfl

theorem onDisk_readText (path : Text) (m : Machine) :
    Host.onDisk.readText path m = (m.disk.readText path, m) := rfl

/-- Two computations in a row succeed where the first does, and the second from there. -/
theorem runOn_bind_eq_ok_iff {x : Computation α} {f : α → Computation β} {b : β}
    {m m' : Machine} :
    runOn (x >>= f) m = (.ok b, m') ↔
      ∃ a between, runOn x m = (.ok a, between) ∧ runOn (f a) between = (.ok b, m') := by
  rw [runOn_bind]
  rcases runOn x m with ⟨_ | a, between⟩ <;> simp

end Computations

/-! ## The search for files -/

/-- A computation that only looks at the disk of the machine. -/
def Looks {α : Type} (x : StateM Machine α) : Prop := ∃ f : Disk → α, x = Host.look f

section Looks

variable {α β : Type}

theorem looks_pure (a : α) : Looks (pure a : StateM Machine α) := ⟨fun _ => a, rfl⟩

theorem looks_look (f : Disk → α) : Looks (Host.look f) := ⟨f, rfl⟩

theorem Looks.bind {x : StateM Machine α} {f : α → StateM Machine β} (hx : Looks x)
    (hf : ∀ a, Looks (f a)) : Looks (x >>= f) := by
  obtain ⟨seen, rfl⟩ := hx
  choose further hfurther using hf
  refine ⟨fun d => further (seen d) d, ?_⟩
  rw [funext hfurther]
  rfl

theorem looks_collect {f : α → StateM Machine (List β)} (hf : ∀ a, Looks (f a)) (as : List α) :
    Looks (collect f as) := by
  induction as with
  | nil => exact looks_pure []
  | cons a as ih => exact (hf a).bind fun _ => ih.bind fun _ => looks_pure _

theorem looks_namesIn (directory : Text) : Looks (Host.onDisk.namesIn directory) := by
  refine (looks_look (·.listDirectory directory)).bind fun result => ?_
  cases result <;> exact looks_pure _

/-- To look whether files stand under paths is to keep those paths under which they do. -/
theorem filterAsking_isFile (paths : List Text) :
    filterAsking Host.onDisk.isFile paths = Host.look fun d => paths.filter d.isFile := by
  funext m
  induction paths with
  | nil => rfl
  | cons path paths ih =>
    show (let rest := filterAsking Host.onDisk.isFile paths m
      (if m.disk.isFile path then path :: rest.1 else rest.1, rest.2)) = _
    simp only [ih, Host.look, List.filter_cons]

theorem looks_anyDepth (p : GlobPattern) {further : Text → StateM Machine (List Text)}
    (hf : ∀ path, Looks (further path)) (fuel : Nat) (directory : Text) :
    Looks (anyDepth Host.onDisk p further fuel directory) := by
  induction fuel generalizing directory with
  | zero => exact looks_pure []
  | succ fuel ih =>
    refine (looks_namesIn directory).bind fun names => looks_collect (fun name => ?_) names
    have hbelow (here : List Text) : Looks (do
        let below ← if ← Host.onDisk.isDirectory (stepInto directory name)
          then anyDepth Host.onDisk p further fuel (stepInto directory name) else pure []
        return here ++ below) := by
      refine (looks_look (·.isDirectory (stepInto directory name))).bind fun inside => ?_
      dsimp only
      split
      · exact (ih _).bind fun _ => looks_pure _
      · exact (looks_pure []).bind fun _ => looks_pure _
    dsimp only
    split
    · exact (hf _).bind hbelow
    · exact (looks_pure []).bind hbelow

/-- The search for the paths that patterns lead to only looks at the disk. -/
theorem looks_matchingPaths : ∀ (patterns : List GlobPattern) (path : Text),
    Looks (matchingPaths Host.onDisk patterns path)
  | [], path => looks_pure [path]
  | p :: patterns, path => by
    have hrest (path : Text) := looks_matchingPaths patterns path
    -- the paths of those among some names that the pattern stands for
    have hnames (into : Text → Text) (names : List Text) : Looks (collect (fun name =>
        if p.standsFor name then matchingPaths Host.onDisk patterns (into name) else pure [])
        names) := by
      refine looks_collect (fun name => ?_) names
      split
      · exact hrest _
      · exact looks_pure []
    unfold matchingPaths
    split
    · next name hname =>
      have hexists (found : Bool) : Looks (if found then
          matchingPaths Host.onDisk patterns (stepInto path name) else pure []) := by
        split
        · exact hrest _
        · exact looks_pure []
      dsimp only
      split
      · exact (looks_look (·.isDirectory path)).bind hexists
      · exact (looks_look (·.hasPath (stepInto path name))).bind hexists
    · split
      · split
        · exact looks_pure []
        · next _ q rest =>
          refine (looks_look (·.isDirectory path)).bind fun inside => ?_
          split
          · split
            · exact hrest path
            · exact looks_anyDepth q (fun path => looks_matchingPaths rest path) _ _
          · exact looks_pure []
      · refine (looks_look (·.isDirectory path)).bind fun inside => ?_
        have hfound (dots : List Text) : Looks (do
            let names ← Host.onDisk.namesIn path
            let found ← collect (fun name =>
              if p.standsFor name then matchingPaths Host.onDisk patterns (stepInto path name)
              else pure []) names
            return dots ++ found) :=
          (looks_namesIn path).bind fun names => (hnames _ names).bind fun _ => looks_pure _
        split
        · dsimp only
          split
          · exact (hnames _ dotNames).bind hfound
          · exact (looks_pure []).bind hfound
        · exact looks_pure []

/-- What a pattern stands for are those of the paths it leads to that are files. -/
theorem exists_matchingFiles_eq (pattern : Text) (patterns : List GlobPattern) :
    ∃ paths : Disk → List Text, matchingFiles Host.onDisk pattern patterns =
      Host.look fun d => (paths d).filter d.isFile := by
  unfold matchingFiles
  split
  · exact ⟨fun _ => [], rfl⟩
  · dsimp only
    generalize (if isRooted pattern then ['/'] else ['.'] : Text) = start
    obtain ⟨paths, hpaths⟩ := looks_matchingPaths patterns start
    refine ⟨paths, ?_⟩
    rw [hpaths, funext filterAsking_isFile]
    rfl

end Looks

/-! ## Searches -/

/-- The path under which an event tells that a page was written. -/
def LogEvent.writtenPath? : LogEvent → Option Text
  | wrote _ path => some path
  | _ => none

/-- What comes of a computation on a disk, where nothing else is looked at. -/
def Disk.ask {α : Type} (d : Disk) (x : Computation α) : Except Failure α :=
  (runOn x ⟨d, .text [], [], []⟩).1

/-- A computation that finds something out about the disk, or fails. It changes nothing, and does
not tell of any page that was written. -/
def Searches {α : Type} (x : Computation α) : Prop :=
  ∀ m, ∃ events, (∀ e ∈ events, LogEvent.writtenPath? e = none) ∧
    runOn x m = (m.disk.ask x, { m with events := m.events ++ events })

section Searches

variable {α β : Type}

theorem searches_pure (a : α) : Searches (pure a) := fun m =>
  ⟨[], by simp, by rw [List.append_nil]; rfl⟩

theorem searches_throw (failure : Failure) : Searches (throw failure : Computation α) := fun m =>
  ⟨[], by simp, by rw [List.append_nil]; rfl⟩

theorem Looks.searches {x : StateM Machine α} (h : Looks x) :
    Searches (liftM x : Computation α) := by
  obtain ⟨f, rfl⟩ := h
  exact fun m => ⟨[], by simp, by rw [List.append_nil]; rfl⟩

theorem searches_log {event : LogEvent} (h : event.writtenPath? = none) :
    Searches (liftM (Host.onDisk.log event) : Computation Unit) := fun m =>
  ⟨[event], by simpa using h, rfl⟩

/-- Two searches in a row find what the second one finds with the result of the first. -/
theorem ask_bind {x : Computation α} {f : α → Computation β} (hx : Searches x)
    (hf : ∀ a, Searches (f a)) (d : Disk) : d.ask (x >>= f) = d.ask x >>= fun a => d.ask (f a) := by
  obtain ⟨events, -, hfound⟩ := hx ⟨d, .text [], [], []⟩
  rw [Disk.ask, runOn_bind, hfound]
  cases d.ask x with
  | error failure => rfl
  | ok a =>
    obtain ⟨more, -, hmore⟩ := hf a ⟨d, .text [], [], [] ++ events⟩
    show (runOn (f a) ⟨d, .text [], [], [] ++ events⟩).1 = d.ask (f a)
    rw [hmore]

theorem Searches.bind {x : Computation α} {f : α → Computation β} (hx : Searches x)
    (hf : ∀ a, Searches (f a)) : Searches (x >>= f) := by
  intro m
  obtain ⟨events, htold, hfound⟩ := hx m
  rw [ask_bind hx hf, runOn_bind, hfound]
  cases m.disk.ask x with
  | error failure => exact ⟨events, htold, rfl⟩
  | ok a =>
    obtain ⟨more, htold', hmore⟩ := hf a { m with events := m.events ++ events }
    refine ⟨events ++ more, fun e he => (List.mem_append.1 he).elim (htold e) (htold' e), ?_⟩
    rw [← List.append_assoc]
    exact hmore

end Searches

/-! ## The files of arguments -/

/-- To find the files of an argument is a search. -/
theorem searches_expandArgument (arg : Text) : Searches (expandArgument Host.onDisk arg) := by
  refine (looks_look (·.isFile arg)).searches.bind fun isFile => ?_
  split
  -- a file stands for itself
  · exact searches_pure [arg]
  · refine (looks_look (·.isDirectory arg)).searches.bind fun isDirectory => ?_
    split
    -- a directory stands for those of its names that are files
    · refine (looks_look (·.listDirectory arg)).searches.bind fun names => ?_
      cases names with
      | ok names =>
        have hlook : Looks (jsonFilesIn Host.onDisk arg names) := ⟨_, filterAsking_isFile _⟩
        exact hlook.searches
      | error e => exact searches_throw _
    -- a pattern stands for those of the paths it leads to that are files
    · split
      · exact searches_throw _
      · next patterns _ =>
        obtain ⟨paths, hpaths⟩ := exists_matchingFiles_eq arg patterns
        rw [hpaths]
        refine (looks_look _).searches.bind fun files => ?_
        dsimp only
        split
        · exact (searches_log rfl).bind fun _ => searches_pure files
        · exact searches_pure files

/-- What an argument stands for are files. -/
theorem isFile_of_mem_expandArgument {arg : Text} {files : List Text} {m m' : Machine}
    (h : runOn (expandArgument Host.onDisk arg) m = (.ok files, m')) :
    ∀ file ∈ files, m.disk.isFile file = true := by
  have hfiltered (paths : List Text) : ∀ file ∈ paths.filter m.disk.isFile,
      m.disk.isFile file = true := fun file hfile => (List.mem_filter.1 hfile).2
  unfold expandArgument at h
  rw [runOn_lift_bind, onDisk_isFile] at h
  cases hfile : m.disk.isFile arg with
  | true =>
    simp only [hfile, if_true] at h
    cases h
    simpa using hfile
  | false =>
    simp only [hfile, Bool.false_eq_true, if_false, runOn_lift_bind, onDisk_isDirectory] at h
    cases hdirectory : m.disk.isDirectory arg with
    | true =>
      simp only [hdirectory, if_true, runOn_lift_bind, onDisk_listDirectory] at h
      cases hnames : m.disk.listDirectory arg with
      | ok names =>
        simp only [hnames, jsonFilesIn, runOn_lift, filterAsking_isFile] at h
        cases h
        exact hfiltered _
      | error e =>
        simp only [hnames, runOn_throw] at h
        cases h
    | false =>
      simp only [hdirectory, Bool.false_eq_true, if_false] at h
      cases hpatterns : GlobPattern.ofPath? arg with
      | none =>
        simp only [hpatterns, runOn_throw] at h
        cases h
      | some patterns =>
        obtain ⟨paths, hpaths⟩ := exists_matchingFiles_eq arg patterns
        simp only [hpatterns, runOn_lift_bind, hpaths] at h
        split at h <;> cases h <;> exact hfiltered _

/-- To find the files of arguments is a search. -/
theorem searches_expandAll (args : List Text) : Searches (expandAll Host.onDisk args) := by
  induction args with
  | nil => exact searches_pure []
  | cons arg args ih =>
    exact (searches_expandArgument arg).bind fun _ => ih.bind fun _ => searches_pure _

/-- **Arguments stand for what each of them stands for.** -/
theorem ask_expandAll (args : List Text) (d : Disk) :
    d.ask (expandAll Host.onDisk args) =
      (args.mapM fun arg => d.ask (expandArgument Host.onDisk arg)).map List.flatten := by
  induction args with
  | nil => rfl
  | cons arg args ih =>
    rw [expandAll, ask_bind (searches_expandArgument arg)
      fun _ => (searches_expandAll args).bind fun _ => searches_pure _, List.mapM_cons]
    cases d.ask (expandArgument Host.onDisk arg) with
    | error failure => rfl
    | ok first =>
      rw [ok_bind, ok_bind, ask_bind (searches_expandAll args) fun _ => searches_pure _, ih]
      cases args.mapM fun arg => d.ask (expandArgument Host.onDisk arg) <;> rfl

/-- To find the files of arguments, each once and in order, is a search. -/
theorem searches_expandArguments (args : List Text) :
    Searches (expandArguments Host.onDisk args) :=
  (searches_expandAll args).bind fun _ => searches_pure _

/-- The files of arguments are those that each of them stands for, sorted. -/
theorem ask_expandArguments (args : List Text) (d : Disk) :
    d.ask (expandArguments Host.onDisk args) =
      (d.ask (expandAll Host.onDisk args)).map sortPaths := by
  rw [expandArguments, ask_bind (searches_expandAll args) fun _ => searches_pure _]
  cases d.ask (expandAll Host.onDisk args) <;> rfl

/-- What arguments stand for are files. -/
theorem isFile_of_mem_expandArguments {args files : List Text} {d : Disk}
    (h : d.ask (expandArguments Host.onDisk args) = .ok files) :
    ∀ file ∈ files, d.isFile file = true := by
  intro file hfile
  rw [ask_expandArguments, ask_expandAll] at h
  cases hfound : args.mapM fun arg => d.ask (expandArgument Host.onDisk arg) with
  | error failure =>
    rw [hfound] at h
    cases h
  | ok found =>
    rw [hfound] at h
    cases h
    obtain ⟨some, hsome, hmem⟩ := List.mem_flatten.1 (mem_of_mem_sortPaths hfile)
    obtain ⟨arg, -, harg⟩ := exists_of_mem_mapM hfound hsome
    have hblank : (⟨d, .text [], [], []⟩ : Machine).disk.isFile file = true :=
      isFile_of_mem_expandArgument (Prod.ext harg rfl) file hmem
    exact hblank

/-- A file stands for itself. -/
theorem runOn_expandArgument_of_isFile {arg : Text} {m : Machine} (h : m.disk.isFile arg = true) :
    runOn (expandArgument Host.onDisk arg) m = (.ok [arg], m) := by
  rw [expandArgument, runOn_lift_bind, onDisk_isFile]
  simp only [h, if_true]
  rfl

/-- Files stand for themselves. -/
theorem runOn_expandAll_of_isFile {args : List Text} {m : Machine}
    (h : ∀ arg ∈ args, m.disk.isFile arg = true) :
    runOn (expandAll Host.onDisk args) m = (.ok args, m) := by
  induction args with
  | nil => rfl
  | cons arg args ih =>
    obtain ⟨hhead, htail⟩ := List.forall_mem_cons.1 h
    refine runOn_bind_eq_ok_iff.2 ⟨_, _, runOn_expandArgument_of_isFile hhead, ?_⟩
    exact runOn_bind_eq_ok_iff.2 ⟨_, _, ih htail, rfl⟩

theorem ask_expandArguments_of_isFile {args : List Text} {d : Disk}
    (h : ∀ arg ∈ args, d.isFile arg = true) :
    d.ask (expandArguments Host.onDisk args) = .ok (sortPaths args) := by
  have hall : runOn (expandAll Host.onDisk args) ⟨d, .text [], [], []⟩ =
      (.ok args, ⟨d, .text [], [], []⟩) := runOn_expandAll_of_isFile h
  rw [ask_expandArguments, Disk.ask, hall]
  rfl

end ComponentPages
