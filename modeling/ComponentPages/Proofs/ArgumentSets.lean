import ComponentPages.Proofs.ReadingFirst

/-!
# Arguments as a set

It makes no difference in which order arguments are given, or how often. The files that they stand
for are put in order before the first of them is read, each once, and the rest of a run depends on
them alone. A file can have several spellings, of which one is kept; which one that is depends on
the order, and makes no difference either.

- **`exists_ask_expandArguments_eq`** — the same arguments stand for the same files in the same
  order.
- **`SameEnd`**, **`sameEnd_writeFiles`** — files in other spellings are gone through alike.
- **`Disk.Plans.exists_of_mem_iff`** — the same arguments have the same plan.
- **`endsAs_of_mem_iff`** — runs with the same arguments end alike.
-/

namespace ComponentPages

/-! ## Files of the same arguments -/

/-- The files that arguments stand for are in strict order. -/
theorem pairwise_of_ask_expandArguments {args files : List Text} {d : Disk}
    (h : d.ask (expandArguments Host.onDisk args) = .ok files) :
    files.Pairwise fun p q => comparePaths p q = .lt := by
  rw [ask_expandArguments] at h
  cases hfound : d.ask (expandAll Host.onDisk args) with
  | error failure =>
    rw [hfound] at h
    cases h
  | ok found =>
    rw [hfound] at h
    cases h
    exact pairwise_sortPaths found

/-- No two files in strict order are spellings of one path. -/
theorem nodup_map_pathParts {files : List Text}
    (h : files.Pairwise fun p q => comparePaths p q = .lt) : (files.map pathParts).Nodup := by
  refine List.pairwise_map.2 (h.imp fun {p q} hlt hsame => ?_)
  have heq : comparePaths p q = .eq := by
    rw [comparePaths, hsame]
    exact Std.ReflCmp.compare_self
  rw [heq] at hlt
  cases hlt

/-- **The same arguments stand for the same files in the same order**, but for the spelling. -/
theorem exists_ask_expandArguments_eq {args others files : List Text} {d : Disk}
    (h : ∀ arg, arg ∈ others ↔ arg ∈ args)
    (hfiles : d.ask (expandArguments Host.onDisk args) = .ok files) :
    ∃ files', d.ask (expandArguments Host.onDisk others) = .ok files' ∧
      files'.map pathParts = files.map pathParts := by
  simp only [ask_expandArguments, ask_expandAll] at hfiles ⊢
  cases hfound : args.mapM fun arg => d.ask (expandArgument Host.onDisk arg) with
  | error failure =>
    rw [hfound] at hfiles
    cases hfiles
  | ok found =>
    rw [hfound] at hfiles
    cases hfiles
    obtain ⟨found', hfound'⟩ : ∃ found',
        (others.mapM fun arg => d.ask (expandArgument Host.onDisk arg)) = .ok found' :=
      exists_mapM_eq_ok_iff.2 fun arg harg => exists_mapM_eq_ok_iff.1 ⟨found, hfound⟩ arg
        ((h arg).1 harg)
    refine ⟨sortPaths found'.flatten, by rw [hfound']; rfl, ?_⟩
    refine map_pathParts_sortPaths_eq fun path => ?_
    simp only [List.mem_flatten, mem_iff_of_mapM hfound', mem_iff_of_mapM hfound, h]

/-! ## Files in other spellings -/

/-- Two computations end alike: both succeed or both fail, with the same disk, and the same pages
written. -/
structure SameEnd (r r' : Except Failure Unit × Machine) : Prop where
  isOk : r'.1.isOk = r.1.isOk
  disk : r'.2.disk = r.2.disk
  writtenPaths : r'.2.writtenPaths = r.2.writtenPaths

/-- Computations that make the same writes end alike. -/
theorem Performs.sameEnd {x y : Computation Unit} {writes : List (Text × Text)} {m m' : Machine}
    (hx : Performs x writes) (hy : Performs y writes) (hdisk : m'.disk = m.disk)
    (hpaths : m'.writtenPaths = m.writtenPaths) : SameEnd (runOn x m) (runOn y m') where
  isOk := by
    rw [Bool.eq_iff_iff, ← exists_eq_ok_iff, ← exists_eq_ok_iff]
    have hiff : (runOn y m').1 = .ok () ↔ (runOn x m).1 = .ok () := by
      rw [hy.ok_iff, hx.ok_iff, hdisk]
    exact ⟨fun ⟨_, h⟩ => ⟨(), hiff.1 h⟩, fun ⟨_, h⟩ => ⟨(), hiff.2 h⟩⟩
  disk := by
    have hwrote := (hy.wrote m').disk
    rw [hdisk, (hx.wrote m).disk] at hwrote
    exact (Except.ok.inj hwrote).symm
  writtenPaths := by rw [(hy.wrote m').paths, (hx.wrote m).paths, hdisk, hpaths]

/-- Files with the same paths on a disk, in other spellings perhaps. -/
def SameFiles (d : Disk) (files files' : List Text) : Prop :=
  List.Forall₂ (fun file file' => pathParts file = pathParts file' ∧ d.isFile file = true ∧
    d.isFile file' = true) files files'

theorem sameFiles_of_map_pathParts_eq {d : Disk} {files files' : List Text}
    (h : files'.map pathParts = files.map pathParts) (hfiles : ∀ file ∈ files, d.isFile file = true)
    (hfiles' : ∀ file ∈ files', d.isFile file = true) : SameFiles d files files' := by
  induction files generalizing files' with
  | nil =>
    obtain rfl := List.map_eq_nil_iff.1 h
    exact .nil
  | cons file files ih =>
    obtain ⟨file', more, rfl, hparts, hmore⟩ := List.map_eq_cons_iff.1 h
    obtain ⟨hfile, hfiles⟩ := List.forall_mem_cons.1 hfiles
    obtain ⟨hfile', hfiles'⟩ := List.forall_mem_cons.1 hfiles'
    exact .cons ⟨hparts.symm, hfile, hfile'⟩ (ih hmore hfiles hfiles')

/-- **Files are gone through alike in all spellings.** The induction keeps that both machines have
one disk, with the directories that it has in the beginning. -/
theorem sameEnd_writeFiles (t : Target) {d : Disk} {files files' : List Text} {m m' : Machine}
    (h : SameFiles d files files') (htree : d.SameTree m.disk) (hdisk : m'.disk = m.disk)
    (hpaths : m'.writtenPaths = m.writtenPaths) :
    SameEnd (runOn (writeFiles Host.onDisk t files) m)
      (runOn (writeFiles Host.onDisk t files') m') := by
  induction h generalizing m m' with
  | nil => exact ⟨rfl, hdisk, hpaths⟩
  | @cons file file' files files' hfile hrest ih =>
    obtain ⟨hparts, hisFile, hisFile'⟩ := hfile
    have hsame : m'.disk.readText file' = m.disk.readText file := by
      rw [hdisk, htree.readText_eq_of_pathParts_eq hisFile hisFile' hparts]
    simp only [writeFiles, runOn_bind, runOn_writeFile, hsame]
    cases m.disk.readText file with
    | error e => exact ⟨rfl, hdisk, hpaths⟩
    | ok text =>
      have hend : SameEnd (runOn (writeContent Host.onDisk t file text) m)
          (runOn (writeContent Host.onDisk t file' text) m') :=
        (performs_writeContent t file text).sameEnd (performs_writeContent t file' text) hdisk
          hpaths
      have htree' := Disk.sameTree_of_writeAll ((performs_writeContent t file text).wrote m).disk
      dsimp only
      rcases hrun : runOn (writeContent Host.onDisk t file text) m with ⟨failure | _, m₁⟩ <;>
        rcases hrun' : runOn (writeContent Host.onDisk t file' text) m' with ⟨failure' | _, m₁'⟩ <;>
        rw [hrun, hrun'] at hend
      · exact ⟨rfl, hend.disk, hend.writtenPaths⟩
      · cases hend.isOk
      · cases hend.isOk
      · rw [hrun] at htree'
        exact ih (htree.trans htree') hend.disk hend.writtenPaths

/-! ## The command -/

/-- The disk on which a plan is made does not depend on the arguments. -/
theorem Disk.plan_disk_eq (d : Disk) (o : Options) (args : List Text) :
    (d.plan { o with files := args }).2 = (d.plan o).2 := by
  unfold Disk.plan
  dsimp only
  cases d.ask (loadConfig Host.onDisk o.config) with
  | error failure => rfl
  | ok config =>
    cases o.output with
    | none => rfl
    | some directory =>
      dsimp only
      rcases d.makeDirectories directory with ⟨e, cause | _⟩ <;> rfl

/-- **With the same arguments a plan is the same**, but for the spelling of the files. -/
theorem Disk.Plans.exists_of_mem_iff {d e : Disk} {o : Options} {plan : Plan} {args : List Text}
    (h : d.Plans o plan e) (hargs : ∀ arg, arg ∈ args ↔ arg ∈ o.files) :
    ∃ files, d.Plans { o with files := args } ⟨plan.target, files⟩ e ∧
      files.map pathParts = plan.files.map pathParts := by
  obtain ⟨files, hfiles, hparts⟩ := exists_ask_expandArguments_eq hargs h.files
  exact ⟨files, ⟨h.config, h.output, h.made, h.format, hfiles⟩, hparts⟩

/-- Two runs end alike: with the same exit status, the same disk, and the same pages written in the
same order. -/
structure Outcome.EndsAs (r r' : Outcome) : Prop where
  exitCode : r'.exitCode = r.exitCode
  disk : r'.machine.disk = r.machine.disk
  writtenPaths : r'.machine.writtenPaths = r.machine.writtenPaths

theorem SameEnd.endsAs {r r' : Except Failure Unit × Machine} (h : SameEnd r r') :
    (Outcome.ofResult r).EndsAs (.ofResult r') := by
  have hok := h.isOk
  rcases r with ⟨_ | _, m⟩ <;> rcases r' with ⟨_ | _, m'⟩
  · exact ⟨rfl, h.disk, h.writtenPaths⟩
  · cases hok
  · cases hok
  · exact ⟨rfl, h.disk, h.writtenPaths⟩

section Runs

variable {o : Options} {args : List Text} {disk : Disk} {input : Content}

/-- A run has a plan where a run with the same arguments has one. -/
theorem exists_planOnDisk_of_mem_iff {plan : Plan} {m : Machine}
    (hargs : ∀ arg, arg ∈ args ↔ arg ∈ o.files) (hp : planOnDisk o disk input = (.ok plan, m)) :
    ∃ files m', planOnDisk { o with files := args } disk input = (.ok ⟨plan.target, files⟩, m') ∧
      files.map pathParts = plan.files.map pathParts := by
  obtain ⟨files, hplans, hparts⟩ := (plans_of_planOnDisk hp).exists_of_mem_iff hargs
  obtain ⟨events, -, hp'⟩ := exists_planOnDisk_eq { o with files := args } disk input
  rw [Disk.plan_eq_ok_iff.2 hplans] at hp'
  exact ⟨files, _, hp', hparts⟩

theorem disk_planOnDisk_eq (o : Options) (args : List Text) (disk : Disk) (input : Content) :
    (planOnDisk { o with files := args } disk input).2.disk =
      (planOnDisk o disk input).2.disk := by
  obtain ⟨events, -, hp⟩ := exists_planOnDisk_eq o disk input
  obtain ⟨events', -, hp'⟩ := exists_planOnDisk_eq { o with files := args } disk input
  rw [hp, hp']
  exact disk.plan_disk_eq o args

/-- Runs with files and the same arguments end alike. -/
theorem endsAs_of_files_ne_nil (hargs : ∀ arg, arg ∈ args ↔ arg ∈ o.files) (hf : o.files ≠ [])
    (disk : Disk) (input : Content) :
    (runOnDisk o disk input).EndsAs (runOnDisk { o with files := args } disk input) := by
  have hf' : ({ o with files := args } : Options).files ≠ [] := by
    obtain ⟨arg, harg⟩ := List.exists_mem_of_ne_nil _ hf
    exact List.ne_nil_of_mem ((hargs arg).2 harg)
  have hdisk := disk_planOnDisk_eq o args disk input
  have hpaths : (planOnDisk { o with files := args } disk input).2.writtenPaths =
      (planOnDisk o disk input).2.writtenPaths := by
    rw [writtenPaths_planOnDisk, writtenPaths_planOnDisk]
  rcases hp : planOnDisk o disk input with ⟨failure | plan, m⟩
  · rcases hp' : planOnDisk { o with files := args } disk input with ⟨failure' | plan', m'⟩
    · rw [hp, hp'] at hdisk hpaths
      rw [runOnDisk_of_planOnDisk_error hf hp, runOnDisk_of_planOnDisk_error hf' hp']
      exact ⟨rfl, hdisk, hpaths⟩
    -- the run with the same arguments has a plan, so that this one has one too
    · obtain ⟨files, m'', hback, -⟩ :=
        exists_planOnDisk_of_mem_iff (fun arg => (hargs arg).symm) hp'
      cases hp.symm.trans hback
  · obtain ⟨files, m', hp', hparts⟩ := exists_planOnDisk_of_mem_iff hargs hp
    rw [hp, hp'] at hdisk hpaths
    have hfiles : SameFiles m.disk plan.files files :=
      sameFiles_of_map_pathParts_eq hparts (fun _ => isFile_of_mem_files hp) fun _ hfile =>
        hdisk ▸ isFile_of_mem_files hp' hfile
    rw [runOnDisk_of_planOnDisk hf hp, runOnDisk_of_planOnDisk hf' hp']
    exact (sameEnd_writeFiles plan.target hfiles (.refl m.disk) hdisk hpaths).endsAs

/-- **Arguments are a set.** Two runs whose arguments are the same, in whatever order and however
often they are given, end alike. The files that they go through are in strict order, so that no file
is gone through twice under one path, whatever its spelling. -/
theorem endsAs_of_mem_iff (hargs : ∀ arg, arg ∈ args ↔ arg ∈ o.files) (disk : Disk)
    (input : Content) :
    (runOnDisk o disk input).EndsAs (runOnDisk { o with files := args } disk input) ∧
      ∀ plan m, planOnDisk o disk input = (.ok plan, m) →
        (plan.files.Pairwise fun p q => comparePaths p q = .lt) ∧
          (plan.files.map pathParts).Nodup := by
  constructor
  · by_cases hf : o.files = []
    -- without files there are no other arguments
    · obtain rfl : args = o.files := by
        rw [hf, List.eq_nil_iff_forall_not_mem]
        simpa [hf] using hargs
      exact ⟨rfl, rfl, rfl⟩
    · exact endsAs_of_files_ne_nil hargs hf disk input
  · intro plan m hp
    have hpairwise := pairwise_of_ask_expandArguments (plans_of_planOnDisk hp).files
    exact ⟨hpairwise, nodup_map_pathParts hpairwise⟩

end Runs

/-! ## A run on a small disk -/

/-- One of two files is named, and both are found by a pattern. -/
def namedAndFoundRun : Options := .into "out".toList ["a.json".toList, "*.json".toList]

/-- A run with a named file and a pattern ends alike where the pattern comes first, and again. -/
theorem endsAs_of_mem_iff_namedAndFound :
    (runOnDisk namedAndFoundRun twoFiles (.text [])).EndsAs
      (runOnDisk { namedAndFoundRun with
        files := ["*.json".toList, "a.json".toList, "*.json".toList] } twoFiles (.text [])) := by
  have hmore : ["*.json".toList, "a.json".toList, "*.json".toList] ⊆ namedAndFoundRun.files := by
    decide
  have hfewer : namedAndFoundRun.files ⊆ ["*.json".toList, "a.json".toList, "*.json".toList] := by
    decide
  exact (endsAs_of_mem_iff (fun _ => ⟨fun h => hmore h, fun h => hfewer h⟩) twoFiles (.text [])).1

end ComponentPages
