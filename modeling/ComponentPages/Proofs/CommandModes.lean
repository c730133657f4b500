import ComponentPages.Proofs.Outcomes
import ComponentPages.Proofs.StandardInput

/-!
# The two ways to run the command

Without files the command prints the pages of its input, up to the first that cannot be made. With
files it goes on behind such a page, and leaves out a page with an unsafe id as well. Where all
pages of a text can be made and written, both come to the same texts: those that are printed are
those that stand in the files of the pages.

- **`output_of_files_eq_nil`** — what is printed without files.
- **`exists_planOnDisk_of_file`** — the plan of a run with one file.
- **`Target.AllWritten`**, **`forall₂_readText_of_allWritten`** — pages of which all are written,
  and what their files hold.
- **`printed_eq_written`** — both ways to run the command.
-/

namespace ComponentPages

open Metadata (parsePages)

/-! ## Without files -/

/-- The command without files prints the pages of its input. -/
theorem output_of_files_eq_nil {o : Options} {disk : Disk} {config : Config} {format : Format}
    {text : Text} {pages : List Metadata.Page} (hf : o.files = [])
    (hconfig : disk.ask (loadConfig Host.onDisk o.config) = .ok config)
    (hformat : Format.ofName? o.formatName = some format) (hpages : parsePages text = .ok pages) :
    (runOnDisk o disk (.text text)).machine.output = (printedPages config format pages).1.flatten ∧
      (runOnDisk o disk (.text text)).failure = (printedPages config format pages).2 := by
  obtain ⟨events, -, hrun⟩ := exists_runOnDisk_eq_of_files_eq_nil hf disk (.text text)
  rw [hrun, hconfig]
  simp only [runOn_runInput, hpages, hformat, runOn_printPages, Outcome.machine_ofResult,
    Outcome.failure_ofResult, List.nil_append, true_and]
  cases (printedPages config format pages).2 <;> rfl

/-! ## With one file -/

/-- A run with one file that can be read has a plan, if no file stops it. -/
theorem exists_planOnDisk_of_file {o : Options} {disk : Disk} {input : Content} {config : Config}
    {format : Format} {file directory text : Text}
    (hconfig : disk.ask (loadConfig Host.onDisk o.config) = .ok config)
    (hformat : Format.ofName? o.formatName = some format) (hfile : o.files = [file])
    (houtput : o.output = some directory) (hread : disk.readText file = .ok text)
    (hclean : (runOnDisk o disk input).NoFileError) :
    ∃ m, planOnDisk o disk input = (.ok ⟨⟨directory, config, format⟩, [file]⟩, m) ∧
      m.disk.readText file = .ok text := by
  obtain ⟨events, -, hp⟩ := exists_planOnDisk_eq o disk input
  have hadds := disk.addsDirectories_makeDirectories directory
  rcases hmade : disk.makeDirectories directory with ⟨e, cause | _⟩
  -- the output directory cannot be made, which would stop the run
  · have hplan : disk.plan o = (.error (.makeOutput directory cause), e) := by
      simp only [Disk.plan, hconfig, houtput, hmade]
    rw [hplan] at hp
    have hne : o.files ≠ [] := hfile ▸ List.cons_ne_nil _ _
    rw [runOnDisk_of_planOnDisk_error hne hp] at hclean
    cases hclean _ rfl
  · rw [hmade] at hadds
    have hread' := hadds.readText_eq_ok hread
    obtain ⟨hslash, place, hl, hat⟩ := Disk.readText_eq_ok_iff.1 hread'
    have hisFile : ∀ arg ∈ o.files, e.isFile arg = true := by
      rw [hfile, List.forall_mem_singleton]
      exact Disk.isFile_iff.2 ⟨hslash, place, _, hl, hat⟩
    have hsorted : sortPaths o.files = [file] := by
      rw [hfile]
      exact sortPaths_eq_self (List.pairwise_singleton _ _)
    have hplans : disk.Plans o ⟨⟨directory, config, format⟩, [file]⟩ e :=
      ⟨hconfig, houtput, hmade, hformat, hsorted ▸ ask_expandArguments_of_isFile hisFile⟩
    rw [Disk.plan_eq_ok_iff.2 hplans] at hp
    exact ⟨_, hp, hread'⟩

/-! ## Pages of which all are written -/

/-- Names in a directory differ where their paths do. -/
theorem joinPath_injective (directory : Text) : Function.Injective (joinPath directory) := by
  intro name other h
  unfold joinPath at h
  split at h
  · exact List.append_cancel_left h
  · exact (List.cons.inj (List.append_cancel_left h)).2

/-- Pages with different ids have different paths. -/
theorem Target.pathOf_injective (t : Target) : Function.Injective t.pathOf := fun _ _ h =>
  List.append_cancel_right (joinPath_injective t.directory h)

/-- All of some pages can be made, and have safe ids of which no two are the same. -/
structure Target.AllWritten (t : Target) (pages : List Metadata.Page) : Prop where
  made : ∀ page ∈ pages, ∃ text, page.render t.config t.format = .ok text
  safe : ∀ page ∈ pages, isSafeName page.id = true
  distinct : (pages.map (·.id)).Nodup

/-- The files of pages that are all written hold the texts of the pages. -/
theorem forall₂_readText_of_allWritten {t : Target} {pages : List Metadata.Page}
    {texts : List Text} {d e : Disk} (hall : t.AllWritten pages)
    (htexts : pages.mapM (Metadata.Page.render t.config t.format) = .ok texts)
    (hwrites : d.writeAll (pages.filterMap t.write?) = .ok e) :
    List.Forall₂ (fun page text => e.readText (t.pathOf page.id) = .ok text) pages texts := by
  have hwritten : ∀ w ∈ pages.filterMap t.write?, ∃ page ∈ pages,
      page.render t.config t.format = .ok w.2 ∧ isSafeName page.id = true ∧
        w.1 = t.pathOf page.id := fun w hw => by
    obtain ⟨page, hpage, hwrite⟩ := List.mem_filterMap.1 hw
    exact ⟨page, hpage, Target.write?_eq_some_iff.1 hwrite⟩
  have hread : ∀ page text, page ∈ pages ∧ page.render t.config t.format = .ok text →
      e.readText (t.pathOf page.id) = .ok text := by
    rintro page text ⟨hpage, hrender⟩
    have hmem : (t.pathOf page.id, text) ∈ pages.filterMap t.write? :=
      List.mem_filterMap.2 ⟨page, hpage,
        Target.write?_eq_some_iff.2 ⟨hrender, hall.safe page hpage, rfl⟩⟩
    obtain ⟨v, hlast, hread⟩ := readText_of_mem_pageWrites hwrites (fun w hw => by
      obtain ⟨page, -, -, hsafe, hpath⟩ := hwritten w hw
      exact ⟨page.id, hsafe, hpath⟩) hmem
    -- what was written last under the path is of a page with the same id, which is this one
    obtain ⟨hv, hpath⟩ := List.mem_filter.1 (List.mem_of_getLast? hlast)
    obtain ⟨page', hpage', hrender', -, hpath'⟩ := hwritten v hv
    have hid : page'.id = page.id := t.pathOf_injective (hpath'.symm.trans (by simpa using hpath))
    obtain rfl := List.inj_on_of_nodup_map hall.distinct hpage' hpage hid
    rw [hread, Except.ok.inj (hrender'.symm.trans hrender)]
  exact ((List.forall₂_and_left (p := (· ∈ pages)) _ _).2
    ⟨fun _ h => h, mapM_eq_ok_iff.1 htexts⟩).imp hread

/-! ## Both ways -/

section Modes

variable {o : Options} {disk : Disk} {config : Config} {format : Format} {text : Text}
  {pages : List Metadata.Page}

/-- **Both ways to run the command agree.** Without files it prints the longest front of the pages
of its input that can be made, and succeeds if these are all of them. If all can be made and
written, then a run with a file that holds the same text succeeds too unless a file stops it, and
the files of the pages hold what is printed. -/
theorem printed_eq_written (hconfig : disk.ask (loadConfig Host.onDisk o.config) = .ok config)
    (hformat : Format.ofName? o.formatName = some format) (hpages : parsePages text = .ok pages) :
    (∃ front back texts, pages = front ++ back ∧
      front.mapM (Metadata.Page.render config format) = .ok texts ∧
      (∀ page ∈ back.head?, ∃ e, page.render config format = .error e) ∧
      (runOnDisk { o with files := [] } disk (.text text)).machine.output = texts.flatten ∧
      ((runOnDisk { o with files := [] } disk (.text text)).exitCode = 0 ↔ back = [])) ∧
    ∀ file directory input, o.files = [file] → o.output = some directory →
      disk.readText file = .ok text → Target.AllWritten ⟨directory, config, format⟩ pages →
      (runOnDisk o disk input).NoFileError →
      (runOnDisk o disk input).exitCode = 0 ∧
        ∃ texts, List.Forall₂ (fun page text => (runOnDisk o disk input).machine.disk.readText
          (joinPath directory (page.id ++ '.' :: format.extension)) = .ok text) pages texts ∧
          texts.flatten = (runOnDisk { o with files := [] } disk (.text text)).machine.output := by
  have hprinted := output_of_files_eq_nil
    (show ({ o with files := [] } : Options).files = [] from rfl) hconfig hformat hpages
  refine ⟨?_, fun file directory input hfile houtput hread hall hclean => ?_⟩
  · obtain ⟨front, back, hpages, htexts, hstop, hnone⟩ := exists_printedPages_eq config format pages
    refine ⟨front, back, _, hpages, htexts, hstop, hprinted.1, ?_⟩
    rw [← hnone, Outcome.exitCode, hprinted.2]
    cases (printedPages config format pages).2 <;> simp
  · obtain ⟨m, hp, hread'⟩ :=
      exists_planOnDisk_of_file hconfig hformat hfile houtput hread hclean
    have hf : o.files ≠ [] := hfile ▸ List.cons_ne_nil _ _
    have hspared : o.SparesInputs disk input :=
      sparesInputs_of_planOnDisk hp (List.pairwise_singleton _ _)
    obtain ⟨hsuccess, hwrote⟩ := wrote_of_noFileError hf hspared hp hclean
    have hwrites := hwrote.disk
    simp only [Disk.readFiles, hread', List.flatMap_cons, List.flatMap_nil, List.append_nil,
      Target.writesIn, hpages] at hwrites
    obtain ⟨texts, htexts⟩ := exists_mapM_eq_ok_iff.2 hall.made
    refine ⟨by rw [Outcome.exitCode, hsuccess]; rfl, texts,
      forall₂_readText_of_allWritten hall htexts hwrites, ?_⟩
    rw [hprinted.1, printedPages_of_mapM config format htexts]

end Modes

/-! ## Both ways on a small disk -/

/-- A text with two pages. -/
def twoPages : Text := '[' :: singlePage ['x'] ['X'] ++ ',' :: singlePage ['y'] ['Y'] ++ [']']

/-- A file with the two pages. -/
def twoPagesFile : Disk := .ofFiles [("p.json".toList, .text twoPages)]

/-- The pages go into another directory. -/
def twoPagesRun : Options := .into "out".toList ["p.json".toList]

theorem noFileError_twoPages : (runOnDisk twoPagesRun twoPagesFile (.text [])).NoFileError := by
  have hp : planOnDisk twoPagesRun twoPagesFile (.text []) =
      (.ok ⟨⟨"out".toList, .builtin, .markdown⟩, ["p.json".toList]⟩,
        ⟨(twoPagesFile.makeDirectories "out".toList).1, .text [], [], []⟩) :=
    planOnDisk_into (by decide +kernel) (by decide +kernel) (by decide +kernel)
  have hspared := sparesInputs_of_planOnDisk hp (by decide +kernel)
  exact noFileError_of_failure_eq_none ((failure_eq_none_iff (List.cons_ne_nil _ _) hspared hp).2
    ⟨exists_eq_ok_iff.2 (by decide +kernel), by decide +kernel⟩)

/-- The two files hold what is printed. -/
theorem printed_eq_written_twoPages :
    ∃ pages texts, parsePages twoPages = .ok pages ∧
      List.Forall₂ (fun page text =>
        (runOnDisk twoPagesRun twoPagesFile (.text [])).machine.disk.readText
          (joinPath "out".toList (page.id ++ ".md".toList)) = .ok text) pages texts ∧
      texts.flatten = (runOnDisk { twoPagesRun with files := [] } twoPagesFile
        (.text twoPages)).machine.output := by
  obtain ⟨pages, hpages, hall⟩ : ∃ pages, parsePages twoPages = .ok pages ∧
      (pages.all (fun page => (page.render .builtin .markdown).isOk && isSafeName page.id) &&
        decide (pages.map (·.id)).Nodup) = true := exists_eq_ok_of_any (by decide +kernel)
  rw [Bool.and_eq_true, List.all_eq_true, decide_eq_true_iff] at hall
  obtain ⟨hmade, hdistinct⟩ := hall
  have hwritten : Target.AllWritten ⟨"out".toList, .builtin, .markdown⟩ pages :=
    ⟨fun page hpage => exists_eq_ok_iff.2 (Bool.and_eq_true_iff.1 (hmade page hpage)).1,
      fun page hpage => (Bool.and_eq_true_iff.1 (hmade page hpage)).2, hdistinct⟩
  have hformat : Format.ofName? twoPagesRun.formatName = some .markdown := by decide
  have hconfig : twoPagesFile.ask (loadConfig Host.onDisk twoPagesRun.config) = .ok .builtin := rfl
  have hread : twoPagesFile.readText "p.json".toList = .ok twoPages := by decide +kernel
  obtain ⟨-, texts, hfiles, hprinted⟩ := (printed_eq_written hconfig hformat hpages).2
    "p.json".toList "out".toList (.text []) rfl rfl hread hwritten noFileError_twoPages
  exact ⟨pages, texts, hpages, hfiles, hprinted⟩

end ComponentPages
