import ComponentPages.Proofs.PagesKept
import ComponentPages.Proofs.StandardInput
import ComponentPages.Proofs.WrittenPages

/-!
# What a run can change

A run writes pages into its output directory, each under its id, and nowhere else. It can come to
read what it has written, but it finds no new ids there. Before that it makes the output directory
and the directories that the path of it leads through.

- **`HoldsOnly`**, **`Disk.HoldsOnly`** — texts and files in which all pages have certain ids.
  Writing such pages keeps that (**`holdsOnly_of_writeAll`**).
- **`exists_wrote_writeFiles`** — what is written while the files are read one by one, whether the
  run fails or not.
- **`Options.HasPageFile`** — the places of the files for pages of the input.
- **`changes_of_runOnDisk`** — what is different on the disk after a run.
- **`not_prefix_of_made`** — a directory that is made need not be above the output directory, if the
  path goes up again.
-/

namespace ComponentPages

open Metadata (parsePages)

/-! ## Ids that can be read -/

/-- All pages that can be read from a text have certain ids. -/
def HoldsOnly (P : Text → Prop) (text : Text) : Prop :=
  ∀ pages, parsePages text = .ok pages → ∀ page ∈ pages, P page.id

/-- What is written of a page holds no other id. -/
theorem holdsOnly_of_render {P : Text → Prop} {config : Config} {format : Format}
    {page : Metadata.Page} {text : Text} (h : page.render config format = .ok text)
    (hid : P page.id) : HoldsOnly P text := fun _ hpages other hother =>
  id_of_parsePages_render h hpages other hother ▸ hid

/-- What is written of a text are pages under their ids, in which nothing but these ids can be
read. -/
theorem Target.mem_writesIn_of_holdsOnly {t : Target} {P : Text → Prop} {text : Text}
    (h : HoldsOnly P text) {w : Text × Text} (hw : w ∈ t.writesIn text) :
    HoldsOnly P w.2 ∧ ∃ id, P id ∧ isSafeName id = true ∧ w.1 = t.pathOf id := by
  obtain ⟨pages, hpages, page, hpage, hrender, hsafe, hpath⟩ := Target.mem_writesIn_iff.1 hw
  have hid := h pages hpages page hpage
  exact ⟨holdsOnly_of_render hrender hid, page.id, hid, hsafe, hpath⟩

namespace Disk

/-- All pages that can be read from some files have certain ids. -/
def HoldsOnly (d : Disk) (P : Text → Prop) (files : List Text) : Prop :=
  ∀ file ∈ files, ∀ text, d.readText file = .ok text → ComponentPages.HoldsOnly P text

variable {d e : Disk} {P : Text → Prop} {files : List Text}

/-- Files from which nothing but some ids can be read stay so when a text is written that holds no
other ids. -/
theorem holdsOnly_of_writeText {path s : Text} (h : d.HoldsOnly P files)
    (hwrite : d.writeText path s = .ok e) (hs : ComponentPages.HoldsOnly P s) :
    e.HoldsOnly P files := by
  intro file hfile text hread
  obtain ⟨hslash, place, hl, hat⟩ := readText_eq_ok_iff.1 hread
  rw [at?_of_writeText hwrite] at hat
  split at hat
  · cases hat
    exact hs
  · exact h file hfile text (readText_eq_ok_iff.2
      ⟨hslash, place, (sameTree_of_writeText hwrite).locate_eq_ok_iff.1 hl, hat⟩)

theorem holdsOnly_of_writeAll {writes : List (Text × Text)} (h : d.HoldsOnly P files)
    (hwrites : d.writeAll writes = .ok e) (hs : ∀ w ∈ writes, ComponentPages.HoldsOnly P w.2) :
    e.HoldsOnly P files := by
  induction writes generalizing d with
  | nil =>
    cases hwrites
    exact h
  | cons w writes ih =>
    obtain ⟨hw, hs⟩ := List.forall_mem_cons.1 hs
    obtain ⟨f, hwrite, hmore⟩ := writeAll_cons_eq_ok_iff.1 hwrites
    exact ih (holdsOnly_of_writeText h hwrite hw) hmore hs

end Disk

/-! ## What is written -/

/-- **What a run writes while it reads its files are pages under ids that it can read**, whether it
gets to the end or not. The induction keeps that nothing but these ids can be read from the files,
those that have been written over included. -/
theorem exists_wrote_writeFiles (t : Target) {P : Text → Prop} {files all : List Text}
    (hall : files ⊆ all) {m : Machine} (h : m.disk.HoldsOnly P all) :
    ∃ writes, m.Wrote (runOn (writeFiles Host.onDisk t files) m).2 writes ∧
      ∀ w ∈ writes, ∃ id, P id ∧ isSafeName id = true ∧ w.1 = t.pathOf id := by
  induction files generalizing m with
  | nil => exact ⟨[], .refl m, by simp⟩
  | cons file files ih =>
    obtain ⟨hfile, hfiles⟩ := List.cons_subset.1 hall
    rw [writeFiles, runOn_bind, runOn_writeFile]
    cases hread : m.disk.readText file with
    | error e => exact ⟨[], .refl m, by simp⟩
    | ok text =>
      have hperforms := performs_writeContent t file text
      have hwritten : ∀ w ∈ m.disk.writable (t.writesIn text),
          HoldsOnly P w.2 ∧ ∃ id, P id ∧ isSafeName id = true ∧ w.1 = t.pathOf id := fun w hw =>
        Target.mem_writesIn_of_holdsOnly (h file hfile text hread)
          ((m.disk.writable_prefix _).subset hw)
      have hwrote := hperforms.wrote m
      dsimp only
      rcases hrun : runOn (writeContent Host.onDisk t file text) m with ⟨failure | _, m'⟩
      · rw [hrun] at hwrote
        exact ⟨_, hwrote, fun w hw => (hwritten w hw).2⟩
      · rw [hrun] at hwrote
        obtain ⟨more, hmore, hids⟩ :=
          ih hfiles (Disk.holdsOnly_of_writeAll h hwrote.disk fun w hw => (hwritten w hw).1)
        refine ⟨_, hwrote.trans hmore, fun w hw => ?_⟩
        exact (List.mem_append.1 hw).elim (fun hw => (hwritten w hw).2) (hids w)

/-! ## What is different after a run -/

/-- A page of the input has an id. The files of the input are taken as they are at the start. -/
def Options.HasInputId (o : Options) (disk : Disk) (input : Content) (id : Text) : Prop :=
  ∃ plan m text pages, planOnDisk o disk input = (.ok plan, m) ∧ plan.HoldsText disk m.disk text ∧
    parsePages text = .ok pages ∧ ∃ page ∈ pages, page.id = id

/-- The place is that of the file for a page of the input: it is directly in the directory, named by
the id of the page, which is a safe name, and the extension of the format. -/
def Options.HasPageFile (o : Options) (disk : Disk) (input : Content) (directory : Text)
    (place : Place) : Prop :=
  ∃ id format, o.HasInputId disk input id ∧ isSafeName id = true ∧
    Format.ofName? o.formatName = some format ∧
    place = placeFrom disk.workingDirectory directory ++ [id ++ '.' :: format.extension]

section Changes

variable {o : Options} {disk : Disk} {input : Content} {plan : Plan} {m : Machine}

/-- When the files are to be read they hold the pages of the input. -/
theorem holdsOnly_of_planOnDisk (hp : planOnDisk o disk input = (.ok plan, m)) :
    m.disk.HoldsOnly (o.HasInputId disk input) plan.files := by
  intro file hfile text hread pages hpages page hpage
  obtain ⟨-, place, hl, hat⟩ := Disk.readText_eq_ok_iff.1 hread
  have hstart := (keepsFiles_of_planOnDisk hp).at?_eq_file_iff.1 hat
  exact ⟨plan, m, text, pages, hp, ⟨file, hfile, place, hl, hstart⟩, hpages, page, hpage, rfl⟩

/-- A place where a run with files has changed something since it was ready holds a page. -/
theorem hasPageFile_of_ne (hf : o.files ≠ []) {place : Place}
    (hne : (runOnDisk o disk input).machine.disk.at? place ≠
      (planOnDisk o disk input).2.disk.at? place) :
    ∃ directory, o.output = some directory ∧ o.HasPageFile disk input directory place ∧
      ∃ text, (runOnDisk o disk input).machine.disk.at? place = some (.file (.text text)) := by
  rcases hp : planOnDisk o disk input with ⟨failure | plan, m⟩
  · rw [runOnDisk_of_planOnDisk_error hf hp, hp] at hne
    exact absurd rfl hne
  · rw [hp, runOnDisk_of_planOnDisk hf hp, Outcome.machine_ofResult] at hne
    rw [runOnDisk_of_planOnDisk hf hp, Outcome.machine_ofResult]
    obtain ⟨writes, hwrote, hids⟩ := exists_wrote_writeFiles plan.target (List.Subset.refl _)
      (holdsOnly_of_planOnDisk hp)
    obtain ⟨w, hw, hl, htext⟩ := Disk.exists_mem_of_writeAll_of_ne hwrote.disk hne
    obtain ⟨id, hid, hsafe, hpath⟩ := hids w hw
    have hplans := plans_of_planOnDisk hp
    refine ⟨plan.target.directory, hplans.output,
      ⟨id, plan.target.format, hid, hsafe, hplans.format, ?_⟩, htext⟩
    rw [Disk.eq_placeFrom_of_locate hl, hpath, plan.target.placeFrom_pathOf hsafe,
      workingDirectory_of_planOnDisk hp]

end Changes

/-- **What is different on the disk after a run.** A run without files changes nothing. Any other
changes files for pages of its input, in the output directory and under the ids of the pages, and
makes directories that the path of the output directory leads through. If the path never goes up,
these are the output directory and directories above it. -/
theorem changes_of_runOnDisk (o : Options) (disk : Disk) (input : Content) :
    (o.files = [] → (runOnDisk o disk input).machine.disk = disk) ∧
    ∀ place, (runOnDisk o disk input).machine.disk.at? place ≠ disk.at? place →
      ∃ directory, o.output = some directory ∧
        ((o.HasPageFile disk input directory place ∧ ∃ text,
            (runOnDisk o disk input).machine.disk.at? place = some (.file (.text text))) ∨
          (disk.at? place = none ∧
            (runOnDisk o disk input).machine.disk.at? place = some .directory ∧
            LeadsThrough disk.workingDirectory directory place ∧
            (.up ∉ pathParts directory →
              place <+: placeFrom disk.workingDirectory directory))) := by
  refine ⟨fun hf => (runOnDisk_keeps_of_files_eq_nil hf disk input).1, fun place hne => ?_⟩
  have hf : o.files ≠ [] := fun hf =>
    hne (by rw [(runOnDisk_keeps_of_files_eq_nil hf disk input).1])
  by_cases hsame : (runOnDisk o disk input).machine.disk.at? place =
      (planOnDisk o disk input).2.disk.at? place
  -- the place has changed before the files are read
  · rw [hsame] at hne ⊢
    rcases (addsDirectories_planOnDisk o disk input).at?_eq place with
      hkept | ⟨hnone, hmade, directory, houtput, hthrough⟩
    · exact absurd hkept hne
    · exact ⟨directory, houtput, .inr ⟨hnone, hmade, hthrough, prefix_of_leadsThrough hthrough⟩⟩
  · obtain ⟨directory, houtput, hpage, htext⟩ := hasPageFile_of_ne hf hsame
    exact ⟨directory, houtput, .inl ⟨hpage, htext⟩⟩

/-! ## A run on a small disk -/

/-- A file with one page. -/
def onePage : Disk := .ofFiles [("p.json".toList, .text (singlePage ['x'] ['X']))]

/-- The page goes into a directory whose path leads into another one and out of it again. -/
def intoAndOutRun : Options := .into "a/../b".toList ["p.json".toList]

theorem planOnDisk_intoAndOut :
    planOnDisk intoAndOutRun onePage (.text []) =
      (.ok ⟨⟨"a/../b".toList, .builtin, .markdown⟩, ["p.json".toList]⟩,
        ⟨(onePage.makeDirectories "a/../b".toList).1, .text [], [], []⟩) :=
  planOnDisk_into (by decide +kernel) (by decide +kernel) (by decide +kernel)

/-- The page is the one file that has changed. -/
theorem changes_of_runOnDisk_intoAndOut :
    intoAndOutRun.HasPageFile onePage (.text []) "a/../b".toList ["b".toList, "x.md".toList] := by
  have hrun := runOnDisk_of_planOnDisk (List.cons_ne_nil _ _) planOnDisk_intoAndOut
  have hchanged : (runOnDisk intoAndOutRun onePage (.text [])).machine.disk.at?
      ["b".toList, "x.md".toList] ≠ onePage.at? ["b".toList, "x.md".toList] := by
    rw [hrun]
    decide +kernel
  obtain ⟨directory, houtput, ⟨hpage, -⟩ | ⟨-, hmade, -⟩⟩ :=
    (changes_of_runOnDisk intoAndOutRun onePage (.text [])).2 _ hchanged
  · cases houtput
    exact hpage
  · refine absurd hmade ?_
    rw [hrun]
    decide +kernel

/-- **A directory that is made need not be the output directory or above it**: the one that the path
leads into first is made too. -/
theorem not_prefix_of_made :
    ¬ ∀ place, onePage.at? place = none →
      (runOnDisk intoAndOutRun onePage (.text [])).machine.disk.at? place = some .directory →
      place <+: placeFrom onePage.workingDirectory "a/../b".toList := by
  intro h
  have hmade : (runOnDisk intoAndOutRun onePage (.text [])).machine.disk.at? ["a".toList] =
      some .directory := by
    rw [runOnDisk_of_planOnDisk (List.cons_ne_nil _ _) planOnDisk_intoAndOut]
    decide +kernel
  exact absurd (h ["a".toList] (by decide +kernel) hmade) (by decide +kernel)

end ComponentPages
