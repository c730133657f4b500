import ComponentPages.Proofs.Outcomes

/-!
# Bad pages are left out

A page that cannot be made, or whose id is no safe name, and a file that holds no pages do no harm
to the others: a run with more of them ends in the same way and writes the same.

- **`Metadata.Page.IsBad`** — pages that are left out.
- **`MoreBadPages`**, **`MoreBadFiles`** — the same pages and files with bad ones among them.
- **`Options.AddsBadInputs`** — two disks on which a run finds that.
- **`wrote_of_addsBadInputs`** — the two runs.
-/

namespace ComponentPages

open Metadata (parsePages)

/-! ## Bad pages and files -/

/-- A page that cannot be made, or whose id is no safe name. -/
def Metadata.Page.IsBad (page : Metadata.Page) : Prop :=
  (∃ e, PageDoc.ofPage page = .error e) ∨ isSafeName page.id = false

instance (page : Metadata.Page) : Decidable page.IsBad :=
  decidable_of_iff ((PageDoc.ofPage page).isOk = false ∨ isSafeName page.id = false)
    (or_congr exists_eq_error_iff.symm Iff.rfl)

/-- The pages of the first list, in order, with bad ones among them. -/
inductive MoreBadPages : List Metadata.Page → List Metadata.Page → Prop
  | nil : MoreBadPages [] []
  | keep (page : Metadata.Page) {pages pages' : List Metadata.Page}
    (h : MoreBadPages pages pages') : MoreBadPages (page :: pages) (page :: pages')
  | bad {page : Metadata.Page} {pages pages' : List Metadata.Page} (hbad : page.IsBad)
    (h : MoreBadPages pages pages') : MoreBadPages pages (page :: pages')

/-- The same text, or one with more pages that are bad. -/
def MoreBadText (text text' : Text) : Prop :=
  text' = text ∨ ∃ pages pages', parsePages text = .ok pages ∧ parsePages text' = .ok pages' ∧
    MoreBadPages pages pages'

/-- A text with nothing but bad pages has more of them than a text without pages. -/
theorem moreBadText_of_all_isBad {text text' : Text} {pages' : List Metadata.Page}
    (h : parsePages text = .ok []) (h' : parsePages text' = .ok pages')
    (hbad : ∀ page ∈ pages', page.IsBad) : MoreBadText text text' := by
  refine .inr ⟨[], pages', h, h', ?_⟩
  clear h'
  induction pages' with
  | nil => exact .nil
  | cons page pages ih =>
    obtain ⟨hpage, hpages⟩ := List.forall_mem_cons.1 hbad
    exact .bad hpage (ih hpages)

/-- Files with their texts: those of the first list, in order, where texts may have more pages that
are bad, and among them files that hold no pages. -/
inductive MoreBadFiles : List (Text × Text) → List (Text × Text) → Prop
  | nil : MoreBadFiles [] []
  | keep (file : Text) {text text' : Text} {contents contents' : List (Text × Text)}
    (htext : MoreBadText text text') (h : MoreBadFiles contents contents') :
    MoreBadFiles ((file, text) :: contents) ((file, text') :: contents')
  | extra (file : Text) {text : Text} {contents contents' : List (Text × Text)} {fault : Fault}
    (hfault : parsePages text = .error fault) (h : MoreBadFiles contents contents') :
    MoreBadFiles contents ((file, text) :: contents')

namespace Target

variable (t : Target)

/-- Nothing is written of a bad page. -/
theorem write?_of_isBad {page : Metadata.Page} (h : page.IsBad) : t.write? page = none := by
  unfold write?
  rcases h with ⟨e, he⟩ | hid
  · have hrender : page.render t.config t.format = .error e := by
      rw [Metadata.Page.render, he]
      rfl
    rw [hrender]
  · cases page.render t.config t.format with
    | error e => rfl
    | ok text => simp only [hid, Bool.false_eq_true, if_false]

/-- Bad pages among some pages make no difference to what is written of them. -/
theorem filterMap_write?_of_moreBadPages {pages pages' : List Metadata.Page}
    (h : MoreBadPages pages pages') : pages'.filterMap t.write? = pages.filterMap t.write? := by
  induction h with
  | nil => rfl
  | keep page h ih => rw [List.filterMap_cons, List.filterMap_cons, ih]
  | bad hbad h ih => rw [List.filterMap_cons, t.write?_of_isBad hbad, ih]

/-- Bad pages in a text make no difference to what is written of it. -/
theorem writesIn_of_moreBadText {text text' : Text} (h : MoreBadText text text') :
    t.writesIn text' = t.writesIn text := by
  rcases h with rfl | ⟨pages, pages', hpages, hpages', hmore⟩
  · rfl
  · rw [writesIn, hpages', writesIn, hpages]
    exact t.filterMap_write?_of_moreBadPages hmore

/-- Bad pages and files without pages make no difference to what is written of all files. -/
theorem flatMap_writesIn_of_moreBadFiles {contents contents' : List (Text × Text)}
    (h : MoreBadFiles contents contents') :
    (contents'.flatMap fun c => t.writesIn c.2) = contents.flatMap fun c => t.writesIn c.2 := by
  induction h with
  | nil => rfl
  | keep file htext h ih =>
    rw [List.flatMap_cons, List.flatMap_cons, ih, t.writesIn_of_moreBadText htext]
  | extra file hfault h ih => rw [List.flatMap_cons, ih, writesIn, hfault, List.nil_append]

end Target

/-! ## Two runs -/

/-- What the files of a run hold, with their paths and in order, if the run comes to read them. -/
def Options.inputs (o : Options) (disk : Disk) (input : Content) : Option (List (Text × Text)) :=
  match planOnDisk o disk input with
  | (.ok plan, m) => some (m.disk.readFiles plan.files).1
  | (.error _, _) => none

/-- On the second disk a run finds the same configuration, and the same files with bad pages and
files among them. -/
structure Options.AddsBadInputs (o : Options) (disk disk' : Disk) (input : Content) : Prop where
  config : disk'.ask (loadConfig Host.onDisk o.config) = disk.ask (loadConfig Host.onDisk o.config)
  inputs : Option.Rel MoreBadFiles (o.inputs disk input) (o.inputs disk' input)

/-- Plans of the same options with the same configuration differ in the files at most. -/
theorem Disk.Plans.target_eq {o : Options} {d d' e e' : Disk} {plan plan' : Plan}
    (h : d.Plans o plan e) (h' : d'.Plans o plan' e')
    (hconfig : d'.ask (loadConfig Host.onDisk o.config) = d.ask (loadConfig Host.onDisk o.config)) :
    plan'.target = plan.target := by
  rcases plan with ⟨⟨directory, config, format⟩, files⟩
  rcases plan' with ⟨⟨directory', config', format'⟩, files'⟩
  obtain rfl : config' = config :=
    Except.ok.inj (h'.config.symm.trans (hconfig.trans h.config))
  obtain rfl : directory' = directory := Option.some.inj (h'.output.symm.trans h.output)
  obtain rfl : format' = format := Option.some.inj (h'.format.symm.trans h.format)
  rfl

/-- **Bad pages and files do no harm.** Of two runs with the same arguments, whose output directory
holds none of the files that are read and that no file stops, the second finds the same files with
bad pages and files among them. Then both end with the same exit status and write the same texts
under the same paths, where they stand in the end. -/
theorem wrote_of_addsBadInputs {o : Options} {disk disk' : Disk} {input : Content}
    (hf : o.files ≠ []) (hbad : o.AddsBadInputs disk disk' input)
    (hapart : o.KeepsApart disk input) (hapart' : o.KeepsApart disk' input)
    (hclean : (runOnDisk o disk input).NoFileError)
    (hclean' : (runOnDisk o disk' input).NoFileError) :
    (runOnDisk o disk' input).exitCode = (runOnDisk o disk input).exitCode ∧
      ∃ writes, (runOnDisk o disk input).Wrote disk writes ∧
        (runOnDisk o disk' input).Wrote disk' writes ∧
        ∀ w ∈ writes, ∃ text, (runOnDisk o disk input).machine.disk.readText w.1 = .ok text ∧
          (runOnDisk o disk' input).machine.disk.readText w.1 = .ok text := by
  have hinputs := hbad.inputs
  unfold Options.inputs at hinputs
  rcases hp : planOnDisk o disk input with ⟨failure | plan, m⟩ <;>
    rcases hp' : planOnDisk o disk' input with ⟨failure' | plan', m'⟩ <;>
    rw [hp, hp'] at hinputs
  -- neither run comes to read its files
  · refine ⟨?_, [], outcomeWrote_of_planOnDisk_error hf hp,
      outcomeWrote_of_planOnDisk_error hf hp', by simp⟩
    rw [runOnDisk_of_planOnDisk_error hf hp, runOnDisk_of_planOnDisk_error hf hp']
    rfl
  · cases hinputs
  · cases hinputs
  · cases hinputs with
    | some hmore =>
      obtain ⟨hok, hwrote⟩ := wrote_of_noFileError hf hapart.sparesInputs hp hclean
      obtain ⟨hok', hwrote'⟩ := wrote_of_noFileError hf hapart'.sparesInputs hp' hclean'
      have htarget := (plans_of_planOnDisk hp).target_eq (plans_of_planOnDisk hp') hbad.config
      rw [htarget, plan.target.flatMap_writesIn_of_moreBadFiles hmore] at hwrote'
      refine ⟨by rw [Outcome.exitCode, hok', Outcome.exitCode, hok],
        (m.disk.readFiles plan.files).1.flatMap fun c => plan.target.writesIn c.2,
        outcomeWrote_of_wrote (by rw [hp]; exact hwrote),
        outcomeWrote_of_wrote (by rw [hp']; exact hwrote'), fun w hw => ?_⟩
      obtain ⟨v, hlast, hread⟩ := readText_of_mem_pageWrites hwrote.disk
        (fun _ => exists_id_of_mem_flatMap_writesIn) hw
      obtain ⟨v', hlast', hread'⟩ := readText_of_mem_pageWrites hwrote'.disk
        (fun _ => exists_id_of_mem_flatMap_writesIn) hw
      obtain rfl := Option.some.inj (hlast.symm.trans hlast')
      exact ⟨v.2, hread, hread'⟩

/-! ## Runs on two small disks -/

/-- A file without pages, and one with a page. -/
def goodPages : Disk :=
  .ofFiles [("a.json".toList, .text "[]".toList),
    ("c.json".toList, .text (singlePage ['x'] ['X']))]

/-- Two pages that are left out: one has an unsafe id, and the other a property without a type. -/
def badPages : Text :=
  '[' :: singlePage "..".toList ['U'] ++
    ",\x7b\"id\":\"y\",\"title\":\"Y\",\"component\":\x7b\"props\":\x7b\"p\":\x7b".toList ++
    "\x7d\x7d\x7d\x7d]".toList

/-- The good pages with the bad ones in the file that had none, and one more file that holds no
pages. -/
def goodAndBadPages : Disk :=
  .ofFiles [("a.json".toList, .text badPages), ("b.json".toList, .text "no pages".toList),
    ("c.json".toList, .text (singlePage ['x'] ['X']))]

/-- The pages of all files in the working directory go into another one. -/
def allFilesRun : Options := .into "out".toList [['.']]

theorem exists_planOnDisk_goodPages :
    ∃ m, planOnDisk allFilesRun goodPages (.text []) =
      (.ok ⟨⟨"out".toList, .builtin, .markdown⟩, ["./a.json".toList, "./c.json".toList]⟩, m) ∧
        m.disk = (goodPages.makeDirectories "out".toList).1 :=
  exists_planOnDisk_into (by decide +kernel) (by decide +kernel) (by decide +kernel)

theorem exists_planOnDisk_goodAndBadPages :
    ∃ m, planOnDisk allFilesRun goodAndBadPages (.text []) =
      (.ok ⟨⟨"out".toList, .builtin, .markdown⟩,
        ["./a.json".toList, "./b.json".toList, "./c.json".toList]⟩, m) ∧
        m.disk = (goodAndBadPages.makeDirectories "out".toList).1 :=
  exists_planOnDisk_into (by decide +kernel) (by decide +kernel) (by decide +kernel)

theorem moreBadText_badPages : MoreBadText "[]".toList badPages := by
  obtain ⟨pages, h, hnone⟩ : ∃ pages, parsePages "[]".toList = .ok pages ∧ pages.isEmpty = true :=
    exists_eq_ok_of_any (by decide +kernel)
  obtain ⟨pages', h', hbad⟩ : ∃ pages', parsePages badPages = .ok pages' ∧
      pages'.all (·.IsBad) = true := exists_eq_ok_of_any (by decide +kernel)
  rw [List.isEmpty_iff.1 hnone] at h
  exact moreBadText_of_all_isBad h h' (by simpa using hbad)

theorem addsBadInputs_allFiles :
    allFilesRun.AddsBadInputs goodPages goodAndBadPages (.text []) := by
  obtain ⟨m, hp, hdisk⟩ := exists_planOnDisk_goodPages
  obtain ⟨m', hp', hdisk'⟩ := exists_planOnDisk_goodAndBadPages
  obtain ⟨fault, hfault⟩ : ∃ fault, parsePages "no pages".toList = .error fault :=
    exists_eq_error_iff.2 (by decide +kernel)
  have hread : (m.disk.readFiles ["./a.json".toList, "./c.json".toList]).1 =
      [("./a.json".toList, "[]".toList), ("./c.json".toList, singlePage ['x'] ['X'])] := by
    rw [hdisk]
    decide +kernel
  have hread' : (m'.disk.readFiles
      ["./a.json".toList, "./b.json".toList, "./c.json".toList]).1 =
        [("./a.json".toList, badPages), ("./b.json".toList, "no pages".toList),
          ("./c.json".toList, singlePage ['x'] ['X'])] := by
    rw [hdisk']
    decide +kernel
  refine ⟨rfl, ?_⟩
  rw [Options.inputs, hp, Options.inputs, hp']
  dsimp only
  rw [hread, hread']
  exact .some (.keep _ moreBadText_badPages (.extra _ hfault (.keep _ (.inl rfl) .nil)))

/-- The run with bad pages ends as the one without them does, with the same texts under the same
paths. -/
theorem wrote_of_addsBadInputs_allFiles :
    (runOnDisk allFilesRun goodAndBadPages (.text [])).exitCode =
        (runOnDisk allFilesRun goodPages (.text [])).exitCode ∧
      ∃ writes, (runOnDisk allFilesRun goodPages (.text [])).Wrote goodPages writes ∧
        (runOnDisk allFilesRun goodAndBadPages (.text [])).Wrote goodAndBadPages writes := by
  obtain ⟨m, hp, hdisk⟩ := exists_planOnDisk_goodPages
  obtain ⟨m', hp', hdisk'⟩ := exists_planOnDisk_goodAndBadPages
  have hf : allFilesRun.files ≠ [] := List.cons_ne_nil _ _
  have hapart := keepsApart_of_planOnDisk hp (by decide +kernel)
  have hapart' := keepsApart_of_planOnDisk hp' (by decide +kernel)
  have hclean : (runOnDisk allFilesRun goodPages (.text [])).NoFileError := by
    refine noFileError_of_failure_eq_none ((failure_eq_none_iff hf hapart.sparesInputs hp).2 ?_)
    rw [hdisk]
    exact ⟨exists_eq_ok_iff.2 (by decide +kernel), by decide +kernel⟩
  have hclean' : (runOnDisk allFilesRun goodAndBadPages (.text [])).NoFileError := by
    refine noFileError_of_failure_eq_none ((failure_eq_none_iff hf hapart'.sparesInputs hp').2 ?_)
    rw [hdisk']
    exact ⟨exists_eq_ok_iff.2 (by decide +kernel), by decide +kernel⟩
  obtain ⟨hcode, writes, hwrote, hwrote', -⟩ :=
    wrote_of_addsBadInputs hf addsBadInputs_allFiles hapart hapart' hclean hclean'
  exact ⟨hcode, writes, hwrote, hwrote'⟩

end ComponentPages
