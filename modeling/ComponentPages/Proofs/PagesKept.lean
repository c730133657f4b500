import ComponentPages.Proofs.ReadingFirst

/-!
# Pages that are kept

A run that succeeds has written all pages that it is to write. As long as no page is written over a
file that is still to be read, the file of a page holds what was written to it last, and pages with
different ids have different files. So a page is lost only to another one with the same id.

- **`Plan.Holds`** — a page that a run is to write, told from the files as they were at the start.
- **`eq_of_locate_pathOf`** — pages with different ids have different files.
- **`writeAll_of_runOnDisk`** — what a run that succeeds has written.
- **`readText_of_mem_writes`** — the file of a page holds the last rendering with its id.
- **`keepsPages_iff`** — all pages are kept exactly when the id of a page tells its rendering.
-/

namespace ComponentPages

/-! ## The files of pages -/

/-- A safe name stays one with the extension of a format. -/
theorem isSafeName_append_extension {id : Text} (h : isSafeName id = true) (format : Format) :
    isSafeName (id ++ '.' :: format.extension) = true := by
  obtain ⟨c, rest, rfl⟩ : ∃ c rest, id = c :: rest := by
    cases id with
    | nil => simp [isSafeName] at h
    | cons c rest => exact ⟨c, rest, rfl⟩
  have hany : ((c :: rest) ++ '.' :: format.extension).any
      (fun c => c == '/' || c == '\\' || c == '\x00') = false := by
    simp only [isSafeName, Bool.and_eq_true, Bool.not_eq_true'] at h
    rw [List.any_append, h.2]
    cases format <;> decide
  have hlength : 3 ≤ ((c :: rest) ++ '.' :: format.extension).length := by
    cases format <;> simp [Format.extension]
  have hdot : (c :: rest) ++ '.' :: format.extension ≠ ['.'] := fun he => by
    simp [he] at hlength
  have hdots : (c :: rest) ++ '.' :: format.extension ≠ ['.', '.'] := fun he => by
    simp [he] at hlength
  simp only [isSafeName, Bool.and_eq_true, Bool.not_eq_true', bne_iff_ne]
  exact ⟨⟨⟨rfl, hdot⟩, hdots⟩, hany⟩

/-- The file of a page stands in the directory, under its id and the extension. -/
theorem Target.placeFrom_pathOf (t : Target) {id : Text} (h : isSafeName id = true)
    (start : Place) :
    placeFrom start (t.pathOf id) =
      placeFrom start t.directory ++ [id ++ '.' :: t.format.extension] :=
  placeFrom_joinPath (isSafeName_append_extension h t.format) start t.directory

/-- Pages with different ids have different files. -/
theorem eq_of_locate_pathOf {t : Target} {d : Disk} {id id' : Text} {place : Place}
    (hid : isSafeName id = true) (hid' : isSafeName id' = true)
    (hl : d.locate (t.pathOf id) = .ok place) (hl' : d.locate (t.pathOf id') = .ok place) :
    id = id' := by
  have hplace := (Disk.eq_placeFrom_of_locate hl).symm.trans (Disk.eq_placeFrom_of_locate hl')
  rw [t.placeFrom_pathOf hid, t.placeFrom_pathOf hid'] at hplace
  exact List.append_cancel_right (List.singleton_inj.1 (List.append_cancel_left hplace))

/-! ## Pages that are to be written -/

/-- The text of a file of a plan, as it was when the command started. The place of the file is
looked up when the output directory is made, as the path may lead through it. -/
def Plan.HoldsText (plan : Plan) (start ready : Disk) (text : Text) : Prop :=
  ∃ file ∈ plan.files, ∃ place,
    ready.locate file = .ok place ∧ start.at? place = some (.file (.text text))

/-- A page that is to be written, with its rendering. -/
structure Plan.Holds (plan : Plan) (start ready : Disk) (page : Metadata.Page) (output : Text) :
    Prop where
  inFile : ∃ text pages, plan.HoldsText start ready text ∧
    Metadata.parsePages text = .ok pages ∧ page ∈ pages
  rendered : page.render plan.target.config plan.target.format = .ok output
  safe : isSafeName page.id = true

/-- What a plan says is to be written, in order. -/
def Plan.writes (plan : Plan) (d : Disk) : List (Text × Text) :=
  plan.files.flatMap (plan.target.writesOf d)

/-- A file can be read if what stands at its place is a text. -/
theorem Disk.readText_of_isFile {d : Disk} {path s : Text} {place : Place}
    (hfile : d.isFile path = true) (hl : d.locate path = .ok place)
    (hat : d.at? place = some (.file (.text s))) : d.readText path = .ok s :=
  readText_eq_ok_iff.2 ⟨(isFile_iff.1 hfile).1, place, hl, hat⟩

/-- What is to be written are the pages in the files. -/
theorem mem_writes_iff {o : Options} {disk : Disk} {input : Content} {plan : Plan} {m : Machine}
    (hp : planOnDisk o disk input = (.ok plan, m)) {w : Text × Text} :
    w ∈ plan.writes m.disk ↔
      ∃ page, plan.Holds disk m.disk page w.2 ∧ w.1 = plan.target.pathOf page.id := by
  have hkeeps := keepsFiles_of_planOnDisk hp
  simp only [Plan.writes, List.mem_flatMap]
  constructor
  · rintro ⟨file, hfile, hw⟩
    unfold Target.writesOf at hw
    split at hw
    · next text hread =>
      obtain ⟨-, place, hl, hat⟩ := Disk.readText_eq_ok_iff.1 hread
      obtain ⟨pages, hpages, page, hpage, hrender, hsafe, hpath⟩ :=
        Target.mem_writesIn_iff.1 hw
      have htext : plan.HoldsText disk m.disk text :=
        ⟨file, hfile, place, hl, hkeeps.at?_eq_file_iff.1 hat⟩
      exact ⟨page, ⟨⟨text, pages, htext, hpages, hpage⟩, hrender, hsafe⟩, hpath⟩
    · cases hw
  · rintro ⟨page, ⟨⟨text, pages, htext, hpages, hpage⟩, hrender, hsafe⟩, hpath⟩
    obtain ⟨file, hfile, place, hl, hat⟩ := htext
    refine ⟨file, hfile, ?_⟩
    rw [Target.writesOf, Disk.readText_of_isFile (isFile_of_mem_files hp hfile) hl
      (hkeeps.at?_eq_file_iff.2 hat)]
    exact Target.mem_writesIn_iff.2 ⟨pages, hpages, page, hpage, hrender, hsafe, hpath⟩

/-- Where every file can be read, all of them are. -/
theorem flatMap_readFiles {t : Target} {d : Disk} {files : List Text}
    (h : (d.readFiles files).2 = none) :
    ((d.readFiles files).1.flatMap fun c => t.writesIn c.2) = files.flatMap (t.writesOf d) := by
  induction files with
  | nil => rfl
  | cons file files ih =>
    cases hread : d.readText file with
    | ok text =>
      simp only [Disk.readFiles, hread] at h ⊢
      rw [List.flatMap_cons, List.flatMap_cons, ih h, Target.writesOf, hread]
    | error e => simp [Disk.readFiles, hread] at h

/-- A run that succeeds and spares its files has written all that it was to write. -/
theorem writeAll_of_runOnDisk {o : Options} {disk : Disk} {input : Content}
    (hf : o.files ≠ []) (hs : o.SparesInputs disk input)
    (h0 : (runOnDisk o disk input).exitCode = 0) {plan : Plan} {m : Machine}
    (hp : planOnDisk o disk input = (.ok plan, m)) :
    m.disk.writeAll (plan.writes m.disk) = .ok (runOnDisk o disk input).machine.disk := by
  rw [runOnDisk_eq_readingAhead hf hs] at h0 ⊢
  have hrun := runOn_of_exitCode_eq_zero h0
  rw [runOn_readingAhead hp] at hrun
  obtain ⟨_, between, hcontents, hstop⟩ := runOn_bind_eq_ok_iff.1 hrun
  cases hfailure : (m.disk.readFiles plan.files).2 with
  | some e =>
    rw [hfailure] at hstop
    cases hstop
  | none =>
    rw [hfailure, stopAt, runOn_pure] at hstop
    rw [Plan.writes, ← flatMap_readFiles hfailure, ← (Prod.mk.inj hstop).2]
    exact ((performs_writeContents plan.target _).wrote_of_eq_ok hcontents).disk

/-! ## What the files of pages hold -/

/-- Under each path that was written to stands what was written there last, if writes under
different paths go to different places. -/
theorem readText_of_mem_writes {d e : Disk} {writes : List (Text × Text)}
    (h : d.writeAll writes = .ok e)
    (hplaces : ∀ w ∈ writes, ∀ v ∈ writes, ∀ place, d.locate w.1 = .ok place →
      d.locate v.1 = .ok place → v.1 = w.1) {w : Text × Text} (hw : w ∈ writes) :
    ∃ v, (writes.filter fun v => v.1 = w.1).getLast? = some v ∧ e.readText w.1 = .ok v.2 := by
  obtain ⟨hslash, place, hl⟩ := Disk.exists_locate_of_mem_writes h hw
  have hfilter : (writes.filter fun v => d.locate v.1 = .ok place) =
      writes.filter fun v => v.1 = w.1 := by
    refine List.filter_congr fun v hv => decide_eq_decide.2 ⟨hplaces w hw v hv place hl, ?_⟩
    intro hsame
    rw [hsame, hl]
  have hne : (writes.filter fun v => v.1 = w.1) ≠ [] :=
    List.ne_nil_of_mem (List.mem_filter.2 ⟨hw, by simp⟩)
  refine ⟨_, List.getLast?_eq_some_getLast hne, Disk.readText_of_writeAll h hslash hl ?_⟩
  rw [Disk.lastText?, hfilter, List.getLast?_eq_some_getLast hne]
  rfl

/-- What a plan says is to be written goes to one place only under one path. -/
theorem path_eq_of_mem_writes {o : Options} {disk : Disk} {input : Content} {plan : Plan}
    {m : Machine} (hp : planOnDisk o disk input = (.ok plan, m)) :
    ∀ w ∈ plan.writes m.disk, ∀ v ∈ plan.writes m.disk, ∀ place, m.disk.locate w.1 = .ok place →
      m.disk.locate v.1 = .ok place → v.1 = w.1 := by
  intro w hw v hv place hl hl'
  obtain ⟨page, hpage, hpath⟩ := (mem_writes_iff hp).1 hw
  obtain ⟨page', hpage', hpath'⟩ := (mem_writes_iff hp).1 hv
  rw [hpath] at hl
  rw [hpath'] at hl'
  rw [hpath, hpath', eq_of_locate_pathOf hpage.safe hpage'.safe hl hl']

/-- All pages that a run is to write are in their files in the output directory when it ends. -/
def Options.KeepsPages (o : Options) (disk : Disk) (input : Content) : Prop :=
  ∃ plan m, planOnDisk o disk input = (.ok plan, m) ∧ o.output = some plan.target.directory ∧
    ∀ page output, plan.Holds disk m.disk page output →
      (runOnDisk o disk input).machine.disk.readText (plan.target.pathOf page.id) = .ok output

/-- Pages that a run is to write have one rendering if they have one id. -/
def Options.IdsTellPages (o : Options) (disk : Disk) (input : Content) : Prop :=
  ∀ plan m, planOnDisk o disk input = (.ok plan, m) →
    ∀ page output page' output', plan.Holds disk m.disk page output →
      plan.Holds disk m.disk page' output' → page.id = page'.id → output = output'

/-- A run that succeeds had a plan. -/
theorem exists_planOnDisk {o : Options} {disk : Disk} {input : Content} (hf : o.files ≠ [])
    (h0 : (runOnDisk o disk input).exitCode = 0) :
    ∃ plan m, planOnDisk o disk input = (.ok plan, m) ∧ o.output = some plan.target.directory := by
  have hrun := runOn_of_exitCode_eq_zero h0
  rw [runOptions_eq_prepare Host.onDisk hf, runOn_prepare_bind] at hrun
  rcases hp : planOnDisk o disk input with ⟨failure | plan, m⟩
  · rw [hp] at hrun
    cases hrun
  · exact ⟨plan, m, rfl, (plans_of_planOnDisk hp).output⟩

/-- A run that succeeds and writes no page over a file that is still to be read keeps all pages,
exactly when no two of them have one id and different renderings. -/
theorem keepsPages_iff {o : Options} {disk : Disk} {input : Content}
    (hf : o.files ≠ []) (hs : o.SparesInputs disk input)
    (h0 : (runOnDisk o disk input).exitCode = 0) :
    o.KeepsPages disk input ↔ o.IdsTellPages disk input := by
  constructor
  · rintro ⟨plan, m, hp, -, hkept⟩ plan' m' hp' page output page' output' hpage hpage' hid
    cases hp.symm.trans hp'
    have h := hkept page output hpage
    rw [hid, hkept page' output' hpage'] at h
    exact (Except.ok.inj h).symm
  · intro htell
    obtain ⟨plan, m, hp, houtput⟩ := exists_planOnDisk hf h0
    refine ⟨plan, m, hp, houtput, fun page output hpage => ?_⟩
    have hall := writeAll_of_runOnDisk hf hs h0 hp
    have hmem : (plan.target.pathOf page.id, output) ∈ plan.writes m.disk :=
      (mem_writes_iff hp).2 ⟨page, hpage, rfl⟩
    obtain ⟨v, hlast, hread⟩ := readText_of_mem_writes hall (path_eq_of_mem_writes hp) hmem
    obtain ⟨hv, hpath⟩ := List.mem_filter.1 (List.mem_of_getLast? hlast)
    obtain ⟨page', hpage', hpath'⟩ := (mem_writes_iff hp).1 hv
    -- the page that was written last has the same path, and so the same id
    obtain ⟨-, place, hl⟩ := Disk.exists_locate_of_mem_writes hall hmem
    have hsame : plan.target.pathOf page'.id = plan.target.pathOf page.id :=
      hpath'.symm.trans (by simpa using hpath)
    have hid : page.id = page'.id :=
      eq_of_locate_pathOf hpage.safe hpage'.safe hl (hsame ▸ hl)
    rw [hread, htell plan m hp page output page' v.2 hpage hpage' hid]

/-! ## Runs on small disks -/

/-- Pages that are kept are kept path by path. -/
theorem readText_of_keepsPages {o : Options} {disk : Disk} {input : Content} {plan : Plan}
    {m : Machine} (hp : planOnDisk o disk input = (.ok plan, m)) (h : o.KeepsPages disk input) :
    ∀ w ∈ plan.writes m.disk, (runOnDisk o disk input).machine.disk.readText w.1 = .ok w.2 := by
  obtain ⟨plan', m', hp', -, hkept⟩ := h
  cases hp.symm.trans hp'
  intro w hw
  obtain ⟨page, hpage, hpath⟩ := (mem_writes_iff hp).1 hw
  rw [hpath]
  exact hkept page w.2 hpage

/-- Ids tell pages if paths tell what is written under them. -/
theorem idsTellPages_of_writes {o : Options} {disk : Disk} {input : Content} {plan : Plan}
    {m : Machine} (hp : planOnDisk o disk input = (.ok plan, m))
    (h : ∀ w ∈ plan.writes m.disk, ∀ v ∈ plan.writes m.disk, w.1 = v.1 → w.2 = v.2) :
    o.IdsTellPages disk input := by
  intro plan' m' hp' page output page' output' hpage hpage' hid
  cases hp.symm.trans hp'
  have hw : (plan.target.pathOf page.id, output) ∈ plan.writes m.disk :=
    (mem_writes_iff hp).2 ⟨page, hpage, rfl⟩
  have hv : (plan.target.pathOf page'.id, output') ∈ plan.writes m.disk :=
    (mem_writes_iff hp).2 ⟨page', hpage', rfl⟩
  exact h _ hw _ hv (congrArg plan.target.pathOf hid)

/-- The pages of two files are both kept. -/
theorem keepsPages_twoFiles : twoFilesRun.KeepsPages twoFiles (.text []) := by
  refine (keepsPages_iff (List.cons_ne_nil _ _) sparesInputs_twoFiles ?_).2
    (idsTellPages_of_writes planOnDisk_twoFiles (by decide +kernel))
  rw [runOnDisk_of_planOnDisk (List.cons_ne_nil _ _) planOnDisk_twoFiles]
  decide +kernel

/-- A run that writes a page over a file before it reads it succeeds without the page in that
file. -/
theorem not_keepsPages_fileUnderPage :
    (runOnDisk fileUnderPageRun fileUnderPage (.text [])).exitCode = 0 ∧
      ¬ fileUnderPageRun.KeepsPages fileUnderPage (.text []) := by
  have hrun := runOnDisk_of_planOnDisk (List.cons_ne_nil _ _) planOnDisk_fileUnderPage
  constructor
  · rw [hrun]
    decide +kernel
  · intro hkept
    have hread := readText_of_keepsPages planOnDisk_fileUnderPage hkept
      ("./c.md".toList, "---\nid: c\ntitle: C\n---\n".toList) (by decide +kernel)
    rw [hrun] at hread
    revert hread
    decide +kernel

/-- A file with two pages that have one id. -/
def pagesWithOneId : Disk :=
  .ofFiles [("a.json".toList,
    .text ('[' :: singlePage ['x'] ['X'] ++ ',' :: singlePage ['x'] ['Y'] ++ [']']))]

def pagesWithOneIdRun : Options := .into ['.'] ["a.json".toList]

theorem planOnDisk_pagesWithOneId :
    planOnDisk pagesWithOneIdRun pagesWithOneId (.text []) =
      (.ok ⟨⟨['.'], .builtin, .markdown⟩, ["a.json".toList]⟩,
        ⟨(pagesWithOneId.makeDirectories ['.']).1, .text [], [], []⟩) :=
  planOnDisk_into (by decide +kernel) (by decide +kernel) (by decide +kernel)

/-- A run succeeds without the first of two pages that have one id. -/
theorem not_keepsPages_pagesWithOneId :
    (runOnDisk pagesWithOneIdRun pagesWithOneId (.text [])).exitCode = 0 ∧
      ¬ pagesWithOneIdRun.KeepsPages pagesWithOneId (.text []) := by
  have hrun := runOnDisk_of_planOnDisk (List.cons_ne_nil _ _) planOnDisk_pagesWithOneId
  constructor
  · rw [hrun]
    decide +kernel
  · intro hkept
    have hread := readText_of_keepsPages planOnDisk_pagesWithOneId hkept
      ("./x.md".toList, "---\nid: x\ntitle: X\n---\n".toList) (by decide +kernel)
    rw [hrun] at hread
    revert hread
    decide +kernel

end ComponentPages
