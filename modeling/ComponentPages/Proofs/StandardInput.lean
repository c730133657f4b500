import ComponentPages.Proofs.ReadingFirst

/-!
# Pages from the standard input

Without files the command prints the pages of its input one after another, and stops at the first
that cannot be made. It leaves the disk as it is.

- **`printedPages`** — the texts of pages up to the first that cannot be made;
  **`exists_printedPages_eq`** has them be those of the longest front that can be made.
- **`runOn_printPages`**, **`runOn_runInput`** — what is printed.
- **`exists_runOnDisk_eq_of_files_eq_nil`** — what comes of the command without files;
  **`runOnDisk_keeps_of_files_eq_nil`** has the disk unchanged.
-/

namespace ComponentPages

section Printing

variable (config : Config) (format : Format)

/-- The texts of pages in order up to the first that cannot be made, and what is reported of that
one. -/
def printedPages : List Metadata.Page → List Text × Option Failure
  | [] => ([], none)
  | page :: pages =>
    match page.render config format with
    | .ok text => (text :: (printedPages pages).1, (printedPages pages).2)
    | .error e => ([], some (.renderPage page.id e))

/-- What is printed is the longest front of the pages that can be made. -/
theorem exists_printedPages_eq (pages : List Metadata.Page) :
    ∃ front back, pages = front ++ back ∧
      front.mapM (Metadata.Page.render config format) = .ok (printedPages config format pages).1 ∧
      (∀ page ∈ back.head?, ∃ e, page.render config format = .error e) ∧
      ((printedPages config format pages).2 = none ↔ back = []) := by
  induction pages with
  | nil => exact ⟨[], [], rfl, rfl, by simp, by simp [printedPages]⟩
  | cons page pages ih =>
    cases hrender : page.render config format with
    | error e =>
      exact ⟨[], page :: pages, rfl, by simp [printedPages, hrender], by simp [hrender],
        by simp [printedPages, hrender]⟩
    | ok text =>
      obtain ⟨front, back, rfl, htexts, hstop, hall⟩ := ih
      refine ⟨page :: front, back, rfl, ?_, hstop, ?_⟩
      · rw [List.mapM_cons, hrender, ok_bind, htexts, ok_bind, printedPages, hrender]
        rfl
      · simpa only [printedPages, hrender] using hall

/-- Where all pages can be made all of them are printed. -/
theorem printedPages_of_mapM {pages : List Metadata.Page} {texts : List Text}
    (h : pages.mapM (Metadata.Page.render config format) = .ok texts) :
    printedPages config format pages = (texts, none) := by
  induction mapM_eq_ok_iff.1 h with
  | nil => rfl
  | cons hrender hrest ih => rw [printedPages, hrender, ih (mapM_eq_ok_iff.2 hrest)]

/-- Pages are printed one after another. -/
theorem runOn_printPages (pages : List Metadata.Page) (m : Machine) :
    runOn (printPages Host.onDisk config format pages) m =
      (match (printedPages config format pages).2 with
        | none => .ok ()
        | some failure => .error failure,
        { m with output := m.output ++ (printedPages config format pages).1.flatten }) := by
  induction pages generalizing m with
  | nil => simp [printPages, printedPages, runOn_pure]
  | cons page pages ih =>
    rw [printPages, runOn_bind, runOn_orFail]
    cases hrender : page.render config format with
    | error e => simp [printedPages, hrender]
    | ok text =>
      dsimp only
      rw [runOn_lift_bind, ih]
      simp [printedPages, hrender, Host.onDisk]

end Printing

/-- With its configuration read, the command without files reads its input, the pages in it and the
format, and prints the pages. -/
theorem runOn_runInput (config : Config) (formatName : Text) (m : Machine) :
    runOn (runInput Host.onDisk config formatName) m =
      match m.input with
      | .bytes _ => (.error (.readInput .notText), m)
      | .text text =>
        match Metadata.parsePages text, Format.ofName? formatName with
        | .error _, _ => (.error .parseInput, m)
        | .ok _, none => (.error (.unknownFormat formatName), m)
        | .ok pages, some format => runOn (printPages Host.onDisk config format pages) m := by
  rcases m with ⟨disk, text | bytes, output, events⟩
  · dsimp only
    have hread : runOn (runInput Host.onDisk config formatName) ⟨disk, .text text, output, events⟩ =
        runOn (do
          let pages ← orFail (fun _ => .parseInput) (Metadata.parsePages text)
          let format ← chooseFormat formatName
          printPages Host.onDisk config format pages) ⟨disk, .text text, output, events⟩ := rfl
    rw [hread, runOn_bind, runOn_orFail]
    cases Metadata.parsePages text with
    | error e => rfl
    | ok pages =>
      dsimp only
      rw [chooseFormat]
      cases Format.ofName? formatName <;> rfl
  · rfl

/-- The command without files only prints. -/
theorem runOn_runInput_keeps (config : Config) (formatName : Text) (m : Machine) :
    (runOn (runInput Host.onDisk config formatName) m).2.disk = m.disk ∧
      (runOn (runInput Host.onDisk config formatName) m).2.events = m.events := by
  rw [runOn_runInput]
  cases m.input with
  | bytes b => exact ⟨rfl, rfl⟩
  | text text =>
    dsimp only
    split
    · exact ⟨rfl, rfl⟩
    · exact ⟨rfl, rfl⟩
    · rw [runOn_printPages]
      exact ⟨rfl, rfl⟩

/-! ## The command -/

/-- The command without files goes on from its configuration. -/
theorem exists_runOnDisk_eq_of_files_eq_nil {o : Options} (hf : o.files = []) (disk : Disk)
    (input : Content) : ∃ events, (∀ e ∈ events, LogEvent.writtenPath? e = none) ∧
      runOnDisk o disk input = .ofResult
        (match disk.ask (loadConfig Host.onDisk o.config) with
        | .error failure => (.error failure, ⟨disk, input, [], events⟩)
        | .ok config => runOn (runInput Host.onDisk config o.formatName)
            ⟨disk, input, [], events⟩) := by
  obtain ⟨events, htold, hconfig⟩ := searches_loadConfig o.config ⟨disk, input, [], []⟩
  refine ⟨events, htold, ?_⟩
  rw [runOnDisk_eq_outcomeOf, outcomeOf, runOptions, runOn_bind, hconfig]
  cases disk.ask (loadConfig Host.onDisk o.config) with
  | error failure => rfl
  | ok config =>
    rw [hf]
    rfl

/-- **The command without files changes nothing on the disk.** -/
theorem runOnDisk_keeps_of_files_eq_nil {o : Options} (hf : o.files = []) (disk : Disk)
    (input : Content) : (runOnDisk o disk input).machine.disk = disk ∧
      (runOnDisk o disk input).machine.writtenPaths = [] := by
  obtain ⟨events, htold, hrun⟩ := exists_runOnDisk_eq_of_files_eq_nil hf disk input
  have hnone : events.filterMap LogEvent.writtenPath? = [] := List.filterMap_eq_nil_iff.2 htold
  rw [hrun]
  cases disk.ask (loadConfig Host.onDisk o.config) with
  | error failure => exact ⟨rfl, hnone⟩
  | ok config =>
    obtain ⟨hdisk, hevents⟩ :=
      runOn_runInput_keeps config o.formatName ⟨disk, input, [], events⟩
    rw [Outcome.machine_ofResult]
    exact ⟨hdisk, by rw [Machine.writtenPaths, hevents]; exact hnone⟩

end ComponentPages
