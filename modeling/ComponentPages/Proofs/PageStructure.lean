import ComponentPages.Proofs.ToldParts

/-!
# The headings of a page

The headings of the reference stand on the finished page one after another, each on a line of its
own and outside code blocks, where what is told before it leaves no code block open.

- **`exists_lines_finishPage`** — a line between blank lines is a line of the finished page.
- **`StandsAfter`** — a heading on the page, after the lines of the parts before it.
- **`headings_outside_code`** — all headings of a page stand so.
-/

namespace ComponentPages

/-! ## Lines of the finished page -/

/-- **A line of a page between blank lines is a line of the finished page**, and the lines before it
are those of the page, empty ones aside. -/
theorem exists_lines_finishPage (before : Text) {line after : Text} (hline : LineEnd line)
    (hafter : after = [] ∨ ∃ rest, after = '\n' :: rest) :
    ∃ above below, lines (finishPage (before ++ '\n' :: '\n' :: (line ++ after))) =
        above ++ line :: below ∧ (above.filter fun l => !l.isEmpty) = fullLines before := by
  -- the text before the line ends in a line feed, shortened or not
  have hlast := getLast?_collapseFrom_newline 0 (before ++ ['\n'])
  rw [List.replicate_zero, List.nil_append] at hlast
  obtain ⟨above, habove⟩ := List.getLast?_eq_some_iff.1 hlast
  have hshort : collapseFrom 0 (before ++ '\n' :: '\n' :: (line ++ after)) =
      above ++ '\n' :: (line ++ collapseFrom 0 after) := by
    have hsplit := collapseFrom_append_line hline.oneLine hline.ne_nil 0
      (before ++ ['\n'] ++ ['\n']) after
    rw [habove] at hsplit
    simpa using hsplit
  have hfull : ((lines above).filter fun l => !l.isEmpty) = fullLines before := by
    have hsame : fullLines (above ++ '\n' :: []) = fullLines (before ++ '\n' :: ['\n']) := by
      rw [← habove, fullLines_collapseFrom, List.append_assoc, List.singleton_append]
    rwa [fullLines_append_newline, fullLines_append_newline, fullLines_newline_cons,
      fullLines_nil, List.append_nil, List.append_nil] at hsame
  -- what follows the line begins with a line feed, if only with that of the page
  obtain ⟨rest, hrest⟩ : ∃ rest, trimEnd (collapseFrom 0 after) ++ ['\n'] = '\n' :: rest := by
    rcases hafter with rfl | ⟨rest, rfl⟩
    · exact ⟨[], rfl⟩
    · rw [collapseFrom_newline_of_lt (by decide)]
      have hbegins := trimEnd_isPrefix ('\n' :: collapseFrom 1 rest)
      cases htrim : trimEnd ('\n' :: collapseFrom 1 rest) with
      | nil => exact ⟨[], rfl⟩
      | cons c rest' =>
        rw [htrim, List.cons_prefix_cons] at hbegins
        exact ⟨rest' ++ ['\n'], by rw [hbegins.1]; rfl⟩
  have hpage : finishPage (before ++ '\n' :: '\n' :: (line ++ after)) =
      above ++ '\n' :: (line ++ '\n' :: rest) := by
    have htrim := hline.trimEnd_append (above ++ ['\n']) (collapseFrom 0 after)
    rw [List.append_assoc, List.singleton_append] at htrim
    rw [finishPage, hshort, htrim, ← hrest]
    simp
  refine ⟨lines above, lines rest, ?_, hfull⟩
  have hself : lines line = [line] := splitOn_of_not_mem hline.oneLine
  rw [hpage, lines_append_newline, lines_append_newline, hself, List.singleton_append]

/-! ## The headings -/

/-- A heading of a page is a line of its own, and the lines above it are those of the parts before
it, empty ones aside. -/
def StandsAfter (text : Text) (before : List OutlinePart) (line : Text) (above : List Text) :
    Prop :=
  (∃ below, lines text = above ++ line :: below) ∧
    (above.filter fun l => !l.isEmpty) = (partTexts before).flatMap fullLines

/-- **A heading stands on the page** after the parts before it. -/
theorem exists_standsAfter {before : List OutlinePart} (hbefore : before ≠ []) {line : Text}
    (hline : LineEnd line) (after : List OutlinePart) :
    ∃ above, StandsAfter (finishPage (joinSections (partTexts (before ++ .heading line :: after))))
      before line above := by
  have hne : partTexts before ≠ [] := by simpa [partTexts] using hbefore
  have hparts : partTexts (before ++ .heading line :: after) =
      partTexts before ++ line :: partTexts after := by
    rw [partTexts_append, partTexts_cons, OutlinePart.text]
  obtain ⟨rest, hrest, hafter⟩ : ∃ rest,
      joinSections (line :: partTexts after) = line ++ rest ∧
        (rest = [] ∨ ∃ rest', rest = '\n' :: rest') := by
    by_cases hnil : partTexts after = []
    · rw [hnil, joinSections_singleton]
      exact ⟨[], (List.append_nil _).symm, .inl rfl⟩
    · exact ⟨_, joinSections_cons line hnil, .inr ⟨_, rfl⟩⟩
  obtain ⟨above, below, hlines, habove⟩ :=
    exists_lines_finishPage (joinSections (partTexts before)) hline hafter
  rw [fullLines_joinSections] at habove
  refine ⟨above, ⟨below, ?_⟩, habove⟩
  rw [hparts, joinSections_append hne (List.cons_ne_nil _ _), hrest, hlines]

/-- No code block is open at a heading where all parts before it close theirs. -/
theorem StandsAfter.fenceAfter_eq_none {text line : Text} {before : List OutlinePart}
    {above : List Text} (h : StandsAfter text before line above)
    (hcloses : ∀ part ∈ before, ClosesFences part.text) : fenceAfter none above = none := by
  rw [← fenceAfter_filter, h.2]
  refine fenceAfter_flatMap_fullLines fun s hs => ?_
  obtain ⟨part, hpart, rfl⟩ := List.mem_map.1 hs
  exact hcloses part hpart

/-- **The headings of a page stand outside code blocks** where what is told before them leaves none
open. A page that is written has the headings of its reference in order, each on a line of its own
after the parts before it; what is told leaves no code block open where the descriptions leave none
open and the links and the keys of object parameters are shown on one line each. -/
theorem headings_outside_code {config : Config} {p : Metadata.Page} {doc : PageDoc}
    (hlabels : config.OneLineLabels) (hnames : p.OneLineNames)
    (hpage : PageDoc.ofPage p = .ok doc) :
    ∃ text, p.renderMarkdown config = .ok text ∧
      headingsOf (pageOutline config doc) = pageHeadings config doc.component ∧
      (∀ before line after, pageOutline config doc = before ++ .heading line :: after →
        ∃ above, StandsAfter text before line above ∧
          ((∀ s, .told s ∈ before → ClosesFences s) → fenceAfter none above = none)) ∧
      ((∀ d ∈ p.descriptions, LeavesNoFence (d.getD [])) → config.OneLineLinks →
        (∀ m ∈ doc.component.methods, ∀ q ∈ m.params, q.OneLineKeys config) →
        ∀ s, .told s ∈ pageOutline config doc → ClosesFences s) := by
  have hdoc := PageDoc.oneLine_ofPage hpage hnames
  refine ⟨doc.renderMarkdown config, Metadata.Page.renderMarkdown_of_ofPage config hpage,
    headings_pageOutline config doc, ?_, ?_⟩
  · intro before line after houtline
    have hharmless := harmless_pageOutline hlabels hdoc
    rw [houtline] at hharmless
    have hheading : HeadingLine line :=
      hharmless (.heading line) (List.mem_append_right _ (List.mem_cons_self ..))
    -- the front matter comes before any heading
    have hbefore : before ≠ [] := by
      rintro rfl
      cases houtline
    obtain ⟨above, habove⟩ := exists_standsAfter hbefore hheading.lineEnd after
    rw [PageDoc.renderMarkdown, joinSections_pageOutline, houtline]
    refine ⟨above, habove, fun htold => habove.fenceAfter_eq_none fun part hpart => ?_⟩
    refine (hharmless part (List.mem_append_left _ hpart)).closesFences ?_
    cases part with
    | heading line => trivial
    | made text => trivial
    | told text => exact htold text hpart
  · intro hdescriptions hlinks hkeys s hs
    exact toldCloses_pageOutline hpage hdoc hdescriptions hlinks hkeys (.told s) hs

/-- A page whose descriptions have code blocks, closed ones, in one of which there is a line like a
heading. -/
def fencedPage : Metadata.Page where
  id := "box".toList
  title := "Box".toList
  component := {
    displayName := "Box".toList
    description := some "A box.\n```\n# Reference\n```".toList
    props := .ofList [("a".toList, {
      type? := some (.node (some "number".toList) none none none [] none)
      required := false
      description := some "~~~\n```\n~~~".toList
      defaultValue := none })]
    methods := [{
      name := "focus".toList
      description := some "Moves {@platform ios} it.".toList
      modifiers := []
      params := [⟨"to".toList, none, true, none⟩] }]
    composes := ["ViewProps".toList] }

/-- All headings of its reference stand outside its code blocks. -/
theorem headings_outside_code_fenced :
    ∃ doc text, PageDoc.ofPage fencedPage = .ok doc ∧
      fencedPage.renderMarkdown .builtin = .ok text ∧
      headingsOf (pageOutline .builtin doc) =
        ["# Reference", "## Props", "### `a`", "## Methods",
          "### `focus()` <div class=\"label ios\">iOS</div>"].map String.toList ∧
      ∀ before line after, pageOutline .builtin doc = before ++ .heading line :: after →
        ∃ above, StandsAfter text before line above ∧ fenceAfter none above = none := by
  obtain ⟨doc, hdoc⟩ : ∃ doc, PageDoc.ofPage fencedPage = .ok doc := ⟨_, rfl⟩
  have hlabels : Config.OneLineLabels .builtin := by decide +kernel
  have hnames : fencedPage.OneLineNames := by decide +kernel
  obtain ⟨text, htext, hheadings, hstands, htold⟩ := headings_outside_code hlabels hnames hdoc
  refine ⟨doc, text, hdoc, htext, ?_, fun before line after houtline => ?_⟩
  · rw [hheadings]
    cases hdoc
    decide +kernel
  · have hcloses := htold (by decide +kernel) (by decide +kernel) (by cases hdoc; decide +kernel)
    obtain ⟨above, habove, houtside⟩ := hstands before line after houtline
    refine ⟨above, habove, houtside fun s hs => hcloses s ?_⟩
    rw [houtline]
    exact List.mem_append_left _ hs

/-- A page whose description opens a code block and does not close it. -/
def openFencePage : Metadata.Page where
  id := "x".toList
  title := "X".toList
  component := {
    displayName := "X".toList
    description := some "```js\nfoo".toList
    props := .ofList [("a".toList, {
      type? := some (.node (some "number".toList) none none none [] none)
      required := false
      description := none
      defaultValue := none })]
    methods := []
    composes := [] }

/-- A code block that is not closed is kept as prose, and the headings after it are in it. -/
theorem not_headings_outside_code_open :
    Config.OneLineLabels .builtin ∧ openFencePage.OneLineNames ∧
      ∃ doc text, PageDoc.ofPage openFencePage = .ok doc ∧
        openFencePage.renderMarkdown .builtin = .ok text ∧
        "# Reference".toList ∈ pageHeadings .builtin doc.component ∧
        "# Reference".toList ∈ lines text ∧
        ∀ above below, lines text = above ++ "# Reference".toList :: below →
          fenceAfter none above ≠ none := by
  obtain ⟨doc, text, hdoc, htext, hheading, hline, hall⟩ : ∃ doc text,
      PageDoc.ofPage openFencePage = .ok doc ∧ openFencePage.renderMarkdown .builtin = .ok text ∧
        "# Reference".toList ∈ pageHeadings .builtin doc.component ∧
        "# Reference".toList ∈ lines text ∧
        ∀ i < (lines text).length, (lines text)[i]? = some "# Reference".toList →
          fenceAfter none ((lines text).take i) ≠ none :=
    ⟨_, _, rfl, rfl, by decide +kernel⟩
  refine ⟨by decide +kernel, by decide +kernel, doc, text, hdoc, htext, hheading, hline, ?_⟩
  intro above below hlines
  rw [hlines] at hall
  simpa using hall above.length

end ComponentPages
