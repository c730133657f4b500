import ComponentPages.Proofs.Shown

/-!
# Code blocks that are left open

A code block that is open at the end of a text is shown as it is written, behind all that was found
before it.

- **`closedDescription`** — the description of a text without such a block.
- **`description_of_outside`** — it is the description where no block is left open.
- **`cleanText_of_fence`** — what is shown of the text ends in the open block, and is the rest of
  the description before it.
-/

namespace ComponentPages

/-- The description of a text without a code block that is left open at its end. -/
def closedDescription (t : Text) : Description :=
  (Scan.start.run (contentLines t)).closeTag.description

/-- **Where no code block is left open** the description is the one without such a block. -/
theorem description_of_outside {t : Text} (h : (Scan.start.run (contentLines t)).Outside) :
    (extract t).description = closedDescription t := by
  rw [closedDescription, ← Scan.finish_of_outside h, extract]

/-! ## Prose with a block behind it -/

/-- Lines that are put together begin with the first line. -/
theorem isPrefix_joinLines_cons (l : Text) (ls : List Text) : l <+: joinLines (l :: ls) := by
  by_cases hls : ls = []
  · simp [hls]
  · rw [joinLines_cons l hls]
    exact List.prefix_append l _

/-- Lines that are put together are not blank where the first line is not. -/
theorem isBlankText_joinLines_cons {l : Text} (h : isBlankText l = false) (ls : List Text) :
    isBlankText (joinLines (l :: ls)) = false := by
  obtain ⟨rest, hrest⟩ := isPrefix_joinLines_cons l ls
  rw [← hrest, isBlankText_append, h, Bool.false_and]

/-- The lines of a block behind lines of prose are shown behind the prose. -/
theorem exists_proseText_append (ls : List Text) {first : Text} (body : List Text)
    (hfirst : trim first = first) (hblank : isBlankText first = false) :
    ∃ gap, isBlankText gap = true ∧ (Scan.proseText ls = [] → gap = []) ∧
      Scan.proseText (ls ++ first :: body) =
        Scan.proseText ls ++ (gap ++ trimEnd (joinLines (first :: body))) := by
  have hblock := isBlankText_joinLines_cons hblank body
  have hstart : trimStart (joinLines (first :: body)) = joinLines (first :: body) := by
    obtain ⟨rest, hrest⟩ := isPrefix_joinLines_cons first body
    rw [← hrest, trimStart_append hblank, (trim_eq_self_iff.1 hfirst).1]
  by_cases hls : ls = []
  · refine ⟨[], rfl, fun _ => rfl, ?_⟩
    rw [hls, List.nil_append, Scan.proseText, trim, hstart]
    rfl
  · rw [Scan.proseText, Scan.proseText, joinLines_append hls (List.cons_ne_nil _ _)]
    cases hprose : isBlankText (joinLines ls) with
    | true =>
      -- nothing is shown of the prose
      refine ⟨[], rfl, fun _ => rfl, ?_⟩
      rw [trim_eq_nil_iff.2 hprose, trim, trimStart_append_of_blank hprose,
        ← List.singleton_append, trimStart_append_of_blank (by rfl), hstart]
      rfl
    | false =>
      obtain ⟨gap, hgap, hend⟩ := exists_trimEnd_append_blank (trimStart (joinLines ls))
      refine ⟨gap ++ ['\n'], ?_, fun hnil => ?_, ?_⟩
      · rw [isBlankText_append, hgap]
        rfl
      · rw [trim_eq_nil_iff, hprose] at hnil
        cases hnil
      · rw [trim, trim, trimStart_append hprose, trimEnd_append_cons _ _ hblock]
        conv_lhs => rw [hend]
        simp

/-- What is put behind the last section is behind all sections that are put together. -/
theorem exists_joinSections_append (ps : List Text) {q gap more : Text}
    (hgap : isBlankText gap = true) (hq : q = [] → gap = []) (hmore : more ≠ []) :
    ∃ gap', isBlankText gap' = true ∧
      joinSections (ps ++ sectionOf (q ++ (gap ++ more))) =
        joinSections (ps ++ sectionOf q) ++ (gap' ++ more) := by
  rw [sectionOf_of_ne_nil (q := q ++ (gap ++ more)) (by simp [hmore])]
  by_cases hps : ps = []
  · refine ⟨gap, hgap, ?_⟩
    by_cases hnil : q = []
    · rw [hps, hnil, hq hnil]
      exact joinSections_singleton more
    · rw [hps, sectionOf_of_ne_nil hnil, List.nil_append, List.nil_append, joinSections_singleton,
        joinSections_singleton]
  · rw [joinSections_append hps (List.cons_ne_nil _ _), joinSections_singleton]
    by_cases hnil : q = []
    · refine ⟨['\n', '\n'], rfl, ?_⟩
      rw [hnil, hq hnil, sectionOf_nil, List.append_nil]
      rfl
    · refine ⟨gap, hgap, ?_⟩
      rw [sectionOf_of_ne_nil hnil, joinSections_append hps (List.cons_ne_nil _ _),
        joinSections_singleton]
      simp

namespace Scan

/-- Without opening prose no example has been found, after any number of lines. -/
theorem examples_of_opening? {s : Scan} (h : s.opening? = none → s.examples = [])
    (ls : List Text) : (s.run ls).opening? = none → (s.run ls).examples = [] := by
  induction ls generalizing s with
  | nil => exact h
  | cons l ls ih =>
    refine ih ?_
    have hstep := s.step_spec l
    generalize s.step l = s' at hstep ⊢
    cases hstep with
    | code f hmode hopen => exact h
    | close f hmode hclose => exact fun hnone => by cases hnone
    | fence opening hout hkind => simpa using h
    | tag key name value hout hkind hkey => simpa using h
    | unknownTag name value hout hkind hkey => simpa using h
    | blank hout hkind => simpa using h
    | continued t hmode hkind => exact h
    | prose hmode hkind => exact h

/-- The sections of what a scan has read: those that are finished, and the prose since. -/
theorem joined_description (s : Scan) (h : s.opening? = none → s.examples = []) :
    s.description.joined =
      joinSections (sectionOf (s.opening?.getD []) ++ s.examples.flatMap Example.sections ++
        sectionOf (proseText s.prose)) := by
  rw [Description.joined, Description.sections, description]
  cases hopening : s.opening? with
  | none =>
    rw [h hopening]
    simp
  | some text => rfl

end Scan

/-- **Where a code block is left open**, what is shown of the text ends in the block. -/
theorem cleanText_of_fence {t : Text} {f : OpenFence}
    (h : (Scan.start.run (contentLines t)).mode = .fence f) :
    ∃ gap, isBlankText gap = true ∧
      (extract t).cleanText =
        (closedDescription t).joined ++ (gap ++ trimEnd (joinLines (f.firstLine :: f.body))) := by
  have hnl : ∀ l ∈ contentLines t, '\n' ∉ l := fun l hl => newline_not_mem_of_mem_contentLines hl
  have hfirst := (Scan.trimmed_start.run hnl).fence f h
  have hstarted := Scan.examples_of_opening? (s := .start) (fun _ => rfl) (contentLines t)
  have hclosed : (Scan.start.run (contentLines t)).closeTag = Scan.start.run (contentLines t) :=
    Scan.closeTag_of_ne fun t' ht => by rw [h] at ht; cases ht
  obtain ⟨gap, hgap, hnil, hprose⟩ := exists_proseText_append
    (Scan.start.run (contentLines t)).prose f.body hfirst.trimmed hfirst.not_blank
  have hmore : trimEnd (joinLines (f.firstLine :: f.body)) ≠ [] := by
    rw [Ne, trimEnd_eq_nil_iff, isBlankText_joinLines_cons hfirst.not_blank]
    exact Bool.false_ne_true
  obtain ⟨gap', hgap', hjoin⟩ := exists_joinSections_append
    (sectionOf ((Scan.start.run (contentLines t)).opening?.getD []) ++
      (Scan.start.run (contentLines t)).examples.flatMap Example.sections) hgap hnil hmore
  refine ⟨gap', hgap', ?_⟩
  rw [closedDescription, hclosed, Scan.joined_description _ hstarted, ← hjoin, ← hprose]
  rw [Extracted.cleanText, extract, Scan.finish_of_fence h]
  exact Scan.joined_description _ hstarted

end ComponentPages
