import ComponentPages.Proofs.Finishing
import ComponentPages.Proofs.Normalizing
import ComponentPages.Proofs.Shown

/-!
# Examples on a page

Every example of a component stands on its page, whether it is shown under a tab or in its place,
with its fences and all lines of code that are not blank. The last pass over the page shortens the
blank lines of code as well, so a block is there as it is written where it has no two of them in a
row.

- **`raw_mem_exampleParts`** — no example is lost where a pair is shown under tabs.
- **`raw_infix_joinSections_pageParts`** — each block stands on the page before it is finished.
- **`collapsed_raw_on_page`** — and on the finished page, as it is written or shortened.
-/

namespace ComponentPages

/-! ## The blocks of a page -/

/-- Only the pair that is shown under tabs is named as such. -/
theorem eq_of_tabbedPair? {examples : List Example} {functional classical e : Example}
    (h : tabbedPair? examples = some (functional, classical)) (he : e ∈ examples) :
    (isFunctional e = true → e = functional) ∧ (isClass e = true → e = classical) := by
  unfold tabbedPair? at h
  split at h
  · next hfunctional hclassical =>
    cases h
    constructor
    · intro hnamed
      have hmem : e ∈ examples.filter isFunctional := List.mem_filter.2 ⟨he, hnamed⟩
      rwa [hfunctional, List.mem_singleton] at hmem
    · intro hnamed
      have hmem : e ∈ examples.filter isClass := List.mem_filter.2 ⟨he, hnamed⟩
      rwa [hclassical, List.mem_singleton] at hmem
  · cases h

/-- **No block is lost**, under tabs or not. -/
theorem raw_mem_exampleParts {examples : List Example} {e : Example} (he : e ∈ examples) :
    e.raw ∈ exampleParts examples := by
  have hsections : e.raw ∈ e.sections := List.mem_append_right _ (List.mem_singleton_self _)
  unfold exampleParts
  split
  · next functional classical hpair =>
    obtain ⟨hfunctional, hclassical⟩ := eq_of_tabbedPair? hpair he
    by_cases hf : isFunctional e = true
    · rw [hfunctional hf]
      simp
    · by_cases hc : isClass e = true
      · rw [hclassical hc]
        simp
      · -- it is neither, and is shown after the tabs
        have hmem : e ∈ examples.filter fun e => !isFunctional e && !isClass e :=
          List.mem_filter.2 ⟨he, by rw [Bool.not_eq_true] at hf hc; rw [hf, hc]; rfl⟩
        exact List.mem_append_right _ (List.mem_flatMap.2 ⟨e, hmem, hsections⟩)
  · exact List.mem_flatMap.2 ⟨e, he, hsections⟩

/-- A block is one of the parts of its description. -/
theorem raw_mem_descriptionParts {d : Description} {e : Example} (he : e ∈ d.examples) :
    e.raw ∈ descriptionParts d := by
  have hne : d.examples.isEmpty = false := by
    rw [List.isEmpty_eq_false_iff]
    exact List.ne_nil_of_mem he
  rw [descriptionParts, hne]
  exact List.mem_append_left _
    (List.mem_append_right _ (List.mem_cons_of_mem _ (raw_mem_exampleParts he)))

/-- **Each block stands on the page** before it is finished. -/
theorem raw_infix_joinSections_pageParts (config : Config) {p : PageDoc} {e : Example}
    (he : e ∈ p.component.description.examples) (hne : e.raw ≠ []) :
    e.raw <:+: joinSections (pageParts config p) := by
  have hraw : e.raw <:+: joinSections (descriptionParts p.component.description) :=
    infix_joinWith_of_mem (raw_mem_descriptionParts he)
  have hdescription : joinSections (descriptionParts p.component.description) ≠ [] := by
    intro hnil
    rw [hnil] at hraw
    exact hne (List.infix_nil.1 hraw)
  refine hraw.trans (infix_joinWith_of_mem ?_)
  rw [pageParts, sectionOf_of_ne_nil hdescription]
  simp

/-! ## The finished page -/

/-- **Every example is on the page.** A page whose metadata is well-formed is written, and holds the
block of each example with its runs of line feeds shortened to two; the block as it is written is on
it where, and only where, it has no three line feeds in a row. -/
theorem collapsed_raw_on_page (config : Config) {p : Metadata.Page} {doc : PageDoc}
    (h : PageDoc.ofPage p = .ok doc) :
    ∃ text, p.renderMarkdown config = .ok text ∧
      ∀ e ∈ doc.component.description.examples,
        collapseFrom 0 e.raw <:+: text ∧ (e.raw <:+: text ↔ TightFeeds e.raw) := by
  refine ⟨doc.renderMarkdown config, Metadata.Page.renderMarkdown_of_ofPage config h,
    fun e he => ?_⟩
  have htrimmed : trim e.raw = e.raw ∧ e.raw ≠ [] := by
    rw [description_of_ofPage h] at he
    exact ((trim_description _).2.1 e he).2
  have hon : collapseFrom 0 e.raw <:+: doc.renderMarkdown config :=
    infix_finishPage (raw_infix_joinSections_pageParts config he htrimmed.2) htrimmed.1 htrimmed.2
  refine ⟨hon, fun hraw => ?_, fun htight => ?_⟩
  · exact (tightFeeds_finishPage _).of_isInfix hraw
  · rwa [collapseFrom_eq_self_iff.2 htight] at hon

/-- A component with a pair of examples to be shown under tabs, and one with blank lines between
its lines of code. -/
def exampleComponent : Metadata.Component where
  displayName := "Box".toList
  description := some <| joinLines <| [
    "A box.",
    "```SnackPlayer name=Function%20Component%20Example", "f()", "", "g()", "```",
    "```SnackPlayer name=Class%20Component%20Example", "class Box", "```",
    "~~~", "a", "", "", "", "b", "~~~"].map String.toList
  props := .empty
  methods := []
  composes := []

/-- The pair is there as it is written, and the third block with one blank line in it. -/
theorem collapsed_raw_on_page_tabs :
    ∃ doc text, PageDoc.ofPage ⟨"box".toList, "Box".toList, exampleComponent⟩ = .ok doc ∧
      Metadata.Page.renderMarkdown .builtin ⟨"box".toList, "Box".toList, exampleComponent⟩ =
        .ok text ∧
      ∃ functional classical spaced,
        doc.component.description.examples = [functional, classical, spaced] ∧
          tabbedPair? doc.component.description.examples = some (functional, classical) ∧
          functional.raw <:+: text ∧ classical.raw <:+: text ∧
          "~~~\na\n\nb\n~~~".toList <:+: text ∧ ¬spaced.raw <:+: text := by
  obtain ⟨doc, hdoc⟩ : ∃ doc,
      PageDoc.ofPage ⟨"box".toList, "Box".toList, exampleComponent⟩ = .ok doc := ⟨_, rfl⟩
  obtain ⟨text, htext, hall⟩ := collapsed_raw_on_page .builtin hdoc
  obtain ⟨functional, classical, spaced, hexamples, hpair, hf, hc, hs, hcollapsed⟩ :
      ∃ functional classical spaced,
        (extractOptional exampleComponent.description).description.examples =
            [functional, classical, spaced] ∧
          tabbedPair? [functional, classical, spaced] = some (functional, classical) ∧
          TightFeeds functional.raw ∧ TightFeeds classical.raw ∧ ¬TightFeeds spaced.raw ∧
          collapseFrom 0 spaced.raw = "~~~\na\n\nb\n~~~".toList :=
    ⟨⟨"SnackPlayer name=Function%20Component%20Example".toList, [],
        "```SnackPlayer name=Function%20Component%20Example\nf()\n\ng()\n```".toList,
        "f()\n\ng()".toList⟩,
      ⟨"SnackPlayer name=Class%20Component%20Example".toList, [],
        "```SnackPlayer name=Class%20Component%20Example\nclass Box\n```".toList,
        "class Box".toList⟩,
      ⟨[], [], "~~~\na\n\n\n\nb\n~~~".toList, "a\n\n\n\nb".toList⟩,
      by
        -- the literals are taken apart beforehand: decoding them is what would take long
        simp only [exampleComponent, List.map]
        repeat rw [String.toList_ofList]
        decide +kernel⟩
  rw [description_of_ofPage hdoc, hexamples] at hall
  refine ⟨doc, text, hdoc, htext, functional, classical, spaced, ?_, ?_, ?_, ?_, ?_, ?_⟩
  · rw [description_of_ofPage hdoc, hexamples]
  · rw [description_of_ofPage hdoc, hexamples, hpair]
  · exact (hall functional (by simp)).2.2 hf
  · exact (hall classical (by simp)).2.2 hc
  · rw [← hcollapsed]
    exact (hall spaced (by simp)).1
  · exact fun hraw => hs ((hall spaced (by simp)).2.1 hraw)

/-- A component whose example has two blank lines in a row. -/
def spacedComponent : Metadata.Component where
  displayName := "X".toList
  description := some "```\na\n\n\nb\n```".toList
  props := .empty
  methods := []
  composes := []

/-- The block of an example need not stand on the page as it is written. -/
theorem not_raw_on_page_spaced :
    ∃ doc text, PageDoc.ofPage ⟨"x".toList, "X".toList, spacedComponent⟩ = .ok doc ∧
      Metadata.Page.renderMarkdown .builtin ⟨"x".toList, "X".toList, spacedComponent⟩ =
        .ok text ∧
      ∃ e ∈ doc.component.description.examples, ¬e.raw <:+: text := by
  refine ⟨_, _, rfl, rfl, ?_⟩
  decide +kernel

end ComponentPages
