import ComponentPages.Proofs.ExamplesOnPage

/-!
# The layout of examples

Under tabs or in order, every section of a description is to be shown once. There is one exception:
an example that is named both a function and a class component, and is the only one of either kind,
is shown under both tabs, with its intro written twice.

- **`layoutParts`** — the blocks that the layout adds to those of the description.
- **`descriptionParts_perm`** — the blocks are these, the sections of the description, and those of
  an example under both tabs once more.
- **`showsEachOnce_iff`** — nothing is shown twice unless one example is the whole pair.
-/

namespace ComponentPages

/-! ## Layouts -/

/-- The example that is shown under both tabs, if there is one. -/
def underBothTabs (examples : List Example) : List Example :=
  match tabbedPair? examples with
  | some (functional, classical) => if functional = classical then [functional] else []
  | none => []

/-- The blocks that the layout of the examples adds: the heading and the marks of the tabs. -/
def layoutParts (examples : List Example) : List Text :=
  (if examples.isEmpty then [] else ["## Example".toList]) ++
    if (tabbedPair? examples).isSome then [toggler, functionalBlock, classBlock, endBlock] else []

/-- Besides what the layout adds, the blocks of a description are its sections: the block of each
example once, and each intro that is not empty once. -/
def Description.ShowsEachOnce (d : Description) : Prop :=
  (descriptionParts d).Perm (layoutParts d.examples ++ d.sections)

section Pair

variable {examples : List Example} {functional classical : Example}

theorem filter_of_tabbedPair? (h : tabbedPair? examples = some (functional, classical)) :
    examples.filter isFunctional = [functional] ∧ examples.filter isClass = [classical] := by
  unfold tabbedPair? at h
  split at h
  · next hfunctional hclassical =>
    cases h
    exact ⟨hfunctional, hclassical⟩
  · cases h

/-- The class component is the only example that can be the function component as well. -/
theorem filter_classical (h : tabbedPair? examples = some (functional, classical)) :
    [classical].filter (fun e => !isFunctional e) =
      if functional = classical then [] else [classical] := by
  obtain ⟨hfunctional, hclassical⟩ := filter_of_tabbedPair? h
  have hmem : classical ∈ examples :=
    (List.mem_filter.1 (hclassical ▸ List.mem_singleton_self classical)).1
  have hnamed : isFunctional functional = true :=
    (List.mem_filter.1 (hfunctional ▸ List.mem_singleton_self functional)).2
  split
  · next heq => rw [← heq, List.filter_cons_of_neg (by simp [hnamed]), List.filter_nil]
  · next hne =>
    have hnot : isFunctional classical = false := by
      by_contra hnamed'
      rw [Bool.not_eq_false] at hnamed'
      exact hne ((eq_of_tabbedPair? h hmem).1 hnamed').symm
    rw [List.filter_cons_of_pos (by simp [hnot]), List.filter_nil]

/-- **The pair and the others** are all examples: where one is the whole pair, it is there once. -/
theorem perm_of_tabbedPair? (h : tabbedPair? examples = some (functional, classical)) :
    examples.Perm (functional :: ((if functional = classical then [] else [classical]) ++
      examples.filter fun e => !isFunctional e && !isClass e)) := by
  obtain ⟨hfunctional, hclassical⟩ := filter_of_tabbedPair? h
  have hsplit := List.filter_append_perm isFunctional examples
  rw [hfunctional, List.singleton_append] at hsplit
  -- those that are no function component are the class component and the others
  have hrest := List.filter_append_perm isClass (examples.filter fun e => !isFunctional e)
  rw [List.filter_comm, hclassical, filter_classical h, List.filter_filter] at hrest
  have hand : (fun e => !isClass e && !isFunctional e) =
      fun e => !isFunctional e && !isClass e := funext fun e => Bool.and_comm _ _
  rw [hand] at hrest
  exact hsplit.symm.trans (hrest.symm.cons functional)

/-- **No block of an example is lost or doubled** by the tabs, but for an example that is under both
of them. -/
theorem exampleParts_perm (examples : List Example) :
    (exampleParts examples).Perm
      ((if (tabbedPair? examples).isSome then [toggler, functionalBlock, classBlock, endBlock]
        else []) ++ (underBothTabs examples ++ examples).flatMap Example.sections) := by
  unfold exampleParts underBothTabs
  cases hpair : tabbedPair? examples with
  | none => exact .refl _
  | some pair =>
    obtain ⟨functional, classical⟩ := pair
    have hall := (perm_of_tabbedPair? hpair).flatMap_right Example.sections
    rw [List.flatMap_append]
    refine .trans ?_ ((hall.append_left _).append_left _).symm
    rw [List.perm_iff_count]
    intro block
    -- the same blocks, in another order
    by_cases heq : functional = classical
    · subst heq
      simp only [Option.isSome_some, if_true, List.flatMap_cons, List.flatMap_nil, List.nil_append,
        Example.sections, List.count_append, List.count_cons, List.count_nil]
      omega
    · simp only [Option.isSome_some, if_true, if_neg heq, List.flatMap_cons, List.flatMap_nil,
        List.singleton_append, Example.sections, List.count_append, List.count_cons, List.count_nil]
      omega

end Pair

/-! ## Descriptions -/

/-- **The blocks of a description**: what the layout adds, the sections, and those of an example
under both tabs once more. -/
theorem descriptionParts_perm (d : Description) :
    (descriptionParts d).Perm (layoutParts d.examples ++ d.sections ++
      (underBothTabs d.examples).flatMap Example.sections) := by
  have hexamples := List.perm_iff_count.1 (exampleParts_perm d.examples)
  rw [List.perm_iff_count]
  intro block
  have hblock := hexamples block
  rw [descriptionParts, layoutParts, Description.sections]
  cases hempty : d.examples.isEmpty with
  | true =>
    rw [List.isEmpty_iff] at hempty
    simp [hempty, underBothTabs, tabbedPair?]
  | false =>
    simp only [List.flatMap_append, List.count_append, List.count_cons, List.count_nil,
      Bool.false_eq_true, if_false] at hblock ⊢
    omega

/-- An example is under both tabs where it is the whole pair. -/
theorem underBothTabs_eq_nil_iff {examples : List Example} :
    underBothTabs examples = [] ↔ ∀ e, tabbedPair? examples ≠ some (e, e) := by
  unfold underBothTabs
  cases tabbedPair? examples with
  | none => simp
  | some pair =>
    obtain ⟨functional, classical⟩ := pair
    by_cases heq : functional = classical
    · subst heq
      simp
    · have hne (e : Example) : some (functional, classical) ≠ some (e, e) := by
        intro h
        cases h
        exact heq rfl
      simpa [heq] using hne

/-- **Every section is shown once**, under tabs or not, unless one example is both the only function
component and the only class component. -/
theorem showsEachOnce_iff (d : Description) :
    d.ShowsEachOnce ↔ ∀ e, tabbedPair? d.examples ≠ some (e, e) := by
  have hperm := descriptionParts_perm d
  rw [← underBothTabs_eq_nil_iff]
  constructor
  · intro honce
    -- an example has a block, and so it would be one more
    have hnone : (underBothTabs d.examples).flatMap Example.sections = [] := by
      have hlength := (honce.symm.trans hperm).length_eq
      simp only [List.length_append] at hlength
      exact List.length_eq_zero_iff.1 (by omega)
    rw [List.flatMap_eq_nil_iff] at hnone
    refine List.eq_nil_iff_forall_not_mem.2 fun e he => ?_
    have hsections := hnone e he
    rw [Example.sections, List.append_eq_nil_iff] at hsections
    cases hsections.2
  · intro hnone
    rw [hnone, List.flatMap_nil, List.append_nil] at hperm
    exact hperm

/-- An example with both names. -/
def bothComponents : Example where
  language := "SnackPlayer name=Function%20Component%20ExampleClass%20Component%20Example".toList
  intro := "Both.".toList
  raw := "```SnackPlayer name=Function%20Component%20ExampleClass%20Component%20Example\n```".toList
  code := []

/-- An example with both names is shown twice where it is the only one. -/
theorem not_showsEachOnce_bothComponents :
    ¬Description.ShowsEachOnce ⟨"Text.".toList, [bothComponents], []⟩ := fun h =>
  absurd h.length_eq (by decide +kernel)

end ComponentPages
