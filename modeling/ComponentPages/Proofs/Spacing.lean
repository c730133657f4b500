import ComponentPages.Proofs.DirectiveGaps

/-!
# Spacing around directives

Where a directive is taken out of a text, the space before it or the one after it goes, so that the
spacing is as good as it was.

- **`WellSpaced`** — no two spaces or tabs in a row, and none before punctuation.
- **`wellSpaced_closeGap`** — two gaps put together stay well spaced.
- **`wellSpaced_stripDirectives`** — so does the text without its directives.
-/

namespace ComponentPages

/-- Two characters that may follow one another: no space or tab stands before another one, and none
before punctuation. -/
def SpacedApart (c d : Char) : Prop := isIndent c = true → isIndent d = false ∧ hugsLeft d = false

instance : DecidableRel SpacedApart := fun c d =>
  inferInstanceAs (Decidable (isIndent c = true → isIndent d = false ∧ hugsLeft d = false))

/-- No two spaces or tabs in a row, and none before punctuation. -/
def WellSpaced (s : Text) : Prop := s.IsChain SpacedApart

instance (s : Text) : Decidable (WellSpaced s) :=
  inferInstanceAs (Decidable (s.IsChain SpacedApart))

/-- What is left of a text does not end in what was dropped. -/
theorem getLast?_dropEndWhile {p : Char → Bool} {s : Text} {c : Char}
    (h : (dropEndWhile p s).getLast? = some c) : p c = false := by
  have hhead := List.head?_dropWhile_not p s.reverse
  rw [dropEndWhile, List.getLast?_reverse] at h
  rw [h] at hhead
  exact hhead

/-- Spaces at the beginning of a well-spaced text have no punctuation after them. -/
theorem head?_dropWhile_wellSpaced {s : Text} (h : WellSpaced s) (hhug : beginsHugging s = false)
    {d : Char} (hd : (s.dropWhile isIndent).head? = some d) :
    isIndent d = false ∧ hugsLeft d = false := by
  have hindent : isIndent d = false := by
    have hhead := List.head?_dropWhile_not isIndent s
    rw [hd] at hhead
    exact hhead
  refine ⟨hindent, ?_⟩
  cases s with
  | nil => cases hd
  | cons c s =>
    cases hc : isIndent c with
    | false =>
      rw [List.dropWhile_cons_of_neg (by simp [hc])] at hd
      cases hd
      exact hhug
    | true =>
      rw [List.dropWhile_cons_of_pos hc] at hd
      cases s with
      | nil => cases hd
      | cons e s =>
        -- there is only one space, and the next character follows it
        have hnext := (List.isChain_cons_cons.1 h).1 hc
        rw [List.dropWhile_cons_of_neg (by simp [hnext.1])] at hd
        cases hd
        exact hnext.2

/-- **Where a directive is taken out the spacing stays good.** -/
theorem wellSpaced_closeGap {before gap : Text} (hbefore : WellSpaced before)
    (hgap : WellSpaced gap) : WellSpaced (closeGap before gap) := by
  unfold closeGap WellSpaced
  split
  · -- punctuation follows, and no space is left before it
    have hleft : WellSpaced (dropEndWhile isIndent before) :=
      List.IsChain.prefix hbefore (List.rdropWhile_prefix isIndent before)
    refine List.isChain_append.2 ⟨hleft, hgap, ?_⟩
    intro c hc d _ hindent
    rw [getLast?_dropEndWhile hc] at hindent
    cases hindent
  · next hhug =>
    rw [Bool.not_eq_true] at hhug
    split
    · -- the spaces that follow are gone, and no punctuation comes after them
      refine List.isChain_append.2 ⟨hbefore, hgap.suffix (List.dropWhile_suffix _), ?_⟩
      exact fun c _ d hd _ => head?_dropWhile_wellSpaced hgap hhug hd
    · next hends =>
      -- there is no space before the directive
      refine List.isChain_append.2 ⟨hbefore, hgap, ?_⟩
      intro c hc d _ hindent
      refine absurd ?_ hends
      rw [Bool.or_eq_true, endsIndented, hc]
      exact .inr hindent

/-- The gaps of a well-spaced text are well spaced. -/
theorem wellSpaced_gaps {s : Text} (h : WellSpaced s) : ∀ gap ∈ gapsBetween s, WellSpaced gap := by
  induction s using directive_induction with
  | free s hfree =>
    rw [gapsBetween_of_free hfree, List.forall_mem_singleton]
    exact h
  | first gap d ids rest hd hgap ih =>
    rw [gapsBetween_first hd hgap, List.forall_mem_cons]
    have hrest : rest <:+ gap ++ (d ++ rest) :=
      (List.suffix_append d rest).trans (List.suffix_append gap _)
    have hwell : WellSpaced gap := List.IsChain.prefix h (List.prefix_append gap _)
    exact ⟨hwell, ih (h.suffix hrest)⟩

/-- Well-spaced gaps give a well-spaced text. -/
theorem wellSpaced_foldl_closeGap {before : Text} (hbefore : WellSpaced before) {gaps : List Text}
    (hgaps : ∀ gap ∈ gaps, WellSpaced gap) : WellSpaced (gaps.foldl closeGap before) := by
  induction gaps generalizing before with
  | nil => exact hbefore
  | cons gap gaps ih =>
    rw [List.forall_mem_cons] at hgaps
    exact ih (wellSpaced_closeGap hbefore hgaps.1) hgaps.2

/-- **Taking directives out leaves no bad spacing** in a text that has none. -/
theorem wellSpaced_stripDirectives {s : Text} (h : WellSpaced s) :
    WellSpaced (stripDirectives s).1 := by
  have hgaps := wellSpaced_gaps h
  rw [gapsBetween_eq, List.forall_mem_cons] at hgaps
  exact wellSpaced_foldl_closeGap hgaps.1 hgaps.2

/-- A sentence stays well-spaced with directives next to each other, before punctuation, and with
spaces on both sides. -/
theorem wellSpaced_stripDirectives_sentence :
    let s := "Shows {@platform ios} {@platform tv}{@platform web}, and ".toList ++
      "a {@platform ios, tv} b {@platform tv}!".toList
    WellSpaced s ∧ WellSpaced (stripDirectives s).1 ∧
      (stripDirectives s).1 = "Shows, and a b!".toList := by
  intro s
  have hs : WellSpaced s := by decide +kernel
  exact ⟨hs, wellSpaced_stripDirectives hs, by decide +kernel⟩

end ComponentPages
