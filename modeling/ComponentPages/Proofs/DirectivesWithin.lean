import ComponentPages.Proofs.LeadingDirectives
import ComponentPages.Proofs.Tidy

/-!
# Directives within a text

A directive can stand anywhere in a text. Its brace stands in no other directive and its ends are
not blank, so taking a text apart at directives, at blanks or behind the name of a tag leaves it
whole on one side.

- **`directiveFree_iff_not_isInfix`** — a text without directives is one that has none as a part.
- **`mem_ids_of_isInfix`** — a text names the platforms of every directive in it.
- **`infix_trim_iff`** — a trimmed part is a part of the trimmed text.
- **`Scan.infix_directives_or_rest`**, **`Scan.infix_directives_or_value`** — the two sides of a
  line.
- **`exists_infix_lines_proseText_iff`** — the parts of prose lines that are put together.
-/

namespace ComponentPages

/-! ## Trimmed parts -/

section Trimmed

variable {p s : Text}

/-- A part that does not begin with a blank is left whole by the blanks in front of a text. -/
theorem infix_trimStart_iff (hp : trim p = p) : p <:+: trimStart s ↔ p <:+: s := by
  refine ⟨fun h => h.trans (trimStart_suffix s).isInfix, ?_⟩
  rintro ⟨before, after, rfl⟩
  cases hblank : isBlankText before with
  | true =>
    rw [List.append_assoc, trimStart_append_of_blank hblank]
    cases hpblank : isBlankText p with
    | true =>
      rw [← hp, trim_eq_nil_iff.2 hpblank]
      exact List.nil_infix
    | false =>
      rw [trimStart_append hpblank, (trim_eq_self_iff.1 hp).1]
      exact (List.prefix_append p after).isInfix
  | false =>
    rw [List.append_assoc, trimStart_append hblank, ← List.append_assoc]
    exact List.infix_append _ p after

/-- A trimmed part is left whole when the blanks at the end of a text are dropped. -/
theorem infix_trimEnd_iff (hp : trim p = p) : p <:+: trimEnd s ↔ p <:+: s := by
  refine ⟨fun h => h.trans (trimEnd_isPrefix s).isInfix, ?_⟩
  rintro ⟨before, after, rfl⟩
  cases hblank : isBlankText after with
  | true =>
    rw [trimEnd_append_of_blank _ hblank]
    cases hpblank : isBlankText p with
    | true =>
      rw [← hp, trim_eq_nil_iff.2 hpblank]
      exact List.nil_infix
    | false =>
      rw [trimEnd_append before hpblank, (trim_eq_self_iff.1 hp).2]
      exact (List.suffix_append before p).isInfix
  | false =>
    rw [trimEnd_append _ hblank]
    exact List.infix_append before p _

/-- **A trimmed part of a text is a part of the trimmed text.** -/
theorem infix_trim_iff (hp : trim p = p) : p <:+: trim s ↔ p <:+: s := by
  rw [trim_eq_trimStart_trimEnd, infix_trimStart_iff hp, infix_trimEnd_iff hp]

/-- A blank text has no other trimmed part than the empty one. -/
theorem eq_nil_of_infix_blank (hp : trim p = p) (hs : isBlankText s = true) (h : p <:+: s) :
    p = [] := by
  rw [← infix_trim_iff hp, trim_eq_nil_iff.2 hs] at h
  exact List.infix_nil.1 h

/-- A part that begins with a character which the text in front does not hold is a part of the rest
of the text. -/
theorem infix_of_infix_append {c : Char} {e front : Text} (hc : c ∉ front)
    (h : c :: e <:+: front ++ s) : c :: e <:+: s := by
  induction front with
  | nil => exact h
  | cons b front ih =>
    rw [List.mem_cons, not_or] at hc
    rcases List.infix_cons_iff.1 h with hfirst | hrest
    · exact absurd (List.cons_prefix_cons.1 hfirst).1 hc.1
    · exact ih hc.2 hrest

end Trimmed

section Directive

variable {d list : Text}

/-! ## Directives that stand in a text -/

/-- The brace of a directive stands at its front and nowhere else. -/
theorem exists_cons_of_directive (hd : directiveAt? d = some (list, [])) :
    ∃ e, d = '\x7b' :: e ∧ '\x7b' ∉ e := by
  obtain ⟨blanks, first, tail, rfl, -, hblanks, -, -, hids⟩ := directiveAt?_eq_some_iff.1 hd
  refine ⟨"@platform".toList ++ (blanks ++ (list ++ ['\x7d'])), rfl, fun hmem => ?_⟩
  simp only [List.mem_append, List.mem_singleton] at hmem
  rcases hmem with hmem | hmem | hmem | hmem
  · exact absurd hmem (by decide)
  · exact absurd (List.all_eq_true.1 hblanks _ hmem) (by decide)
  · exact absurd (List.all_eq_true.1 hids _ hmem) (by decide)
  · exact absurd hmem (by decide)

/-- A directive is not empty. -/
theorem ne_nil_of_directive (hd : directiveAt? d = some (list, [])) : d ≠ [] := by
  rintro rfl
  cases hd

/-- A text that begins with a directive is the directive and what follows it. -/
theorem exists_directive_append {s ids rest : Text} (h : directiveAt? s = some (ids, rest)) :
    ∃ d, directiveAt? d = some (ids, []) ∧ s = d ++ rest := by
  obtain ⟨blanks, first, tail, rfl, hform⟩ := directiveAt?_eq_some_iff.1 h
  refine ⟨directiveOpening ++ (blanks ++ (ids ++ ['\x7d'])), ?_, by simp⟩
  exact directiveAt?_eq_some_iff.2 ⟨blanks, first, tail, rfl, hform⟩

/-- A directive within a text begins at some place in it. -/
theorem exists_suffix_of_isInfix (hd : directiveAt? d = some (list, [])) {s : Text} (h : d <:+: s) :
    ∃ v rest, v <:+ s ∧ directiveAt? v = some (list, rest) := by
  obtain ⟨before, after, rfl⟩ := h
  refine ⟨d ++ after, after, ?_, directiveAt?_append hd after⟩
  rw [List.append_assoc]
  exact List.suffix_append before _

/-- **A text without directives is one that has none as a part.** -/
theorem directiveFree_iff_not_isInfix {s : Text} :
    DirectiveFree s ↔ ∀ d list, directiveAt? d = some (list, []) → ¬d <:+: s := by
  constructor
  · intro hfree d list hd hwithin
    obtain ⟨v, rest, hv, hat⟩ := exists_suffix_of_isInfix hd hwithin
    rw [hfree v hv] at hat
    cases hat
  · intro hnone v hv
    cases hat : directiveAt? v with
    | none => rfl
    | some found =>
      obtain ⟨list, rest⟩ := found
      obtain ⟨d, hd, rfl⟩ := exists_directive_append hat
      exact absurd ((List.prefix_append d _).isInfix.trans hv.isInfix) (hnone d _ hd)

/-- A text without directives has none as a part. -/
theorem DirectiveFree.not_isInfix {s : Text} (h : DirectiveFree s)
    (hd : ComponentPages.directiveAt? d = some (list, [])) : ¬d <:+: s :=
  directiveFree_iff_not_isInfix.1 h d list hd

/-- **Two directives do not overlap**: a directive within a text that begins with one is that one,
or it stands in what follows. -/
theorem eq_or_infix_of_infix_append (hd : directiveAt? d = some (list, [])) {first ids rest : Text}
    (hfirst : directiveAt? first = some (ids, [])) (h : d <:+: first ++ rest) :
    d = first ∨ d <:+: rest := by
  obtain ⟨e, rfl, he⟩ := exists_cons_of_directive hfirst
  rcases List.infix_cons_iff.1 h with ⟨after, hafter⟩ | hlater
  · -- both are read at the same place, and so leave the same rest
    have hsame : d ++ after = '\x7b' :: e ++ rest := hafter
    have hat := directiveAt?_append hd after
    rw [hsame, directiveAt?_append hfirst] at hat
    cases hat
    exact .inl (List.append_cancel_right hsame)
  · obtain ⟨e', rfl, -⟩ := exists_cons_of_directive hd
    exact .inr (infix_of_infix_append he hlater)

/-- **A text names the platforms of every directive in it.** -/
theorem mem_ids_of_isInfix (hd : directiveAt? d = some (list, [])) {s id : Text} (h : d <:+: s)
    (hid : id ∈ splitIds list) : id ∈ (stripDirectives s).2 := by
  show id ∈ (cutDirectives s).ids
  fun_induction cutDirectives s with
  | case1 s ids rest hs ih =>
    rw [Cut.ids, Cut.mark, List.map_cons, List.flatMap_cons, List.mem_append]
    obtain ⟨first, hfirst, rfl⟩ := exists_directive_append hs
    rcases eq_or_infix_of_infix_append hd hfirst h with rfl | hrest
    · rw [hd] at hfirst
      cases hfirst
      exact .inl hid
    · exact .inr (ih hrest)
  | case2 h' => exact absurd (List.infix_nil.1 h) (ne_nil_of_directive hd)
  | case3 c rest hnone ih =>
    rcases List.infix_cons_iff.1 h with ⟨after, hafter⟩ | hrest
    · rw [← hafter, directiveAt?_append hd after] at hnone
      cases hnone
    · exact ih hrest

/-! ## The two sides of a line -/

/-- A directive within a line is one that the line begins with, or stands in the rest. -/
theorem infix_lead_or_afterLeading (hd : directiveAt? d = some (list, [])) {s lead : Text}
    (hs : s = lead ++ afterLeading s) (h : d <:+: s) : d <:+: lead ∨ d <:+: afterLeading s := by
  fun_induction afterLeading s generalizing lead with
  | case1 s ids rest hat ih =>
    obtain ⟨first, hfirst, rfl⟩ := exists_directive_append hat
    obtain ⟨more, hmore⟩ := afterLeading_suffix (trimStart rest)
    obtain ⟨front, -, hrest⟩ := exists_blank_append_trimStart rest
    -- the directives are the first one, blanks, and those that the rest begins with
    have hlead : lead = first ++ (front ++ more) := by
      refine (List.append_left_inj (afterLeading (trimStart rest))).1 ?_
      rw [← hs, List.append_assoc, List.append_assoc, hmore, ← hrest]
    rw [hlead]
    rcases eq_or_infix_of_infix_append hd hfirst h with rfl | hlater
    · exact .inl (List.prefix_append d _).isInfix
    · rcases ih hmore.symm ((infix_trimStart_iff (trim_directive hd)).2 hlater) with hin | hin
      · exact .inl (hin.trans ⟨first ++ front, [], by simp⟩)
      · exact .inr hin
  | case2 s hnone => exact .inr h

/-- **The form of a block tag**: its name holds no brace, and its value is what follows, trimmed. -/
theorem exists_append_of_blockTag? {s name value : Text} (h : blockTag? s = some (name, value)) :
    ∃ more, s = '@' :: (name ++ more) ∧ '\x7b' ∉ name ∧ value = trim more := by
  unfold blockTag? at h
  split at h
  · next c rest =>
    split at h
    · next hc =>
      have hbrace : c ≠ '\x7b' := by rintro rfl; cases hc
      have hname : '\x7b' ∉ c :: rest.takeWhile inTagName := by
        rw [List.mem_cons, not_or]
        refine ⟨hbrace.symm, fun hmem => ?_⟩
        exact absurd (List.mem_takeWhile_imp hmem) (by decide)
      have hsplit : '@' :: c :: rest =
          '@' :: ((c :: rest.takeWhile inTagName) ++ rest.dropWhile inTagName) := by
        rw [List.cons_append, List.takeWhile_append_dropWhile]
      split at h
      · next hnil =>
        rw [hnil, List.append_nil] at hsplit
        cases h
        rw [← (List.cons.inj hsplit).2] at hname
        exact ⟨[], by rw [List.append_nil], hname, rfl⟩
      · next blank more hmore =>
        split at h
        · cases h
          exact ⟨blank :: more, by rw [hsplit, hmore], hname, rfl⟩
        · cases h
    · cases h
  · cases h

/-- A directive within a block tag stands in its value. -/
theorem infix_value_of_blockTag? (hd : directiveAt? d = some (list, [])) {s name value : Text}
    (hs : blockTag? s = some (name, value)) (h : d <:+: s) : d <:+: value := by
  obtain ⟨more, rfl, hname, rfl⟩ := exists_append_of_blockTag? hs
  have hfront : '\x7b' ∉ '@' :: name := by
    rw [List.mem_cons, not_or]
    exact ⟨by decide, hname⟩
  rw [infix_trim_iff (trim_directive hd)]
  obtain ⟨e, rfl, -⟩ := exists_cons_of_directive hd
  exact infix_of_infix_append hfront h

namespace Scan

variable {s : Scan} {l : Text}

/-- **A directive within a line** is one of those set apart at its front, or stands in the rest. -/
theorem infix_directives_or_rest (hd : directiveAt? d = some (list, [])) (h : d <:+: l) :
    d <:+: (s.reading l).directives ∨ d <:+: (s.reading l).rest := by
  have htrim : d <:+: trim l := (infix_trim_iff (trim_directive hd)).2 h
  unfold reading
  split
  · exact .inr htrim
  · obtain ⟨lead, hlead⟩ := afterLeading_suffix (trim l)
    have htake : (trim l).take ((trim l).length - (afterLeading (trim l)).length) = lead := by
      have hlength := congrArg List.length hlead
      rw [List.length_append] at hlength
      rw [show (trim l).length - (afterLeading (trim l)).length = lead.length by omega,
        ← List.prefix_iff_eq_take.1 ⟨_, hlead⟩]
    rcases infix_lead_or_afterLeading hd hlead.symm htrim with hin | hin
    · left
      rw [Line.ofText_directives]
      show d <:+: trimEnd ((trim l).take ((trim l).length - (afterLeading (trim l)).length))
      rw [htake]
      exact (infix_trimEnd_iff (trim_directive hd)).2 hin
    · exact .inr hin

/-- A directive within a line that is a tag stands in front of the tag or in its value. -/
theorem infix_directives_or_value (hd : directiveAt? d = some (list, [])) {name value : Text}
    (hkind : (s.reading l).kind = .tag name value) (h : d <:+: l) :
    d <:+: (s.reading l).directives ∨ d <:+: value :=
  (infix_directives_or_rest hd h).imp_right
    (infix_value_of_blockTag? hd (Line.kind_eq_tag_iff.1 hkind))

/-- What is set apart at the front of a line is nothing where the line has no directive. -/
theorem directives_eq_nil_of_free (h : DirectiveFree (trimEnd l)) :
    (s.reading l).directives = [] := by
  unfold reading
  split
  · rfl
  · rw [Line.ofText_eq_whole (h.of_isSuffix (trim_suffix_trimEnd l)).directiveAt?]
    rfl

/-- **A tag without a value** is a line without directives where none stands in front of it. -/
theorem directiveFree_iff_of_tag {name value : Text} (hkind : (s.reading l).kind = .tag name value)
    (hvalue : isBlankText value = true) :
    DirectiveFree (trimEnd l) ↔ (s.reading l).directives = [] := by
  refine ⟨directives_eq_nil_of_free, fun hnil => ?_⟩
  rw [directiveFree_iff_not_isInfix]
  intro d list hd hwithin
  rcases infix_directives_or_value hd hkind (hwithin.trans (trimEnd_isPrefix l).isInfix) with
    hin | hin
  · rw [hnil] at hin
    exact ne_nil_of_directive hd (List.infix_nil.1 hin)
  · exact ne_nil_of_directive hd (eq_nil_of_infix_blank (trim_directive hd) hvalue hin)

end Scan

/-- A directive in front of a tag or in its value stands in its whole value. -/
theorem infix_fullValue (hd : directiveAt? d = some (list, [])) {t : OpenTag}
    (h : d <:+: t.directives ∨ d <:+: t.value) : d <:+: t.fullValue := by
  unfold OpenTag.fullValue
  split
  · next hnil =>
    rw [List.isEmpty_iff.1 hnil] at h
    exact h.resolve_left fun hin => ne_nil_of_directive hd (List.infix_nil.1 hin)
  · rcases h with hin | hin
    · exact hin.trans (List.prefix_append _ _).isInfix
    · exact hin.trans ((List.suffix_cons ' ' _).trans (List.suffix_append _ _)).isInfix

end Directive

/-! ## Prose lines that are put together -/

/-- Blanks at the ends of lines and blank lines do not matter to a trimmed part of a line. -/
theorem exists_infix_lines_proseText_iff {p : Text} (htrim : trim p = p) (hp : p ≠ [])
    {ls : List Text} (hnl : ∀ l ∈ ls, '\n' ∉ l) :
    (∃ m ∈ lines (Scan.proseText ls), p <:+: m) ↔ ∃ l ∈ ls, p <:+: l := by
  have hnot {l : Text} (hblank : isBlankText l = true) : ¬p <:+: l := fun h =>
    hp (eq_nil_of_infix_blank htrim hblank h)
  by_cases hne : ls = []
  · rw [hne, show lines (Scan.proseText []) = [[]] from rfl]
    simp [hp]
  · refine lines_proseText (P := fun ms => (∃ m ∈ ms, p <:+: m) ↔ ∃ l ∈ ls, p <:+: l) hne hnl
      Iff.rfl (fun l ms h => ?_) (fun l ms hblank h => ?_) (fun ms l h => ?_)
      (fun ms l hblank h => ?_)
    · rwa [List.exists_mem_cons_iff, infix_trimStart_iff htrim, ← List.exists_mem_cons_iff]
    · rwa [List.exists_mem_cons_iff, or_iff_right (hnot hblank)] at h
    · simpa [List.mem_append, or_and_right, exists_or, infix_trimEnd_iff htrim] using h
    · simpa [List.mem_append, or_and_right, exists_or, hnot hblank] using h

/-- No line of the text holds the part where none of the prose lines does. -/
theorem forall_not_infix_lines_proseText_iff {p : Text} (htrim : trim p = p) (hp : p ≠ [])
    {ls : List Text} (hnl : ∀ l ∈ ls, '\n' ∉ l) :
    (∀ m ∈ lines (Scan.proseText ls), ¬p <:+: m) ↔ ∀ l ∈ ls, ¬p <:+: l := by
  have hexists := not_congr (exists_infix_lines_proseText_iff htrim hp hnl)
  simpa only [not_exists, not_and] using hexists

/-- **Prose lines that are put together** hold no directive where none of them does. -/
theorem directiveFree_lines_proseText_iff {ls : List Text} (hnl : ∀ l ∈ ls, '\n' ∉ l) :
    (∀ m ∈ lines (Scan.proseText ls), DirectiveFree m) ↔ ∀ l ∈ ls, DirectiveFree l := by
  simp only [directiveFree_iff_not_isInfix]
  have hone {d list : Text} (hd : directiveAt? d = some (list, [])) :=
    forall_not_infix_lines_proseText_iff (trim_directive hd) (ne_nil_of_directive hd) hnl
  exact ⟨fun h l hl d list hd => (hone hd).1 (fun m hm => h m hm d list hd) l hl,
    fun h m hm d list hd => (hone hd).2 (fun l hl => h l hl d list hd) m hm⟩

end ComponentPages
