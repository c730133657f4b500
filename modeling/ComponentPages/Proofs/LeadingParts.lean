import ComponentPages.Proofs.DirectiveGaps

/-!
# What a line begins with

The directives at the front of a line are set apart one after another, each where the last one and
the blanks after it end. They are directives of the line like all others, so the line names the
platforms that its two sides name.

- **`MadeOfDirectives`** — directives and blanks, and nothing else;
  **`MadeOfDirectives.ids_append`** says that such a text can be read apart from what follows it.
- **`LeadingPart`** — a line parted into what it begins with and the rest; **`leadingPart_iff`**
  says that there is one way to do so.
- **`leadingEnd?`** — the end of what a line begins with, found by passing the leftmost directive of
  what follows as long as it stands at the front; **`leadingEnd?_eq`** says that this ends, and
  that no slice is out of bounds.
- **`splitLeading_parts`** — the line and its two sides.
-/

namespace ComponentPages

/-! ## Texts made of directives -/

/-- Directives and blanks one after another, and nothing else. -/
inductive MadeOfDirectives : Text → Prop
  | nil : MadeOfDirectives []
  | blank {c : Char} {s : Text} (hc : isBlank c = true) (hs : MadeOfDirectives s) :
    MadeOfDirectives (c :: s)
  | directive {d ids s : Text} (hd : directiveAt? d = some (ids, [])) (hs : MadeOfDirectives s) :
    MadeOfDirectives (d ++ s)

/-- No directive begins at a blank. -/
theorem directiveAt?_cons_of_blank {c : Char} (hc : isBlank c = true) (s : Text) :
    directiveAt? (c :: s) = none :=
  directiveAt?_cons_of_ne (by rintro rfl; cases hc) s

/-- Nothing of a directive is taken for a blank in front of it. -/
theorem trimStart_directive_append {d ids : Text} (hd : directiveAt? d = some (ids, []))
    (s : Text) : trimStart (d ++ s) = d ++ s := by
  obtain ⟨e, rfl, -⟩ := exists_cons_of_directive hd
  exact trimStart_cons_of_not_blank (by rfl) _

/-- A blank in front of a text names nothing. -/
theorem ids_cons_of_blank {c : Char} (hc : isBlank c = true) (s : Text) :
    (stripDirectives (c :: s)).2 = (stripDirectives s).2 := by
  rw [stripDirectives, cutDirectives_of_none (directiveAt?_cons_of_blank hc s)]
  rfl

/-- A directive in front of a text names its platforms first. -/
theorem ids_directive_append {d ids : Text} (hd : directiveAt? d = some (ids, [])) (s : Text) :
    (stripDirectives (d ++ s)).2 = splitIds ids ++ (stripDirectives s).2 := by
  rw [stripDirectives, cutDirectives_of_some (directiveAt?_append hd s), List.nil_append]
  rfl

/-- Blanks in front of a text name nothing. -/
theorem ids_blank_append {s : Text} (h : isBlankText s = true) (t : Text) :
    (stripDirectives (s ++ t)).2 = (stripDirectives t).2 := by
  induction s with
  | nil => rfl
  | cons c s ih =>
    rw [isBlankText_cons, Bool.and_eq_true] at h
    rw [List.cons_append, ids_cons_of_blank h.1, ih h.2]

namespace MadeOfDirectives

/-- A text made of directives and blanks is so with blanks in front. -/
theorem blank_append {s t : Text} (hs : isBlankText s = true) (ht : MadeOfDirectives t) :
    MadeOfDirectives (s ++ t) := by
  induction s with
  | nil => exact ht
  | cons c s ih =>
    rw [isBlankText_cons, Bool.and_eq_true] at hs
    exact .blank hs.1 (ih hs.2)

/-- **The ids of directives at the front of a text come first**, and those of what follows are the
ids that it has by itself: no directive is begun in the one and ended in the other. -/
theorem ids_append {s : Text} (h : MadeOfDirectives s) (t : Text) :
    (stripDirectives (s ++ t)).2 = (stripDirectives s).2 ++ (stripDirectives t).2 := by
  induction h with
  | nil => rw [List.nil_append, stripDirectives_of_free directiveFree_nil, List.nil_append]
  | blank hc _ ih => rw [List.cons_append, ids_cons_of_blank hc, ids_cons_of_blank hc, ih]
  | directive hd _ ih =>
    rw [List.append_assoc, ids_directive_append hd, ids_directive_append hd, ih, List.append_assoc]

/-- A text made of directives and blanks is so without the blanks at its end. -/
protected theorem trimEnd {s : Text} (h : MadeOfDirectives s) :
    MadeOfDirectives (trimEnd s) := by
  induction h with
  | nil => exact .nil
  | @blank c s hc hs ih =>
    cases hblank : isBlankText s with
    | true =>
      rw [trimEnd_eq_nil_iff.2 (by rw [isBlankText_cons, hc, hblank]; rfl)]
      exact .nil
    | false =>
      rw [← List.singleton_append, trimEnd_append _ hblank]
      exact .blank hc ih
  | @directive d ids s hd hs ih =>
    cases hblank : isBlankText s with
    | true =>
      rw [trimEnd_append_of_blank d hblank, (trim_eq_self_iff.1 (trim_directive hd)).2,
        ← List.append_nil d]
      exact .directive hd .nil
    | false =>
      rw [trimEnd_append d hblank]
      exact .directive hd ih

/-- Directives and blanks are passed over, up to a rest that begins with neither. -/
theorem afterLeading_trimStart_append {s rest : Text} (h : MadeOfDirectives s)
    (hrest : directiveAt? rest = none) (htrim : trimStart rest = rest) :
    afterLeading (trimStart (s ++ rest)) = rest := by
  induction h with
  | nil => rw [List.nil_append, htrim, afterLeading_of_none hrest]
  | @blank c s hc hs ih =>
    have hdrop : trimStart (c :: s ++ rest) = trimStart (s ++ rest) :=
      trimStart_append_of_blank (s := [c]) (by rw [isBlankText_cons, hc]; rfl) (s ++ rest)
    rw [hdrop, ih]
  | directive hd hs ih =>
    rw [List.append_assoc, trimStart_directive_append hd, afterLeading_of_directive hd, ih]

end MadeOfDirectives

/-! ## The two sides of a line -/

/-- A line parted into what it begins with and the rest: as many directives as there are, and the
blanks after each. -/
structure LeadingPart (s lead rest : Text) : Prop where
  joined : s = lead ++ rest
  made : MadeOfDirectives lead
  /-- A line that begins with a blank does not begin with a directive. -/
  front : trimStart lead = lead
  noneFollows : directiveAt? rest = none
  /-- The blanks after the last directive are set apart with it. -/
  back : lead = [] ∨ trimStart rest = rest

/-- A line can be parted where the directives at its front end. -/
theorem exists_leadingPart (s : Text) : ∃ lead, LeadingPart s lead (afterLeading s) := by
  fun_induction afterLeading s with
  | case1 s ids rest hat ih =>
    obtain ⟨d, hd, rfl⟩ := exists_directive_append hat
    obtain ⟨blanks, hblanks, hrest⟩ := exists_blank_append_trimStart rest
    obtain ⟨lead, hlead⟩ := ih
    refine ⟨d ++ (blanks ++ lead), ?_, .directive hd (hlead.made.blank_append hblanks),
      trimStart_directive_append hd _, hlead.noneFollows, .inr ?_⟩
    · rw [List.append_assoc, List.append_assoc, ← hlead.joined, ← hrest]
    · -- the rest begins where the blanks or further directives end
      rcases hlead.back with rfl | hback
      · rw [← List.nil_append (afterLeading (trimStart rest)), ← hlead.joined,
          trimStart_trimStart]
      · exact hback
  | case2 s hnone => exact ⟨[], rfl, .nil, rfl, hnone, .inl rfl⟩

/-- **There is one way to part a line.** -/
theorem LeadingPart.rest_eq {s lead rest : Text} (h : LeadingPart s lead rest) :
    rest = afterLeading s := by
  obtain ⟨rfl, hmade, hfront, hnone, hback⟩ := h
  by_cases hlead : lead = []
  · rw [hlead, List.nil_append, afterLeading_of_none hnone]
  · have hblank : isBlankText lead = false := by
      rw [← Bool.not_eq_true, ← trimStart_eq_nil_iff, hfront]
      exact hlead
    have hpast := hmade.afterLeading_trimStart_append hnone (hback.resolve_left hlead)
    rw [trimStart_append hblank, hfront] at hpast
    exact hpast.symm

/-- What a line is split into are its two sides, the first without the blanks at its end. -/
theorem LeadingPart.splitLeading_eq {s lead rest : Text} (h : LeadingPart s lead rest) :
    splitLeading s = (trimEnd lead, rest) := by
  have htake : s.take (s.length - (afterLeading s).length) = lead := by
    rw [← h.rest_eq, h.joined, List.length_append, Nat.add_sub_cancel, List.take_left]
  rw [splitLeading, htake, ← h.rest_eq]

/-- A line names the platforms that its two sides name. -/
theorem LeadingPart.ids_eq {s lead rest : Text} (h : LeadingPart s lead rest) :
    (stripDirectives s).2 = (stripDirectives (trimEnd lead)).2 ++ (stripDirectives rest).2 := by
  obtain ⟨blanks, hblanks, hlead⟩ := exists_trimEnd_append_blank lead
  rw [h.joined]
  nth_rewrite 1 [hlead]
  rw [List.append_assoc, h.made.trimEnd.ids_append, ids_blank_append hblanks]

/-! ## The loop over the leading directives -/

/-- Where what a line begins with ends, from the position `stop` on and in so many steps at most:
the leftmost directive of what follows is passed with the blanks after it, if it stands at the
front. There is no answer where a slice is out of bounds or the steps do not suffice. -/
def leadingEnd? (s : Text) (stop : Nat) : (steps : Nat) → Option Nat
  | 0 => none
  | steps + 1 => do
    match (directiveSpans (← slice? s stop s.length)).head? with
    | none => return stop
    | some f =>
      if f.start ≠ 0 then return stop
      else
        let rest ← slice? s (stop + f.stop) s.length
        leadingEnd? s (stop + f.stop + (rest.length - (trimStart rest).length)) steps

/-- The two sides of a line by that position. -/
def splitLeadingAlong? (s : Text) : Option (Text × Text) := do
  let stop ← leadingEnd? s 0 (s.length + 1)
  return (trimEnd (← slice? s 0 stop), ← slice? s stop s.length)

/-- The leftmost directive of a text that begins with none stands further behind. -/
theorem start_ne_zero_of_head?_directiveSpans {s : Text} (hs : directiveAt? s = none) {f : Span}
    (hf : (directiveSpans s).head? = some f) : f.start ≠ 0 := by
  obtain ⟨front, d, rest, rfl, hd, hstart, -⟩ := mem_directiveSpans_iff.1 (List.mem_of_head? hf)
  rw [hstart, Nat.zero_add]
  intro hzero
  rw [List.length_eq_zero_iff.1 hzero, List.nil_append, directiveAt?_append hd] at hs
  cases hs

/-- **The loop ends**, no slice of it is out of bounds, and it has passed what the line begins
with. -/
theorem leadingEnd?_eq (pre t : Text) {steps : Nat} (hsteps : t.length < steps) :
    leadingEnd? (pre ++ t) pre.length steps =
      some (pre.length + (t.length - (afterLeading t).length)) := by
  have hslice (pre t : Text) : slice? (pre ++ t) pre.length (pre ++ t).length = some t :=
    slice?_end pre t (Nat.zero_le _)
  fun_induction afterLeading t generalizing pre steps with
  | case1 t ids rest hat ih =>
    obtain ⟨d, hd, rfl⟩ := exists_directive_append hat
    obtain ⟨steps, rfl⟩ := Nat.exists_eq_add_one.2 (Nat.zero_lt_of_lt hsteps)
    obtain ⟨blanks, -, hrest⟩ := exists_blank_append_trimStart rest
    have hpos := List.length_pos_of_ne_nil (ne_nil_of_directive hd)
    have hrestlen : rest.length = blanks.length + (trimStart rest).length := by
      rw [← List.length_append, ← hrest]
    have hlast := (afterLeading_suffix (trimStart rest)).length_le
    rw [List.length_append] at hsteps
    -- the directive is the leftmost one, and what follows it is read
    have hspans : (directiveSpans (d ++ rest)).head? = some ⟨0, d.length, ids⟩ := by
      rw [directiveSpans, spansFrom_of_directive hd, List.head?_cons, Nat.zero_add]
    have hafter := hslice (pre ++ d) rest
    have hstop : (pre ++ d).length = pre.length + d.length := List.length_append
    rw [hstop, List.append_assoc] at hafter
    -- the loop goes on behind the blanks
    have henough : (trimStart rest).length < steps := by omega
    have hgo := ih (pre ++ (d ++ blanks)) henough
    have hs : pre ++ (d ++ blanks) ++ trimStart rest = pre ++ (d ++ rest) := by
      rw [List.append_assoc, List.append_assoc, ← hrest]
    have hplace : (pre ++ (d ++ blanks)).length =
        pre.length + d.length + (rest.length - (trimStart rest).length) := by
      rw [List.length_append, List.length_append, hrestlen]
      omega
    rw [hs, hplace] at hgo
    rw [leadingEnd?, hslice]
    simp only [Option.bind_eq_bind, Option.bind_some, hspans, ne_eq, not_true_eq_false, if_false,
      hafter, hgo]
    rw [List.length_append, hrestlen]
    congr 1
    omega
  | case2 t hnone =>
    obtain ⟨steps, rfl⟩ := Nat.exists_eq_add_one.2 (Nat.zero_lt_of_lt hsteps)
    rw [leadingEnd?, hslice]
    simp only [Option.bind_eq_bind, Option.bind_some]
    split
    · rw [Nat.sub_self]; rfl
    · next f hf => rw [if_pos (start_ne_zero_of_head?_directiveSpans hnone hf), Nat.sub_self]; rfl

/-- **The two sides that the loop tells.** -/
theorem splitLeadingAlong?_eq (s : Text) : splitLeadingAlong? s = some (splitLeading s) := by
  obtain ⟨lead, hlead⟩ := exists_leadingPart s
  have hlength : s.length - (afterLeading s).length = lead.length := by
    have h := congrArg List.length hlead.joined
    rw [List.length_append] at h
    omega
  have hend := leadingEnd?_eq [] s (Nat.lt_add_one s.length)
  rw [List.nil_append, List.length_nil, Nat.zero_add, hlength] at hend
  have hfront := slice?_middle [] lead (afterLeading s) (Nat.zero_le _)
  have hback := slice?_end lead (afterLeading s) (Nat.zero_le _)
  rw [Nat.add_zero, List.drop_zero, ← hlead.joined] at hback
  rw [List.nil_append, List.length_nil, Nat.add_zero, Nat.zero_add, List.drop_zero,
    ← hlead.joined] at hfront
  rw [splitLeadingAlong?, hend, hlead.splitLeading_eq]
  simp only [Option.bind_eq_bind, Option.bind_some, hfront, hback]
  rfl

/-! ## The line and its two sides -/

/-- **The directives that a line begins with** are set apart in one way: the line is a text of
directives and blanks and a rest that no directive stands in front of, and the first side is that
text without the blanks at its end. The line names the platforms of its first side and then those
of the rest. The loop that finds them ends, within the line. -/
theorem splitLeading_parts (s : Text) :
    (∃ lead, LeadingPart s lead (splitLeading s).2 ∧ (splitLeading s).1 = trimEnd lead ∧
      ∀ lead' rest', LeadingPart s lead' rest' → lead' = lead ∧ rest' = (splitLeading s).2) ∧
    directiveAt? (splitLeading s).2 = none ∧
    (stripDirectives s).2 =
      (stripDirectives (splitLeading s).1).2 ++ (stripDirectives (splitLeading s).2).2 ∧
    splitLeadingAlong? s = some (splitLeading s) := by
  obtain ⟨lead, hlead⟩ := exists_leadingPart s
  have hsplit := hlead.splitLeading_eq
  refine ⟨⟨lead, ?_, ?_, fun lead' rest' hother => ?_⟩, ?_, ?_, splitLeadingAlong?_eq s⟩
  · rw [hsplit]
    exact hlead
  · rw [hsplit]
  · have hrest := hother.rest_eq
    have hjoined := hlead.joined.symm.trans hother.joined
    rw [hrest] at hjoined
    exact ⟨(List.append_cancel_right hjoined).symm, by rw [hrest, hsplit]⟩
  · rw [hsplit]
    exact hlead.noneFollows
  · rw [hsplit]
    exact hlead.ids_eq

end ComponentPages
