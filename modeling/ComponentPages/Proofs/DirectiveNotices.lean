import ComponentPages.Proofs.DirectivesTaken

/-!
# Directives that are noticed

A directive that stays is noticed: text that still looks like a directive when all directives are
taken out, and a tag without a value, are both told. A text that is read without such a notice has
its directives taken out.

- **`occurs_iff_infix`** — the search for a part of a text.
- **`Notice.tellsDirective`** — the notices in question.
- **`Scan.notices_isPrefix_step`**, **`Scan.notices_isPrefix_run`** — no notice is taken back.
- **`Scan.leavesNoDirective_of_untold`**, **`takesOutDirectives_of_untold`** — what is not noticed
  does not stay.
-/

namespace ComponentPages

/-! ## Search -/

/-- **A part occurs in a text** where it is a part of it. -/
theorem occurs_iff_infix {part s : Text} : occurs part s = true ↔ part <:+: s := by
  have hfront (s : Text) : (afterPart? part s).isSome = true ↔ part <+: s := by
    rw [Option.isSome_iff_exists]
    constructor
    · rintro ⟨rest, hrest⟩
      exact ⟨rest, (eq_append_of_afterPart? hrest).symm⟩
    · rintro ⟨rest, rfl⟩
      exact ⟨rest, afterPart?_append part rest⟩
  induction s with
  | nil =>
    rw [List.infix_nil, ← List.prefix_nil, ← hfront]
    rfl
  | cons c s ih =>
    rw [List.infix_cons_iff, ← hfront (c :: s), occurs, afterFirst?]
    cases afterPart? part (c :: s) with
    | some rest => simp
    | none => simpa [occurs] using ih

/-- Where nothing looks like a directive, no part holds one. -/
theorem directiveFree_of_brokenDirectives {s p : Text} (h : brokenDirectives s = [])
    (hp : p <:+: s) : DirectiveFree p := by
  refine directiveFree_of_not_infix fun hopening => ?_
  have hoccurs : occurs "\x7b@".toList s = true :=
    occurs_iff_infix.2
      (((List.prefix_append _ "platform".toList).isInfix).trans (hopening.trans hp))
  rw [brokenDirectives, if_pos hoccurs] at h
  cases h

/-! ## Notices that tell of a directive -/

/-- Whether the notice tells of text that looks like a directive, or of a tag without a value. -/
def Notice.tellsDirective : Notice → Bool
  | .brokenDirective _ | .emptyTag _ => true
  | _ => false

/-- No notice tells of a directive. -/
def Untold (notices : List Notice) : Prop := ∀ n ∈ notices, n.tellsDirective = false

/-- The first notices of a log that tells of no directive tell of none. -/
theorem Untold.of_isPrefix {notices notices' : List Notice} (h : Untold notices')
    (hearlier : notices <+: notices') : Untold notices := fun n hn => h n (hearlier.subset hn)

/-- No part of a text of which nothing is told holds a directive. -/
theorem directiveFree_of_untold {s p : Text} (h : Untold (brokenDirectives s)) (hp : p <:+: s) :
    DirectiveFree p := by
  refine directiveFree_of_brokenDirectives ?_ hp
  unfold brokenDirectives at h ⊢
  split
  · rw [if_pos ‹_›] at h
    cases h _ (List.mem_singleton.2 rfl)
  · rfl

namespace Scan

variable {s : Scan} {l : Text}

/-! ## Notices stay -/

theorem notices_isPrefix_closeTag (s : Scan) : s.notices <+: s.closeTag.notices := by
  unfold closeTag
  split
  · split <;> exact List.prefix_append _ _
  · exact List.prefix_refl _

@[simp] theorem addProse_notices (s : Scan) (l : Text) :
    (s.addProse l).notices = s.notices ++ brokenDirectives (stripDirectives (trimEnd l)).1 := rfl

@[simp] theorem addBlank_notices (s : Scan) : s.addBlank.notices = s.notices := by
  unfold addBlank; split <;> rfl

/-- A line outside code blocks that ends the open tag keeps the notices of the tag. -/
theorem notices_closeTag_isPrefix_step (hout : s.Outside) (hkind : (s.reading l).kind ≠ .plain) :
    s.closeTag.notices <+: (s.step l).notices := by
  have hstep := s.step_spec l
  generalize s.step l = s' at hstep ⊢
  cases hstep with
  | code f hmode hopen => exact absurd hmode (hout f)
  | close f hmode hclose => exact absurd hmode (hout f)
  | fence opening hout hkind => exact List.prefix_refl _
  | tag key name value hout hkind hkey => exact List.prefix_refl _
  | unknownTag name value hout hkind hkey =>
    rw [addProse_notices]
    exact (List.prefix_append _ [.unknownTag name]).trans (List.prefix_append _ _)
  | blank hout hkind => simp
  | continued t hmode hplain =>
    rw [reading_of_tag hmode] at hkind
    exact absurd hplain hkind
  | prose hmode hplain =>
    rw [reading_of_prose hmode] at hkind
    exact absurd hplain hkind

/-- **A line takes no notice back.** -/
theorem notices_isPrefix_step (s : Scan) (l : Text) : s.notices <+: (s.step l).notices := by
  have hstep := s.step_spec l
  by_cases hends : s.Outside ∧ (s.reading l).kind ≠ .plain
  · exact (notices_isPrefix_closeTag s).trans (notices_closeTag_isPrefix_step hends.1 hends.2)
  · generalize s.step l = s' at hstep ⊢
    cases hstep with
    | code f hmode hopen => exact List.prefix_refl _
    | close f hmode hclose => exact List.prefix_refl _
    | fence opening hout hkind => exact absurd ⟨hout, by rw [hkind]; simp⟩ hends
    | tag key name value hout hkind hkey => exact absurd ⟨hout, by rw [hkind]; simp⟩ hends
    | unknownTag name value hout hkind hkey => exact absurd ⟨hout, by rw [hkind]; simp⟩ hends
    | blank hout hkind => exact absurd ⟨hout, by rw [hkind]; simp⟩ hends
    | continued t hmode hkind => exact List.prefix_refl _
    | prose hmode hkind => exact List.prefix_append _ _

/-- **Any number of lines take no notice back.** -/
theorem notices_isPrefix_run (s : Scan) (ls : List Text) : s.notices <+: (s.run ls).notices := by
  induction ls generalizing s with
  | nil => exact List.prefix_refl _
  | cons l ls ih => exact (notices_isPrefix_step s l).trans (ih (s.step l))

/-- The end of the text keeps the notices that closing the open tag gives. -/
theorem notices_closeTag_isPrefix_finish (s : Scan) : s.closeTag.notices <+: s.finish.notices := by
  unfold finish
  dsimp only
  split
  · exact List.prefix_append _ _
  · exact List.prefix_refl _

/-! ## What is not noticed -/

/-- What is added to the prose shows no directive where none is told. -/
theorem directiveFree_of_untold_addProse (h : Untold (s.addProse l).notices) :
    DirectiveFree (shownLine l) := by
  have htold : Untold (brokenDirectives (stripDirectives (trimEnd l)).1) := fun n hn =>
    h n (List.mem_append_right _ hn)
  exact directiveFree_of_untold htold (trimEnd_isPrefix _).isInfix

/-- A tag that is closed leaves no directive where none is told. -/
theorem leavesNoDirective_of_untold_closeTag (h : Untold s.closeTag.notices) :
    s.mode.LeavesNoDirective := by
  cases hmode : s.mode with
  | prose => exact trivial
  | fence f => exact trivial
  | tag t =>
    rw [Mode.LeavesNoDirective]
    cases hvalue : isBlankText t.value with
    | true =>
      rw [closeTag_of_blank hmode hvalue] at h
      cases h _ (List.mem_append_right _ (List.mem_singleton.2 rfl))
    | false =>
      rw [closeTag_of_value hmode hvalue] at h
      have htold : Untold (brokenDirectives (stripDirectives t.fullValue).1) := fun n hn =>
        h n (List.mem_append_right _ hn)
      rw [if_neg (by simp)]
      exact fun _ => directiveFree_of_untold htold (trim_isInfix _)

/-- A line that is read as prose shows no directive where none is told. -/
theorem directiveFree_of_untold_step (hreads : s.ReadsProse l) (h : Untold (s.step l).notices) :
    DirectiveFree (shownLine l) := by
  obtain ⟨hout, ⟨hmode, hkind⟩ | ⟨name, value, hkind, hkey⟩⟩ := hreads
  · rw [reading_of_prose hmode] at hkind
    rw [step_of_plain hmode hkind] at h
    exact directiveFree_of_untold_addProse h
  · rw [step_of_unknownTag hout hkind hkey] at h
    exact directiveFree_of_untold_addProse h

/-- **What is not noticed does not stay.** -/
theorem leavesNoDirective_of_untold {ls : List Text} (h : Untold (s.run ls).closeTag.notices) :
    s.LeavesNoDirective ls := by
  induction ls generalizing s with
  | nil => exact leavesNoDirective_of_untold_closeTag h
  | cons l ls ih =>
    have hstep : Untold (s.step l).notices :=
      h.of_isPrefix ((notices_isPrefix_run _ ls).trans (notices_isPrefix_closeTag _))
    refine ⟨fun hreads => directiveFree_of_untold_step hreads hstep, fun hkind => ?_, ih h⟩
    rcases s.outside_or_fence with hout | ⟨f, hmode⟩
    · exact leavesNoDirective_of_untold_closeTag
        (hstep.of_isPrefix (notices_closeTag_isPrefix_step hout hkind))
    · rw [hmode]
      trivial

end Scan

/-- **A text that is read without a notice of a directive** has its directives taken out. -/
theorem takesOutDirectives_of_untold {t : Text} (h : Untold (extract t).notices) :
    TakesOutDirectives t :=
  takesOutDirectives_of_leavesNoDirective (Scan.leavesNoDirective_of_untold
    (h.of_isPrefix (Scan.notices_closeTag_isPrefix_finish _)))

end ComponentPages
