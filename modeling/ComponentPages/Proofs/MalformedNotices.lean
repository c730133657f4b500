import ComponentPages.Proofs.DirectiveMarks
import ComponentPages.Proofs.TagsLeft

/-!
# Markup that is malformed

Markup that is not understood stays as it is written: what looks like a directive, in the prose or
in the value of a tag, a tag without a value or of another name, and a code block that is not
closed. There is a notice of it every time, and no notice otherwise.

- **`LeavesMarkup`** — the ways in which markup stays, told by what the text is read as.
- **`Scan.unmarked_step_and_iff`**, **`Scan.unmarked_run_and_iff`** — a notice is added by a line,
  and by lines, where something stays of them.
- **`allMalformed_extract`** — no other notice is added.
- **`leavesMarkup_iff`** — markup stays exactly where there is a notice of it, and a block tag that
  stays is shown.
-/

namespace ComponentPages

/-! ## Marks and notices -/

/-- Where two logs begin with a third, one after the other, the last is the first where the one
between is too. -/
theorem eq_iff_of_isPrefix {α : Type} {first next last : List α} (hnext : first <+: next)
    (hlast : next <+: last) : last = first ↔ next = first ∧ last = next := by
  refine ⟨fun h => ?_, fun h => h.2.trans h.1⟩
  subst h
  have heq := hnext.eq_of_length_le hlast.length_le
  exact ⟨heq.symm, heq⟩

namespace Scan

variable {s : Scan} {l : Text} {ls after : List Text}

/-- Nothing that has been found is marked. -/
def Unmarked (s : Scan) : Prop := s.AllShown (fun l => ¬Marked l) ∧ s.tags.Unmarked

theorem unmarked_start : start.Unmarked :=
  ⟨fun l hl => (by cases hl), fun id hid => (by cases hid), fun v hv => (by cases hv)⟩

/-- **Closing a tag** tells of it where it has no value, and where its value is marked. -/
theorem unmarked_closeTag_and_iff :
    s.closeTag.Unmarked ∧ s.HasValue ↔ s.Unmarked ∧ s.closeTag.notices = s.notices := by
  by_cases hopen : ∃ t, s.mode = .tag t
  · obtain ⟨t, hmode⟩ := hopen
    cases hvalue : isBlankText t.value with
    | true =>
      rw [closeTag_of_blank hmode hvalue]
      refine iff_of_false (fun h => ?_) fun h => ?_
      · have hnot := h.2 t hmode
        rw [hvalue] at hnot
        cases hnot
      · exact List.cons_ne_nil _ _ (List.append_right_eq_self.1 h.2)
    | false =>
      have hhas : s.HasValue := fun t' ht => by
        rw [hmode] at ht
        cases ht
        exact hvalue
      rw [closeTag_of_value hmode hvalue, and_iff_left hhas, Unmarked, Unmarked,
        TagSet.unmarked_record_iff, ← and_assoc, List.append_right_eq_self,
        brokenDirectives_eq_nil_iff]
      rfl
  · have hne : ∀ t, s.mode ≠ .tag t := fun t ht => hopen ⟨t, ht⟩
    rw [closeTag_of_ne hne]
    exact and_congr_right fun _ => iff_of_true (fun t ht => absurd ht (hne t)) rfl

/-- **What a line leaves is told**: a notice is added where something is marked then that was not,
or a tag is left in the prose. -/
theorem unmarked_step_and_iff (h : s.OneLined) :
    (s.step l).Unmarked ∧ s.TakesTag l ↔ s.Unmarked ∧ (s.step l).notices = s.notices := by
  have hclose := s.unmarked_closeTag_and_iff
  have hstep := s.step_spec l
  generalize s.step l = s' at hstep ⊢
  cases hstep with
  | code f hmode hopen =>
    exact and_congr_right fun _ => iff_of_true (fun hout => absurd hmode (hout f)) rfl
  | close f hmode hclosed =>
    have hprose := forall_not_marked_lines_proseText_iff h.prose
    refine and_congr ?_ (iff_of_true (fun hout => absurd hmode (hout f)) rfl)
    exact and_congr_left' (allShown_close_iff not_marked_nil hprose f l)
  | fence opening hout hkind =>
    rw [takesTag_iff_of_kind hout (by rw [hkind]; simp) (by rw [hkind]; rfl), ← hclose, Unmarked,
      TagSet.unmarked_addNamed_iff]
    rfl
  | tag key name value hout hkind hkey =>
    rw [takesTag_iff_of_kind hout (by rw [hkind]; simp)
      (by simp [hkind, LineKind.isOtherTag, hkey])]
    exact hclose
  | unknownTag name value hout hkind hkey =>
    refine iff_of_false (fun htakes => ?_) fun htold => ?_
    · have hother := (htakes.2 hout).1
      rw [LineKind.isOtherTag_iff.2 ⟨name, value, hkind, hkey⟩] at hother
      cases hother
    · have hlonger := (notices_isPrefix_closeTag s).length_le
      rw [addProse_notices] at htold
      have hlength := congrArg List.length htold.2
      simp only [List.length_append, List.length_singleton] at hlength
      omega
  | blank hout hkind =>
    rw [takesTag_iff_of_kind hout (by rw [hkind]; simp) (by rw [hkind]; rfl), addBlank_notices,
      ← hclose, Unmarked, addBlank_tags, allShown_addBlank_iff not_marked_nil]
    rfl
  | continued t hmode hkind =>
    rw [← reading_of_tag hmode] at hkind
    exact and_congr_right fun _ => iff_of_true (takesTag_of_plain hkind) rfl
  | prose hmode hkind =>
    rw [← reading_of_prose hmode] at hkind
    rw [and_iff_left (takesTag_of_plain hkind), Unmarked, addProse_tags,
      TagSet.unmarked_addNamed_iff, allShown_addProse_iff not_marked_nil, addProse_notices,
      List.append_right_eq_self, brokenDirectives_eq_nil_iff, shownLine, marked_trimEnd_iff,
      and_right_comm]
    rfl

/-- **What lines leave is told.** -/
theorem unmarked_run_and_iff (h : s.OneLined) (hnl : ∀ l ∈ ls, '\n' ∉ l) :
    (s.run ls).closeTag.Unmarked ∧ s.TakesTags ls ↔
      s.Unmarked ∧ (s.run ls).closeTag.notices = s.notices := by
  induction ls generalizing s with
  | nil => exact unmarked_closeTag_and_iff
  | cons l ls ih =>
    obtain ⟨hl, hls⟩ := List.forall_mem_cons.1 hnl
    have hrest := ih (h.step hl) hls
    have hlater := (notices_isPrefix_run (s.step l) ls).trans (notices_isPrefix_closeTag _)
    have htold := eq_iff_of_isPrefix (notices_isPrefix_step s l) hlater
    calc ((s.step l).run ls).closeTag.Unmarked ∧ s.TakesTag l ∧ (s.step l).TakesTags ls
        ↔ (((s.step l).run ls).closeTag.Unmarked ∧ (s.step l).TakesTags ls) ∧ s.TakesTag l := by
          tauto
      _ ↔ ((s.step l).Unmarked ∧ s.TakesTag l) ∧
            ((s.step l).run ls).closeTag.notices = (s.step l).notices := by
          rw [hrest, and_right_comm]
      _ ↔ s.Unmarked ∧ ((s.step l).run ls).closeTag.notices = s.notices := by
          rw [unmarked_step_and_iff h, and_assoc, htold]

end Scan

/-! ## The notices of a description -/

/-- All notices are of markup that is malformed. -/
def AllMalformed (notices : List Notice) : Prop := ∀ n ∈ notices, n.kind = .malformedDirective

theorem AllMalformed.append {notices notices' : List Notice} (h : AllMalformed notices)
    (h' : AllMalformed notices') : AllMalformed (notices ++ notices') :=
  List.forall_mem_append.2 ⟨h, h'⟩

theorem allMalformed_singleton {n : Notice} (h : n.kind = .malformedDirective) :
    AllMalformed [n] :=
  List.forall_mem_singleton.2 h

theorem allMalformed_brokenDirectives (s : Text) : AllMalformed (brokenDirectives s) := by
  unfold brokenDirectives
  split
  · exact allMalformed_singleton rfl
  · exact fun n hn => (by cases hn)

namespace Scan

variable {s : Scan} {l : Text} {ls : List Text}

/-- Closing a tag adds no notice but of malformed markup. -/
theorem allMalformed_closeTag (h : AllMalformed s.notices) : AllMalformed s.closeTag.notices := by
  unfold closeTag
  split
  · split
    · exact h.append (allMalformed_singleton rfl)
    · exact h.append (allMalformed_brokenDirectives _)
  · exact h

/-- A line adds no notice but of malformed markup. -/
theorem allMalformed_step (h : AllMalformed s.notices) : AllMalformed (s.step l).notices := by
  have hclose := allMalformed_closeTag h
  have hstep := s.step_spec l
  generalize s.step l = s' at hstep ⊢
  cases hstep with
  | code f hmode hopen => exact h
  | close f hmode hclosed => exact h
  | fence opening hout hkind => exact hclose
  | tag key name value hout hkind hkey => exact hclose
  | unknownTag name value hout hkind hkey =>
    exact (hclose.append (allMalformed_singleton rfl)).append (allMalformed_brokenDirectives _)
  | blank hout hkind => rwa [addBlank_notices]
  | continued t hmode hkind => exact h
  | prose hmode hkind => exact h.append (allMalformed_brokenDirectives _)

theorem allMalformed_run (h : AllMalformed s.notices) (ls : List Text) :
    AllMalformed (s.run ls).notices := by
  induction ls generalizing s with
  | nil => exact h
  | cons l ls ih => exact ih (allMalformed_step h)

/-- The end of the text adds no notice but of malformed markup. -/
theorem allMalformed_finish (h : AllMalformed s.notices) : AllMalformed s.finish.notices := by
  rcases s.outside_or_fence with hout | ⟨f, hmode⟩
  · rw [finish_of_outside hout]
    exact allMalformed_closeTag h
  · rw [finish_of_fence hmode]
    exact h.append (allMalformed_singleton rfl)

end Scan

/-- **Every notice of a description** is of markup that is malformed. -/
theorem allMalformed_extract (t : Text) : AllMalformed (extract t).notices :=
  Scan.allMalformed_finish (Scan.allMalformed_run (fun n hn => (by cases hn)) (contentLines t))

/-- A code block is open when all lines of the text are read. -/
def LeavesBlockOpen (t : Text) : Prop := ¬(Scan.start.run (contentLines t)).Outside

/-- **What of a text stays as it is written** though it looks like markup. -/
inductive LeavesMarkup (t : Text) : Prop
  /-- A line that is shown outside the closed code blocks is marked. -/
  | shown {l : Text} (hl : l ∈ (extract t).description.proseLines) (hmarked : Marked l)
  /-- A platform id that is recorded is marked. -/
  | platform {id : Text} (hid : id ∈ (extract t).tags.platform) (hmarked : Marked id)
  /-- The value of a default tag or a type tag is marked. -/
  | value {v : Text} (hv : v ∈ (extract t).tags.values) (hmarked : Marked v)
  /-- A code block is not closed. -/
  | block (hopen : LeavesBlockOpen t)
  /-- A line outside the code blocks that is a block tag stays in the prose. -/
  | tag {before after : List Text} {l name value : Text}
      (hlines : contentLines t = before ++ l :: after) (hout : (Scan.start.run before).Outside)
      (hkind : ((Scan.start.run before).reading l).kind = .tag name value)
      (hleaves : (Scan.start.run before).LeavesTag l after)

/-- Where every code block is closed, no markup stays where nothing that is found is marked, and no
tag is left. -/
theorem not_leavesMarkup_iff {t : Text} (hout : (Scan.start.run (contentLines t)).Outside) :
    ¬LeavesMarkup t ↔ (Scan.start.run (contentLines t)).closeTag.Unmarked ∧
      Scan.start.LeavesNoTag (contentLines t) := by
  have hnl : ∀ l ∈ contentLines t, '\n' ∉ l := fun l hl => newline_not_mem_of_mem_contentLines hl
  have hprose := forall_not_marked_lines_proseText_iff
    (Scan.oneLined_start.run hnl).prose_closeTag
  have hshown := Scan.allShown_iff_description not_marked_nil hprose
  rw [Scan.Unmarked, hshown, ← extract_tags, ← closedDescription, ← description_of_outside hout]
  constructor
  · intro h
    refine ⟨⟨fun l hl hm => h (.shown hl hm), fun id hid hm => h (.platform hid hm),
      fun v hv hm => h (.value hv hm)⟩, ?_⟩
    exact fun before l after name value hlines hbefore hkind hleaves =>
      h (.tag hlines hbefore hkind hleaves)
  · rintro ⟨⟨hlines, hids, hvalues⟩, htags⟩ h
    cases h with
    | shown hl hm => exact hlines _ hl hm
    | platform hid hm => exact hids _ hid hm
    | value hv hm => exact hvalues _ hv hm
    | block hopen => exact hopen hout
    | tag h hbefore hkind hleaves => exact htags _ _ _ _ _ h hbefore hkind hleaves

/-- Where every code block is closed, there is no notice where no markup stays. -/
theorem notices_extract_eq_nil_iff {t : Text}
    (hout : (Scan.start.run (contentLines t)).Outside) :
    (extract t).notices = [] ↔ ¬LeavesMarkup t := by
  have hnl : ∀ l ∈ contentLines t, '\n' ∉ l := fun l hl => newline_not_mem_of_mem_contentLines hl
  have htold := Scan.unmarked_run_and_iff Scan.oneLined_start hnl
  have hopen : Scan.start.ThroughValue (contentLines t) :=
    Scan.throughValue_of_ne fun t' ht => by cases ht
  rw [Scan.takesTags_iff, and_iff_right hopen, and_iff_right Scan.unmarked_start] at htold
  rw [not_leavesMarkup_iff hout, htold, extract, Scan.finish_of_outside hout]
  rfl

/-- **Malformed markup never stays silently**: where something that looks like a directive is shown
or recorded, a code block is left open, or a block tag stays in the prose, there is a notice of
markup that is malformed; and there is none else. A block tag that stays is shown, outside the block
that is left open. -/
theorem leavesMarkup_iff (t : Text) :
    (LeavesMarkup t ↔ ∃ n ∈ (extract t).notices, n.kind = .malformedDirective) ∧
      ∀ {before after : List Text} {l name value : Text},
        contentLines t = before ++ l :: after → (Scan.start.run before).Outside →
        ((Scan.start.run before).reading l).kind = .tag name value →
        (Scan.start.run before).LeavesTag l after →
          ∃ m ∈ (closedDescription t).proseLines, trim (Scan.tagRemainder name l) <:+: m := by
  refine ⟨?_, exists_shown_of_leavesTag⟩
  have hmalformed : (∃ n ∈ (extract t).notices, n.kind = .malformedDirective) ↔
      (extract t).notices ≠ [] := by
    refine ⟨fun ⟨n, hn, _⟩ => List.ne_nil_of_mem hn, fun hne => ?_⟩
    obtain ⟨n, hn⟩ := List.exists_mem_of_ne_nil _ hne
    exact ⟨n, hn, allMalformed_extract t n hn⟩
  rw [hmalformed]
  rcases (Scan.start.run (contentLines t)).outside_or_fence with hout | ⟨f, hmode⟩
  · rw [Ne, notices_extract_eq_nil_iff hout, not_not]
  · refine iff_of_true (.block fun hout => hout f hmode) ?_
    rw [extract, Scan.finish_of_fence hmode]
    exact List.append_ne_nil_of_right_ne_nil _ (List.cons_ne_nil _ _)

/-- A tag of another name stays without its directive, and there is a notice of it. -/
theorem leavesMarkup_iff_otherTag :
    let l := "{@platform ios} @since 0.60".toList
    let after := ["@default 0", "```", "code", "```"].map String.toList
    let t := joinLines ("First.".toList :: l :: after)
    (∃ n ∈ (extract t).notices, n.kind = .malformedDirective) ∧
      ∃ m ∈ (closedDescription t).proseLines, "@since 0.60".toList <:+: m := by
  intro l after t
  have hlines : contentLines t = ["First.".toList] ++ l :: after := by decide +kernel
  have hout : (Scan.start.run ["First.".toList]).Outside :=
    Scan.outside_of_prose (by decide +kernel)
  have hkind : ((Scan.start.run ["First.".toList]).reading l).kind =
      .tag "since".toList "0.60".toList := by decide +kernel
  have hleaves : (Scan.start.run ["First.".toList]).LeavesTag l after :=
    Scan.leavesTag_of_otherTag hout hkind (by decide)
  have hremainder : trim (Scan.tagRemainder "since".toList l) = "@since 0.60".toList := by
    decide +kernel
  have hshown := (leavesMarkup_iff t).2 hlines hout hkind hleaves
  rw [hremainder] at hshown
  exact ⟨(leavesMarkup_iff t).1.1 (.tag hlines hout hkind hleaves), hshown⟩

end ComponentPages
