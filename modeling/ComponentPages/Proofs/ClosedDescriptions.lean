import ComponentPages.Proofs.FenceScan

/-!
# Descriptions that leave no code block open

What is shown of a description leaves no code block open where the description itself leaves none
open and no line of its prose turns into an opening line when the directives are taken out of it.

- **`LeavesNoFence`** — the descriptions in question.
- **`leavesNoFence_iff_outside`** — all whose blocks are closed, where they have no directives.
- **`Scan.FencesClosed`**, **`Scan.FencesClosed.run`** — the invariant.
- **`closesFences_description`**, **`closesFences_cleanText`** — what is shown of them.
-/

namespace ComponentPages

/-! ## Descriptions that leave no code block open -/

/-- Whether a line is a tag of another name than the recorded ones. -/
def LineKind.isOtherTag : LineKind → Bool
  | .tag name _ => (TagKey.ofName? name).isNone
  | _ => false

theorem LineKind.isOtherTag_iff {kind : LineKind} :
    kind.isOtherTag = true ↔ ∃ name value, kind = .tag name value ∧ TagKey.ofName? name = none := by
  cases kind <;> simp [isOtherTag]

namespace Scan

/-- No code block is open after the lines, and nothing that is shown of a line of prose opens
one. -/
def LeavesNoFence (s : Scan) : List Text → Prop
  | [] => s.Outside
  | l :: ls => (s.ReadsProse l → OpensNone (shownLine l)) ∧ (s.step l).LeavesNoFence ls

/-- The mode tells whether a code block is open. -/
instance (s : Scan) : Decidable s.Outside :=
  match hmode : s.mode with
  | .prose => .isTrue (outside_of_prose hmode)
  | .tag _ => .isTrue (outside_of_tag hmode)
  | .fence f => .isFalse fun hout => hout f hmode

/-- The kind of a line tells whether it is read as prose. -/
instance (s : Scan) (l : Text) : Decidable (s.ReadsProse l) :=
  decidable_of_iff (s.Outside ∧ ((s.mode = .prose ∧ (s.reading l).kind = .plain) ∨
    (s.reading l).kind.isOtherTag = true)) (by rw [LineKind.isOtherTag_iff, ReadsProse])

/-- Lines can be checked one after another. -/
instance instDecidableLeavesNoFence (s : Scan) (ls : List Text) : Decidable (s.LeavesNoFence ls) :=
  match ls with
  | [] => inferInstanceAs (Decidable s.Outside)
  | l :: ls =>
    have := instDecidableLeavesNoFence (s.step l) ls
    inferInstanceAs (Decidable (_ ∧ _))

/-- A line that is read as something else than an opening line opens nothing, as it is written:
the directives that it may begin with are no marker. -/
theorem opensNone_of_kind {s : Scan} {l : Text}
    (h : ∀ opening, (s.reading l).kind ≠ .fence opening) : OpensNone l := by
  unfold OpensNone
  by_contra hopens
  obtain ⟨opening, hopening⟩ := Option.ne_none_iff_exists'.1 hopens
  have hwhole : s.reading l = Line.whole l := by
    unfold reading
    split
    · rfl
    · exact Line.ofText_eq_whole (directiveAt?_of_fenceOpening? hopening)
  refine h opening ?_
  rw [hwhole, Line.kind_eq_fence_iff]
  exact hopening

/-- A line that is read as prose is no opening line. -/
theorem ReadsProse.opensNone {s : Scan} {l : Text} (h : s.ReadsProse l) : OpensNone l := by
  refine opensNone_of_kind (s := s) fun opening hfence => ?_
  rcases h.2 with ⟨-, hplain⟩ | ⟨name, value, htag, -⟩
  · cases hfence.symm.trans hplain
  · cases hfence.symm.trans htag

/-- No code block is open after the lines. -/
theorem LeavesNoFence.outside {s : Scan} {ls : List Text} (h : s.LeavesNoFence ls) :
    (s.run ls).Outside := by
  induction ls generalizing s with
  | nil => exact h
  | cons l ls ih => exact ih h.2

/-- Without directives a line of prose is shown as it is written. -/
theorem leavesNoFence_of_free {s : Scan} {ls : List Text}
    (hfree : ∀ l ∈ ls, DirectiveFree (trimEnd l)) (hout : (s.run ls).Outside) :
    s.LeavesNoFence ls := by
  induction ls generalizing s with
  | nil => exact hout
  | cons l ls ih =>
    refine ⟨fun hreads => ?_, ih (fun m hm => hfree m (List.mem_cons_of_mem _ hm)) hout⟩
    have hshown : shownLine l = trimEnd l := by
      rw [shownLine, stripDirectives_of_free (hfree l (List.mem_cons_self ..)), trimEnd_trimEnd]
    exact hreads.opensNone.congr (by rw [hshown, trim_trimEnd])

end Scan

/-- No code block is open after a text, and none is opened by what is shown of its prose. -/
def LeavesNoFence (t : Text) : Prop := Scan.start.LeavesNoFence (contentLines t)

instance (t : Text) : Decidable (LeavesNoFence t) := Scan.instDecidableLeavesNoFence _ _

/-- **A text without directives** leaves no code block open where its own blocks are closed. -/
theorem leavesNoFence_iff_outside {t : Text} (h : ¬directiveOpening <:+: t) :
    LeavesNoFence t ↔ (Scan.start.run (contentLines t)).Outside := by
  refine ⟨Scan.LeavesNoFence.outside, Scan.leavesNoFence_of_free fun l hl => ?_⟩
  obtain ⟨k, hk, -, hwithin⟩ := exists_of_mem_contentLines hl
  exact directiveFree_of_not_infix fun hd =>
    h (hd.trans ((trimEnd_isPrefix l).isInfix.trans (hwithin.trans (infix_of_mem_lines hk))))

/-! ## What is shown of them -/

/-- What is open may still be shown: the lines of a tag open nothing, and those of a code block do
not close it. -/
def Mode.FencesClosed : Mode → Prop
  | .prose => True
  | .tag t => ∀ l ∈ t.rawLines, IdleLine l
  | .fence f => OpeningLine f.opening f.firstLine ∧
      ∀ l ∈ f.body, '\n' ∉ l ∧ f.opening.closedBy l = false

namespace Scan

/-- The finished parts close their code blocks, and the prose since opens none. -/
structure FencesClosed (s : Scan) : Prop where
  opening : ∀ text ∈ s.opening?, ClosesFences text
  examples : ∀ e ∈ s.examples, ClosesFences e.intro ∧ ClosesFences e.raw
  prose : ∀ l ∈ s.prose, IdleLine l
  openPart : s.mode.FencesClosed

theorem fencesClosed_start : start.FencesClosed where
  opening text htext := by cases htext
  examples e he := by cases he
  prose l hl := by cases hl
  openPart := trivial

/-- Outside code blocks the finished parts stay, and only the prose and what is open matter. -/
theorem FencesClosed.of_parts {s s' : Scan} (h : s.FencesClosed)
    (hopening : s'.opening? = s.opening?) (hexamples : s'.examples = s.examples)
    (hprose : ∀ l ∈ s'.prose, IdleLine l) (hopen : s'.mode.FencesClosed) : s'.FencesClosed where
  opening := by rw [hopening]; exact h.opening
  examples := by rw [hexamples]; exact h.examples
  prose := hprose
  openPart := hopen

/-- When the open tag is closed, the prose is made of idle lines. -/
theorem FencesClosed.prose_closeTag {s : Scan} (h : s.FencesClosed) :
    ∀ l ∈ s.closeTag.prose, IdleLine l := by
  refine forall_mem_closeTag h.prose fun t hmode => ?_
  have hopen := h.openPart
  rw [hmode] at hopen
  exact hopen

/-- A line without blanks at its end is idle where the line is. -/
theorem idleLine_trimEnd {l : Text} (h : IdleLine l) : IdleLine (trimEnd l) :=
  ⟨fun hmem => h.oneLine ((trimEnd_isPrefix l).subset hmem), h.opensNone.congr (trim_trimEnd l)⟩

/-- The example that a closed code block becomes closes its code blocks. -/
theorem FencesClosed.exampleOf {s : Scan} (h : s.FencesClosed) {f : OpenFence} {l : Text}
    (hnl : '\n' ∉ l) (hmode : s.mode = .fence f) (hclose : f.opening.closedBy l = true) :
    ClosesFences (s.exampleOf f l).intro ∧ ClosesFences (s.exampleOf f l).raw := by
  have hopen := h.openPart
  rw [hmode] at hopen
  obtain ⟨hfirst, hbody⟩ := hopen
  constructor
  · dsimp only [Scan.exampleOf]
    split
    · exact closesFences_proseText h.prose
    · exact closesFences_nil
  · have hlines : lines (s.exampleOf f l).raw = f.firstLine :: f.body ++ [trim l] := by
      refine lines_joinLines (by simp) fun m hm => ?_
      rcases List.mem_append.1 hm with hm | hm
      · rcases List.mem_cons.1 hm with rfl | hm
        · exact hfirst.noNewline
        · exact (hbody m hm).1
      · rw [List.mem_singleton.1 hm]
        exact fun hmem => hnl ((trim_isInfix l).subset hmem)
    rw [ClosesFences, hlines]
    refine fenceAfter_block (by rw [hfirst.trimmed]; exact hfirst.opens)
      (fun m hm => (hbody m hm).2) ?_
    rw [FenceOpening.closedBy, trim_trim]
    exact hclose

/-- **A line leaves the code blocks closed**, unless something that is shown of it as prose opens
one. -/
theorem FencesClosed.step {s : Scan} (h : s.FencesClosed) {l : Text} (hnl : '\n' ∉ l)
    (hprose : s.ReadsProse l → OpensNone (shownLine l)) : (s.step l).FencesClosed := by
  have hshown (hreads : s.ReadsProse l) : IdleLine (shownLine l) :=
    ⟨newline_not_mem_shownLine hnl, hprose hreads⟩
  have hstep := s.step_spec l
  generalize s.step l = s' at hstep ⊢
  cases hstep with
  | code f hmode hopen =>
    refine h.of_parts rfl rfl h.prose ?_
    have hbefore := h.openPart
    rw [hmode] at hbefore
    refine ⟨hbefore.1, fun m hm => ?_⟩
    rcases List.mem_append.1 hm with hm | hm
    · exact hbefore.2 m hm
    · rw [List.mem_singleton.1 hm]
      exact ⟨hnl, hopen⟩
  | close f hmode hclose =>
    refine ⟨fun text htext => ?_, fun e he => ?_, fun m hm => (by cases hm), trivial⟩
    · cases htext
      cases hopening : s.opening? with
      | none => exact closesFences_proseText h.prose
      | some text => exact h.opening text hopening
    · rcases List.mem_append.1 he with he | he
      · exact h.examples e he
      · rw [List.mem_singleton.1 he]
        exact h.exampleOf hnl hmode hclose
  | fence opening hout hkind =>
    exact h.of_parts (closeTag_opening? s) (closeTag_examples s) h.prose_closeTag
      ⟨openingLine_of_reading hnl hkind, fun m hm => by cases hm⟩
  | tag key name value hout hkind hkey =>
    refine h.of_parts (closeTag_opening? s) (closeTag_examples s) h.prose_closeTag fun m hm => ?_
    rw [List.mem_singleton.1 hm]
    exact idleLine_trimEnd
      ⟨hnl, opensNone_of_kind (s := s) fun opening hfence => by rw [hkind] at hfence; cases hfence⟩
  | unknownTag name value hout hkind hkey =>
    refine h.of_parts (closeTag_opening? s) (closeTag_examples s)
      (forall_mem_addProse h.prose_closeTag (hshown ⟨hout, .inr ⟨name, value, hkind, hkey⟩⟩)) ?_
    rw [addProse_mode]
    dsimp only
    rw [closeTag_mode hout]
    trivial
  | blank hout hkind =>
    refine h.of_parts (by simp) (by simp) (forall_mem_addBlank h.prose_closeTag idleLine_nil) ?_
    rw [addBlank_mode, closeTag_mode hout]
    trivial
  | continued t hmode hkind =>
    refine h.of_parts rfl rfl h.prose fun m hm => ?_
    have hbefore := h.openPart
    rw [hmode] at hbefore
    rcases List.mem_append.1 hm with hm | hm
    · exact hbefore m hm
    · rw [List.mem_singleton.1 hm]
      refine idleLine_trimEnd ⟨hnl, opensNone_of_kind (s := s) fun opening hfence => ?_⟩
      rw [reading_of_tag hmode, hkind] at hfence
      cases hfence
  | prose hmode hkind =>
    have hreads : s.ReadsProse l :=
      ⟨outside_of_prose hmode, .inl ⟨hmode, by rw [reading_of_prose hmode]; exact hkind⟩⟩
    refine h.of_parts rfl rfl (forall_mem_addProse h.prose (hshown hreads)) ?_
    rw [addProse_mode, hmode]
    trivial

/-- **Any number of lines leave the code blocks closed**, unless something that is shown of a line
of prose opens one. -/
theorem FencesClosed.run {s : Scan} (h : s.FencesClosed) {ls : List Text}
    (hnl : ∀ l ∈ ls, '\n' ∉ l) (hleaves : s.LeavesNoFence ls) : (s.run ls).FencesClosed := by
  induction ls generalizing s with
  | nil => exact h
  | cons l ls ih =>
    exact ih (h.step (hnl l (List.mem_cons_self ..)) hleaves.1)
      (fun m hm => hnl m (List.mem_cons_of_mem _ hm)) hleaves.2

/-- The end of the text leaves the code blocks closed where none is open. -/
theorem FencesClosed.finish {s : Scan} (h : s.FencesClosed) (hout : s.Outside) :
    s.finish.FencesClosed := by
  rw [finish_of_outside hout]
  refine h.of_parts (closeTag_opening? s) (closeTag_examples s) h.prose_closeTag ?_
  rw [closeTag_mode hout]
  trivial

/-- The parts of a description close their code blocks. -/
theorem FencesClosed.description {s : Scan} (h : s.FencesClosed) :
    ClosesFences s.description.text ∧
      (∀ e ∈ s.description.examples, ClosesFences e.intro ∧ ClosesFences e.raw) ∧
      ClosesFences s.description.footer := by
  unfold Scan.description
  split
  · next text htext =>
    exact ⟨h.opening text htext, h.examples, closesFences_proseText h.prose⟩
  · exact ⟨closesFences_proseText h.prose, h.examples, closesFences_nil⟩

end Scan

/-- **The parts of a description close their code blocks** where the description leaves none
open. -/
theorem closesFences_description {t : Text} (h : LeavesNoFence t) :
    ClosesFences (extract t).description.text ∧
      (∀ e ∈ (extract t).description.examples, ClosesFences e.intro ∧ ClosesFences e.raw) ∧
      ClosesFences (extract t).description.footer := by
  have hrun := Scan.fencesClosed_start.run (fun l hl => newline_not_mem_of_mem_contentLines hl) h
  exact (hrun.finish h.outside).description

/-- A text that closes its code blocks does so as a section of its own. -/
theorem closesFences_of_mem_sectionOf {s p : Text} (h : ClosesFences s) (hp : p ∈ sectionOf s) :
    ClosesFences p := by
  rw [(mem_sectionOf.1 hp).1]
  exact h

/-- The sections of an example close their code blocks where its intro and its block do. -/
theorem closesFences_of_mem_sections {e : Example} (h : ClosesFences e.intro ∧ ClosesFences e.raw)
    {p : Text} (hp : p ∈ e.sections) : ClosesFences p := by
  rcases List.mem_append.1 hp with hp | hp
  · exact closesFences_of_mem_sectionOf h.1 hp
  · rw [List.mem_singleton.1 hp]
    exact h.2

/-- **What is shown of a text closes its code blocks** where the text leaves none open. -/
theorem closesFences_cleanText {t : Text} (h : LeavesNoFence t) :
    ClosesFences (extract t).cleanText := by
  obtain ⟨htext, hexamples, hfooter⟩ := closesFences_description h
  refine closesFences_joinSections fun p hp => ?_
  rcases List.mem_append.1 hp with hp | hp
  · rcases List.mem_append.1 hp with hp | hp
    · exact closesFences_of_mem_sectionOf htext hp
    · obtain ⟨e, he, hp⟩ := List.mem_flatMap.1 hp
      exact closesFences_of_mem_sections (hexamples e he) hp
  · exact closesFences_of_mem_sectionOf hfooter hp

end ComponentPages
