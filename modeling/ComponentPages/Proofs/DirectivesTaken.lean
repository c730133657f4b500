import ComponentPages.Proofs.ClosedDescriptions
import ComponentPages.Proofs.DirectiveRecords
import ComponentPages.Proofs.OpenBlocks

/-!
# Directives that are taken out

What is shown of a description and the values of its tags should hold no directive, and the
platforms of every directive should be recorded. There are two ways in which a directive stays: what
stands around a directive that is taken out may be put together to another one, and a tag without a
value goes back to the prose as it is written, with the directives in front of it.

- **`TakesOutDirectives`** — no directive stays and no platform is missed.
- **`LeavesNoDirective`** — the texts in question, told line by line.
- **`Scan.cleaned_step_iff`**, **`Scan.cleaned_run_iff`** — the invariant.
- **`takesOutDirectives_iff`** — the two are the same.
-/

namespace ComponentPages

/-! ## What is shown outside code blocks -/

/-- The lines of the prose of a description. -/
def Description.proseLines (d : Description) : List Text :=
  lines d.text ++ d.examples.flatMap (fun e => lines e.intro) ++ lines d.footer

/-- The values that are recorded of the tags that are no lists of platforms. -/
def TagSet.values (t : TagSet) : List Text := (t.default ++ t.typeOverrides).map (·.value)

@[simp] theorem TagSet.values_addPlatforms (t : TagSet) (ids : List Text) :
    (t.addPlatforms ids).values = t.values := by
  rw [values, default_addPlatforms, typeOverrides_addPlatforms, values]

/-- A value is recorded besides those that are there, unless it is a list of platforms. -/
theorem TagSet.forall_mem_values_record_iff {P : Text → Prop} {t : TagSet} {key : TagKey}
    {value : Text} :
    (∀ v ∈ (Scan.record t key value).values, P v) ↔
      (∀ v ∈ t.values, P v) ∧ (key ≠ .platform → P (Scan.platformValue value).value) := by
  cases key with
  | platform => simp [Scan.record]
  | default =>
    simp only [values, Scan.record, List.map_append, List.forall_mem_append, List.map_cons,
      List.map_nil, List.forall_mem_singleton]
    simp
    tauto
  | type =>
    simp only [values, Scan.record, List.map_append, List.forall_mem_append, List.map_cons,
      List.map_nil, List.forall_mem_singleton]
    simp
    tauto

/-- **No directive stays and no platform is missed**: neither a line of prose that is shown nor a
value holds a directive, and every platform that a directive names on a line outside the code blocks
is recorded where it belongs. -/
structure TakesOutDirectives (t : Text) : Prop where
  shown : ∀ l ∈ (closedDescription t).proseLines, DirectiveFree l
  values : ∀ v ∈ (extract t).tags.values, DirectiveFree v
  recorded : ∀ before l after, contentLines t = before ++ l :: after →
    (Scan.start.run before).Outside →
    ∀ d list, directiveAt? d = some (list, []) → d <:+: (Scan.start.run before).outsidePart l →
    ∀ id ∈ splitIds list, ((Scan.start.run before).step l).mode.Records after (extract t).tags id

/-! ## Lines that leave no directive -/

/-- When what is open is closed, no directive stays: a tag without a value has none in front of it,
and taking the directives out of a value leaves none. -/
def Mode.LeavesNoDirective : Mode → Prop
  | .tag t =>
    if isBlankText t.value then t.directives = []
    else t.key ≠ .platform → DirectiveFree (Scan.platformValue t.fullValue).value
  | _ => True

/-- No directive stays after the lines: taking the directives out of a line of prose leaves none,
and neither does a tag that is closed. -/
def Scan.LeavesNoDirective (s : Scan) : List Text → Prop
  | [] => s.mode.LeavesNoDirective
  | l :: ls => (s.ReadsProse l → DirectiveFree (shownLine l)) ∧
      ((s.reading l).kind ≠ .plain → s.mode.LeavesNoDirective) ∧
      (s.step l).LeavesNoDirective ls

/-- No directive stays when the text is read. -/
def LeavesNoDirective (t : Text) : Prop := Scan.start.LeavesNoDirective (contentLines t)

instance (m : Mode) : Decidable m.LeavesNoDirective :=
  match m with
  | .tag t => inferInstanceAs (Decidable (if isBlankText t.value then _ else _))
  | .prose => .isTrue trivial
  | .fence _ => .isTrue trivial

/-- Lines can be checked one after another. -/
instance Scan.instDecidableLeavesNoDirective (s : Scan) (ls : List Text) :
    Decidable (s.LeavesNoDirective ls) :=
  match ls with
  | [] => inferInstanceAs (Decidable s.mode.LeavesNoDirective)
  | l :: ls =>
    have := Scan.instDecidableLeavesNoDirective (s.step l) ls
    inferInstanceAs (Decidable (_ ∧ _ ∧ _))

instance (t : Text) : Decidable (LeavesNoDirective t) := Scan.instDecidableLeavesNoDirective _ _

/-! ## Lines without line feeds -/

namespace Scan

/-- The prose and the lines of an open tag are lines, and an open tag without a value is a line
without directives where none stands in front of it. -/
structure OneLined (s : Scan) : Prop where
  prose : ∀ l ∈ s.prose, '\n' ∉ l
  openTag : ∀ t, s.mode = .tag t → (∀ l ∈ t.rawLines, '\n' ∉ l) ∧
    (isBlankText t.value = true → ((∀ l ∈ t.rawLines, DirectiveFree l) ↔ t.directives = []))

theorem oneLined_start : start.OneLined where
  prose l hl := by cases hl
  openTag t ht := by cases ht

variable {s : Scan} {l : Text}

/-- Where no tag is open, only the prose matters. -/
theorem OneLined.of_prose (hprose : ∀ l ∈ s.prose, '\n' ∉ l) (hmode : ∀ t, s.mode ≠ .tag t) :
    s.OneLined :=
  ⟨hprose, fun t ht => absurd ht (hmode t)⟩

/-- The prose after an open tag is closed holds lines. -/
theorem OneLined.prose_closeTag (h : s.OneLined) : ∀ l ∈ s.closeTag.prose, '\n' ∉ l :=
  forall_mem_closeTag h.prose fun t hmode => (h.openTag t hmode).1

/-- **A line without line feeds** adds nothing to what has been found but lines. -/
theorem OneLined.step (h : s.OneLined) (hnl : '\n' ∉ l) : (s.step l).OneLined := by
  have htrim : '\n' ∉ trimEnd l := fun hmem => hnl ((trimEnd_isPrefix l).subset hmem)
  have hshown : '\n' ∉ shownLine l := newline_not_mem_shownLine hnl
  have hstep := s.step_spec l
  generalize s.step l = s' at hstep ⊢
  cases hstep with
  | code f hmode hopen => exact .of_prose h.prose fun t ht => by cases ht
  | close f hmode hclose => exact .of_prose (fun m hm => by cases hm) fun t ht => by cases ht
  | fence opening hout hkind => exact .of_prose h.prose_closeTag fun t ht => by cases ht
  | tag key name value hout hkind hkey =>
    refine ⟨h.prose_closeTag, fun t ht => ?_⟩
    cases ht
    refine ⟨fun m hm => by rw [List.mem_singleton.1 hm]; exact htrim, fun hvalue => ?_⟩
    rw [List.forall_mem_singleton]
    exact directiveFree_iff_of_tag hkind hvalue
  | unknownTag name value hout hkind hkey =>
    refine .of_prose (forall_mem_addProse h.prose_closeTag hshown) fun t ht => ?_
    rw [addProse_mode] at ht
    cases (closeTag_mode hout).symm.trans ht
  | blank hout hkind =>
    refine .of_prose (forall_mem_addBlank h.prose_closeTag List.not_mem_nil) fun t ht => ?_
    rw [addBlank_mode, closeTag_mode hout] at ht
    cases ht
  | continued t hmode hkind =>
    refine ⟨h.prose, fun t' ht => ?_⟩
    cases ht
    refine ⟨fun m hm => ?_, fun hvalue => ?_⟩
    · rcases List.mem_append.1 hm with hm | hm
      · exact (h.openTag t hmode).1 m hm
      · rw [List.mem_singleton.1 hm]
        exact htrim
    · have hblank := OpenTag.isBlankText_continued (t := t) hkind
      rw [show isBlankText (t.continued l).value = true from hvalue] at hblank
      cases hblank
  | prose hmode hkind =>
    refine .of_prose (forall_mem_addProse h.prose hshown) fun t ht => ?_
    rw [addProse_mode, hmode] at ht
    cases ht

/-- **Any number of lines** add nothing to what has been found but lines. -/
theorem OneLined.run (h : s.OneLined) {ls : List Text} (hnl : ∀ l ∈ ls, '\n' ∉ l) :
    (s.run ls).OneLined := by
  induction ls generalizing s with
  | nil => exact h
  | cons l ls ih =>
    exact ih (h.step (hnl l (List.mem_cons_self ..))) fun m hm => hnl m (List.mem_cons_of_mem _ hm)

/-! ## The prose that has been found -/

/-- The lines of prose that have been found. -/
def shownProse (s : Scan) : List Text :=
  s.opening?.toList.flatMap lines ++ s.examples.flatMap (fun e => lines e.intro) ++ s.prose

/-- The property `P` holds of all lines of prose that have been found. -/
def AllShown (P : Text → Prop) (s : Scan) : Prop := ∀ l ∈ s.shownProse, P l

section AllShown

variable {P : Text → Prop}

/-- Where the finished parts stay, only the prose since matters. -/
theorem allShown_iff_of_parts {s' : Scan} (hopening : s'.opening? = s.opening?)
    (hexamples : s'.examples = s.examples) {Q : Prop}
    (hprose : (∀ m ∈ s'.prose, P m) ↔ (∀ m ∈ s.prose, P m) ∧ Q) :
    s'.AllShown P ↔ s.AllShown P ∧ Q := by
  rw [AllShown, AllShown, shownProse, shownProse, hopening, hexamples]
  simp only [List.forall_mem_append]
  rw [hprose, ← and_assoc]

/-- A tag without a value that is closed adds its lines. -/
theorem allShown_closeTag_iff :
    s.closeTag.AllShown P ↔ s.AllShown P ∧
      ∀ t, s.mode = .tag t → isBlankText t.value = true → ∀ l ∈ t.rawLines, P l := by
  refine allShown_iff_of_parts (closeTag_opening? s) (closeTag_examples s) ?_
  cases hmode : s.mode with
  | prose => rw [closeTag_of_prose hmode]; simp
  | fence f =>
    rw [closeTag_of_ne fun t ht => by rw [hmode] at ht; cases ht]
    simp
  | tag t =>
    cases hvalue : isBlankText t.value with
    | true =>
      rw [closeTag_of_blank hmode hvalue, List.forall_mem_append]
      simp [hvalue]
    | false => rw [closeTag_of_value hmode hvalue]; simp [hvalue]

/-- A line of prose adds what is shown of it. -/
theorem allShown_addProse_iff (hnil : P []) :
    (s.addProse l).AllShown P ↔ s.AllShown P ∧ P (shownLine l) := by
  refine allShown_iff_of_parts (addProse_opening? s l) (addProse_examples s l) ?_
  rw [addProse_prose]
  split
  · next hdropped =>
    rw [Bool.and_eq_true] at hdropped
    have hshown : shownLine l = [] := trimEnd_eq_nil_iff.2 hdropped.1
    rw [hshown]
    exact (and_iff_left hnil).symm
  · rw [List.forall_mem_append, List.forall_mem_singleton]
    rfl

/-- A blank line adds nothing else than an empty line. -/
theorem allShown_addBlank_iff (hnil : P []) : s.addBlank.AllShown P ↔ s.AllShown P := by
  rw [← and_iff_left_of_imp (a := s.AllShown P) fun _ => trivial]
  refine allShown_iff_of_parts (addBlank_opening? s) (addBlank_examples s) ?_
  rw [addBlank_prose]
  split
  · exact (and_iff_left trivial).symm
  · rw [List.forall_mem_append, List.forall_mem_singleton]
    exact and_congr_right fun _ => iff_of_true hnil trivial

/-- Closing a code block leaves the lines of prose that have been found as they are. -/
theorem allShown_close_iff (hnil : P [])
    (hprose : (∀ m ∈ lines (proseText s.prose), P m) ↔ ∀ m ∈ s.prose, P m) (f : OpenFence)
    (l : Text) :
    ({ s with
      prose := []
      opening? := some (s.opening?.getD (proseText s.prose))
      examples := s.examples ++ [s.exampleOf f l]
      mode := .prose } : Scan).AllShown P ↔ s.AllShown P := by
  rw [AllShown, AllShown, shownProse, shownProse]
  simp only [List.forall_mem_append]
  rw [← hprose]
  cases hopening : s.opening? with
  | none =>
    have hintro : (s.exampleOf f l).intro = [] := by simp [exampleOf, hopening]
    simp only [List.flatMap_append, List.flatMap_singleton, List.forall_mem_append, hintro,
      Option.getD_none, Option.toList_some, Option.toList_none, List.flatMap_nil, lines_nil,
      List.forall_mem_singleton, hnil]
    tauto
  | some text =>
    have hintro : (s.exampleOf f l).intro = proseText s.prose := by simp [exampleOf, hopening]
    simp only [List.flatMap_append, List.flatMap_singleton, List.forall_mem_append, hintro,
      Option.getD_some, Option.toList_some]
    tauto

/-- What holds of the lines of a description holds of the lines of prose that a scan has found, and
the other way round. -/
theorem allShown_iff_description (hnil : P [])
    (hprose : (∀ m ∈ lines (proseText s.prose), P m) ↔ ∀ m ∈ s.prose, P m) :
    s.AllShown P ↔ ∀ l ∈ s.description.proseLines, P l := by
  rw [AllShown, shownProse, description]
  cases s.opening? with
  | none =>
    simp only [Description.proseLines, List.forall_mem_append, hprose, Option.toList_none,
      List.flatMap_nil, lines_nil, List.forall_mem_singleton, hnil]
    simp [and_comm]
  | some text =>
    simp only [Description.proseLines, List.forall_mem_append, hprose, Option.toList_some,
      List.flatMap_singleton]

end AllShown

/-! ## What has been found holds no directive -/

/-- Nothing that has been found holds a directive. -/
def Cleaned (s : Scan) : Prop :=
  (∀ l ∈ s.shownProse, DirectiveFree l) ∧ ∀ v ∈ s.tags.values, DirectiveFree v

theorem cleaned_start : start.Cleaned :=
  ⟨fun l hl => (by cases hl), fun v hv => (by cases hv)⟩

/-- A line that is neither plain nor a tag of another name is not read as prose. -/
theorem not_readsProse_of_kind (hplain : (s.reading l).kind ≠ .plain)
    (hother : (s.reading l).kind.isOtherTag = false) : ¬s.ReadsProse l := by
  rintro ⟨-, ⟨-, hkind⟩ | hkind⟩
  · exact hplain hkind
  · rw [LineKind.isOtherTag_iff.2 hkind] at hother
    cases hother

/-- Closing a tag leaves no directive where the tag leaves none. -/
theorem cleaned_closeTag_iff (h : s.OneLined) :
    s.closeTag.Cleaned ↔ s.Cleaned ∧ s.mode.LeavesNoDirective := by
  have hshown := allShown_closeTag_iff (s := s) (P := DirectiveFree)
  rw [AllShown, AllShown] at hshown
  rw [Cleaned, hshown]
  cases hmode : s.mode with
  | prose =>
    rw [closeTag_of_prose hmode]
    simp [Cleaned, Mode.LeavesNoDirective]
  | fence f =>
    rw [closeTag_of_ne fun t ht => by rw [hmode] at ht; cases ht]
    simp [Cleaned, Mode.LeavesNoDirective]
  | tag t =>
    rw [Mode.LeavesNoDirective]
    cases hvalue : isBlankText t.value with
    | true =>
      rw [closeTag_of_blank hmode hvalue, if_pos rfl, ← (h.openTag t hmode).2 hvalue, Cleaned]
      simp only [Mode.tag.injEq, forall_eq', hvalue, forall_true_left]
      exact and_right_comm
    | false =>
      rw [closeTag_of_value hmode hvalue, if_neg (by simp), Cleaned,
        TagSet.forall_mem_values_record_iff]
      simp only [Mode.tag.injEq, forall_eq', hvalue, Bool.false_eq_true, false_imp_iff, and_true]
      exact and_assoc.symm

/-- A line of prose leaves no directive where none is shown of it. -/
theorem cleaned_addProse_iff :
    (s.addProse l).Cleaned ↔ s.Cleaned ∧ DirectiveFree (shownLine l) := by
  rw [Cleaned, addProse_tags, TagSet.values_addPlatforms, Cleaned, and_right_comm]
  exact and_congr_left' (allShown_addProse_iff directiveFree_nil)

/-- A blank line leaves none. -/
theorem cleaned_addBlank_iff : s.addBlank.Cleaned ↔ s.Cleaned := by
  rw [Cleaned, addBlank_tags, Cleaned]
  exact and_congr_left' (allShown_addBlank_iff directiveFree_nil)

/-- Closing a code block leaves a directive only where there was one in what had been found. -/
theorem cleaned_close_iff (h : s.OneLined) (f : OpenFence) (l : Text) :
    ({ s with
      prose := []
      opening? := some (s.opening?.getD (proseText s.prose))
      examples := s.examples ++ [s.exampleOf f l]
      mode := .prose } : Scan).Cleaned ↔ s.Cleaned :=
  and_congr_left' (allShown_close_iff directiveFree_nil
    (directiveFree_lines_proseText_iff h.prose) f l)

/-- **A line leaves no directive** where none is shown of it as prose, and none is left when it ends
the open tag. -/
theorem cleaned_step_iff (h : s.OneLined) :
    (s.step l).Cleaned ↔ s.Cleaned ∧ (s.ReadsProse l → DirectiveFree (shownLine l)) ∧
      ((s.reading l).kind ≠ .plain → s.mode.LeavesNoDirective) := by
  have hclose := cleaned_closeTag_iff h
  -- a line that ends the open tag and is no prose
  have hends (hreads : ¬s.ReadsProse l) (hkind : (s.reading l).kind ≠ .plain) :
      s.closeTag.Cleaned ↔ s.Cleaned ∧ (s.ReadsProse l → DirectiveFree (shownLine l)) ∧
        ((s.reading l).kind ≠ .plain → s.mode.LeavesNoDirective) := by
    rw [hclose]
    tauto
  have hstep := s.step_spec l
  generalize s.step l = s' at hstep ⊢
  cases hstep with
  | code f hmode hopen =>
    rw [hmode]
    exact (and_iff_left ⟨fun hreads => absurd hmode (hreads.1 f), fun _ => trivial⟩).symm
  | close f hmode hclosed =>
    rw [cleaned_close_iff h f l, hmode]
    exact (and_iff_left ⟨fun hreads => absurd hmode (hreads.1 f), fun _ => trivial⟩).symm
  | fence opening hout hkind =>
    refine Iff.trans ?_ (hends ?_ (by rw [hkind]; simp))
    · rw [Cleaned, TagSet.values_addPlatforms]
      rfl
    · exact not_readsProse_of_kind (by rw [hkind]; simp) (by rw [hkind]; rfl)
  | tag key name value hout hkind hkey =>
    refine hends ?_ (by rw [hkind]; simp)
    exact not_readsProse_of_kind (by rw [hkind]; simp) (by simp [hkind, LineKind.isOtherTag, hkey])
  | unknownTag name value hout hkind hkey =>
    have hreads : s.ReadsProse l := ⟨hout, .inr ⟨name, value, hkind, hkey⟩⟩
    have hne : (s.reading l).kind ≠ .plain := by rw [hkind]; simp
    rw [cleaned_addProse_iff]
    show s.closeTag.Cleaned ∧ DirectiveFree (shownLine l) ↔ _
    rw [hclose]
    tauto
  | blank hout hkind =>
    rw [cleaned_addBlank_iff]
    refine hends ?_ (by rw [hkind]; simp)
    exact not_readsProse_of_kind (by rw [hkind]; simp) (by rw [hkind]; rfl)
  | continued t hmode hkind =>
    rw [← reading_of_tag hmode] at hkind
    refine (and_iff_left ⟨fun hreads => ?_, fun hne => absurd hkind hne⟩).symm
    rcases hreads.2 with ⟨hprose, -⟩ | ⟨name, value, htag, -⟩
    · cases hprose.symm.trans hmode
    · cases htag.symm.trans hkind
  | prose hmode hkind =>
    rw [← reading_of_prose hmode] at hkind
    have hreads : s.ReadsProse l := ⟨outside_of_prose hmode, .inl ⟨hmode, hkind⟩⟩
    rw [cleaned_addProse_iff]
    tauto

/-- **Any number of lines leave no directive** where none of them does, nor the tag that is open at
their end. -/
theorem cleaned_run_iff {ls : List Text} (h : s.OneLined) (hnl : ∀ l ∈ ls, '\n' ∉ l) :
    (s.run ls).closeTag.Cleaned ↔ s.Cleaned ∧ s.LeavesNoDirective ls := by
  induction ls generalizing s with
  | nil => exact cleaned_closeTag_iff h
  | cons l ls ih =>
    rw [run_cons, ih (h.step (hnl l (List.mem_cons_self ..)))
      fun m hm => hnl m (List.mem_cons_of_mem _ hm), cleaned_step_iff h, LeavesNoDirective,
      and_assoc, and_assoc]

/-- A tag that stays without a value has no directive in front of it. -/
theorem directives_eq_nil_of_through {t : OpenTag} {ls : List Text} (hmode : s.mode = .tag t)
    (h : s.LeavesNoDirective ls) (hvalue : isBlankText (t.through ls).value = true) :
    t.directives = [] := by
  have hclosed (hleaves : s.mode.LeavesNoDirective) (hblank : isBlankText t.value = true) :
      t.directives = [] := by
    rwa [hmode, Mode.LeavesNoDirective, if_pos hblank] at hleaves
  cases ls with
  | nil => exact hclosed h hvalue
  | cons l ls =>
    by_cases hkind : (Line.whole l).kind = .plain
    · rw [OpenTag.through, if_pos hkind] at hvalue
      have hblank := OpenTag.isBlankText_of_through hvalue
      rw [OpenTag.isBlankText_continued hkind] at hblank
      cases hblank
    · rw [OpenTag.through, if_neg hkind] at hvalue
      exact hclosed (h.2.1 (by rw [reading_of_tag hmode]; exact hkind)) hvalue

/-- What holds of all lines holds of the lines after some of them. -/
theorem LeavesNoDirective.of_append {before after : List Text}
    (h : s.LeavesNoDirective (before ++ after)) : (s.run before).LeavesNoDirective after := by
  induction before generalizing s with
  | nil => exact h
  | cons l before ih => exact ih h.2.2

/-- A scan has found no directive where its description shows none and no value holds one. -/
theorem cleaned_iff_description (h : ∀ l ∈ s.prose, '\n' ∉ l) :
    s.Cleaned ↔ (∀ l ∈ s.description.proseLines, DirectiveFree l) ∧
      ∀ v ∈ s.tags.values, DirectiveFree v :=
  and_congr_left' (allShown_iff_description directiveFree_nil
    (directiveFree_lines_proseText_iff h))

end Scan

/-! ## The whole text -/

/-- Neither what is shown nor a value holds a directive where no line leaves one. -/
theorem cleaned_iff (t : Text) :
    LeavesNoDirective t ↔ (∀ l ∈ (closedDescription t).proseLines, DirectiveFree l) ∧
      ∀ v ∈ (extract t).tags.values, DirectiveFree v := by
  have hnl : ∀ l ∈ contentLines t, '\n' ∉ l := fun l hl => newline_not_mem_of_mem_contentLines hl
  have hrun := Scan.oneLined_start.run hnl
  rw [extract_tags, closedDescription, ← Scan.cleaned_iff_description hrun.prose_closeTag,
    Scan.cleaned_run_iff Scan.oneLined_start hnl]
  exact (and_iff_right Scan.cleaned_start).symm

/-- No platform is missed where no line leaves a directive. -/
theorem records_of_leavesNoDirective {t : Text} (h : LeavesNoDirective t) {before after : List Text}
    {l d list id : Text} (hlines : contentLines t = before ++ l :: after)
    (hout : (Scan.start.run before).Outside) (hd : directiveAt? d = some (list, []))
    (hin : d <:+: (Scan.start.run before).outsidePart l) (hid : id ∈ splitIds list) :
    ((Scan.start.run before).step l).mode.Records after (extract t).tags id := by
  refine records_of_line hlines hout hd hin hid fun tag hopen => ?_
  rw [LeavesNoDirective, hlines] at h
  by_contra hblank
  rw [Bool.not_eq_false] at hblank
  -- the directive would stand in a tag that has neither directives nor a value
  have hfull := Scan.infix_fullValue_of_step hd hin hopen
  have hnil := Scan.directives_eq_nil_of_through hopen h.of_append.2.2 hblank
  rw [OpenTag.fullValue, hnil, List.isEmpty_nil, if_pos rfl] at hfull
  exact ne_nil_of_directive hd (eq_nil_of_infix_blank (trim_directive hd)
    (OpenTag.isBlankText_of_through hblank) hfull)

/-- Where no line leaves a directive, none stays and no platform is missed. -/
theorem takesOutDirectives_of_leavesNoDirective {t : Text} (h : LeavesNoDirective t) :
    TakesOutDirectives t := by
  obtain ⟨hshown, hvalues⟩ := (cleaned_iff t).1 h
  exact ⟨hshown, hvalues, fun before l after hlines hout d list hd hin id hid =>
    records_of_leavesNoDirective h hlines hout hd hin hid⟩

/-- **No directive stays and no platform is missed** for the texts in which no line leaves a
directive, and for no other. -/
theorem takesOutDirectives_iff (t : Text) : TakesOutDirectives t ↔ LeavesNoDirective t :=
  ⟨fun h => (cleaned_iff t).2 ⟨h.shown, h.values⟩, takesOutDirectives_of_leavesNoDirective⟩

/-- What stands around a directive that is taken out may be put together to another one. -/
theorem not_takesOutDirectives_nested :
    ¬TakesOutDirectives "{@platform {@platform ios} android} x".toList := fun h =>
  absurd (h.shown "{@platform android} x".toList (by decide +kernel)) (by decide +kernel)

/-- What stands around a directive in the value of a tag may be put together to another one. -/
theorem not_takesOutDirectives_nestedInValue :
    ¬TakesOutDirectives "@default {@platform {@platform ios} android} x".toList :=
  fun h =>
    absurd (h.values "{@platform android} x".toList (by decide +kernel)) (by decide +kernel)

/-- A tag without a value goes back to the prose with the directives in front of it. -/
theorem not_takesOutDirectives_emptyTag :
    ¬TakesOutDirectives "{@platform ios} @default".toList := fun h =>
  absurd (h.shown "{@platform ios} @default".toList (by decide +kernel)) (by decide +kernel)

end ComponentPages
