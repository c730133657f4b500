import ComponentPages.Proofs.DirectivesWithin

/-!
# Where platforms are recorded

The platforms of a directive are for the tag that the directive stands in, and for the description
as a whole where it stands in none. No directive outside the code blocks is missed, but for those in
front of a tag that stays without a value: such a line goes back to the prose as it is written.

- **`Scan.outsidePart`** — what of a line stands outside the code blocks.
- **`OpenTag.through`** — an open tag after the lines that go on with it.
- **`Mode.Records`** — that a platform is recorded where it belongs.
- **`Scan.records_run`** — the platforms of a directive in an open tag.
- **`Scan.records_of_isInfix`**, **`records_of_line`** — those of any directive on a line.
-/

namespace ComponentPages

/-! ## Where a directive belongs -/

/-- The tag with a line that goes on with its value. -/
def OpenTag.continued (t : OpenTag) (l : Text) : OpenTag :=
  { t with value := t.value ++ ' ' :: trim l, rawLines := t.rawLines ++ [trimEnd l] }

/-- The tag after those of the first lines that go on with it. -/
def OpenTag.through (t : OpenTag) : List Text → OpenTag
  | [] => t
  | l :: ls => if (Line.whole l).kind = .plain then (t.continued l).through ls else t

/-- The platform is recorded for a tag that is closed: with its value, or, for a list of platforms
and for a tag without a value, for the description as a whole. -/
def OpenTag.Records (t : OpenTag) (tags : TagSet) (id : Text) : Prop :=
  if isBlankText t.value then Names tags.platform id
  else match t.key with
    | .platform => Names tags.platform id
    | .default => ∃ v ∈ tags.default, v = Scan.platformValue t.fullValue ∧ id ∈ v.platforms
    | .type => ∃ v ∈ tags.typeOverrides, v = Scan.platformValue t.fullValue ∧ id ∈ v.platforms

/-- A platform that is named in the last line is recorded where it belongs: for the tag that is
open after it, when the lines have gone on with it, or for the description as a whole. -/
def Mode.Records (m : Mode) (after : List Text) (tags : TagSet) (id : Text) : Prop :=
  match m with
  | .tag t => (t.through after).Records tags id
  | _ => Names tags.platform id

/-- What of a line stands outside the code blocks: where it opens one, the directives in front. -/
def Scan.outsidePart (s : Scan) (l : Text) : Text :=
  match (s.reading l).kind with
  | .fence _ => (s.reading l).directives
  | _ => l

/-! ## Recorded platforms -/

section Recorded

variable {d list id : Text}

/-- More tags name no platform less. -/
theorem Names.mono {ids ids' : List Text} (h : Names ids id) (hids : ids ⊆ ids') :
    Names ids' id := by
  obtain ⟨known, hknown, heq⟩ := h
  exact ⟨known, hids hknown, heq⟩

/-- What is recorded stays recorded. -/
theorem OpenTag.Records.mono {t : OpenTag} {tags tags' : TagSet} (h : t.Records tags id)
    (hext : tags.Extends tags') : t.Records tags' id := by
  unfold Records at h ⊢
  split at h
  · rw [if_pos ‹_›]
    exact h.mono hext.platform.subset
  · rw [if_neg ‹_›]
    cases hkey : t.key with
    | platform =>
      rw [hkey] at h
      exact h.mono hext.platform.subset
    | default =>
      rw [hkey] at h
      obtain ⟨v, hv, hvalue⟩ := h
      exact ⟨v, hext.default.subset hv, hvalue⟩
    | type =>
      rw [hkey] at h
      obtain ⟨v, hv, hvalue⟩ := h
      exact ⟨v, hext.typeOverrides.subset hv, hvalue⟩

/-- The ids of a list that are added are known then. -/
theorem names_addPlatforms_of_mem {tags : TagSet} {ids : List Text} (hid : id ∈ splitIds list)
    (h : id ∈ ids) : Names (tags.addPlatforms ids).platform id := by
  have htrim := trim_of_mem_splitIds hid
  refine names_addPlatforms.2 (.inr ⟨id, h, ?_, by rw [htrim]⟩)
  rw [htrim]
  exact (mem_splitIds hid).1

/-- **A tag that is recorded has the platforms of the directives in it.** -/
theorem OpenTag.records_record {t : OpenTag} (hd : directiveAt? d = some (list, []))
    (hvalue : isBlankText t.value = false) (hin : d <:+: t.fullValue) (hid : id ∈ splitIds list)
    (tags : TagSet) : t.Records (Scan.record tags t.key t.fullValue) id := by
  have hmem : id ∈ (stripDirectives t.fullValue).2 := mem_ids_of_isInfix hd hin hid
  rw [Records, if_neg (by rw [hvalue]; simp)]
  cases hkey : t.key with
  | platform => exact names_addPlatforms_of_mem hid (List.mem_append_right _ hmem)
  | default => exact ⟨_, List.mem_append_right _ (List.mem_singleton.2 rfl), rfl, hmem⟩
  | type => exact ⟨_, List.mem_append_right _ (List.mem_singleton.2 rfl), rfl, hmem⟩

/-! ## Tags that go on -/

/-- A line that goes on with a tag goes on with its whole value. -/
theorem OpenTag.infix_fullValue_continued {t : OpenTag} (l : Text)
    (h : d <:+: t.fullValue) : d <:+: (t.continued l).fullValue := by
  rw [continued, fullValue_append]
  exact h.trans (List.prefix_append _ _).isInfix

/-- No value is lost while a tag goes on. -/
theorem OpenTag.isBlankText_of_through {t : OpenTag} {ls : List Text}
    (h : isBlankText (t.through ls).value = true) : isBlankText t.value = true := by
  induction ls generalizing t with
  | nil => exact h
  | cons l ls ih =>
    unfold through at h
    split at h
    · have hvalue := ih h
      rw [continued, isBlankText_append, Bool.and_eq_true] at hvalue
      exact hvalue.1
    · exact h

/-- A plain line is a value. -/
theorem OpenTag.isBlankText_continued {t : OpenTag} {l : Text}
    (h : (Line.whole l).kind = .plain) : isBlankText (t.continued l).value = false := by
  have hblank := (Line.kind_eq_plain_iff.1 h).2.2
  rw [Line.whole_raw] at hblank
  rw [continued, isBlankText_append, isBlankText_cons, isBlankText_trim, hblank, Bool.and_false,
    Bool.and_false]

namespace Scan

variable {s : Scan} {l : Text} {t : OpenTag}

/-- A line that does not go on with the open tag records it. -/
theorem extends_closeTag_step (hout : s.Outside) (hkind : (s.reading l).kind ≠ .plain) :
    s.closeTag.tags.Extends (s.step l).tags := by
  have hstep := s.step_spec l
  generalize s.step l = s' at hstep ⊢
  cases hstep with
  | code f hmode hopen => exact absurd hmode (hout f)
  | close f hmode hclose => exact absurd hmode (hout f)
  | fence opening hout hkind => exact TagSet.extends_addPlatforms _ _
  | tag key name value hout hkind hkey => exact .refl _
  | unknownTag name value hout hkind hkey => exact TagSet.extends_addPlatforms _ _
  | blank hout hkind => rw [addBlank_tags]; exact .refl _
  | continued t hmode hplain =>
    rw [reading_of_tag hmode] at hkind
    exact absurd hplain hkind
  | prose hmode hplain =>
    rw [reading_of_prose hmode] at hkind
    exact absurd hplain hkind

/-- When the tag is closed, it has the platforms of the directives in it. -/
theorem records_closeTag (hd : directiveAt? d = some (list, [])) (hmode : s.mode = .tag t)
    (hvalue : isBlankText t.value = false) (hin : d <:+: t.fullValue) (hid : id ∈ splitIds list) :
    t.Records s.closeTag.tags id := by
  rw [closeTag_of_value hmode hvalue]
  exact t.records_record hd hvalue hin hid s.tags

/-- **A tag that goes on for some lines** has the platforms of the directives in it at the end, if
it has a value by then. -/
theorem records_run (hd : directiveAt? d = some (list, [])) {ls : List Text}
    (hmode : s.mode = .tag t) (hvalue : isBlankText (t.through ls).value = false)
    (hin : d <:+: t.fullValue) (hid : id ∈ splitIds list) :
    (t.through ls).Records (s.run ls).closeTag.tags id := by
  induction ls generalizing s t with
  | nil => exact records_closeTag hd hmode hvalue hin hid
  | cons l ls ih =>
    by_cases hkind : (Line.whole l).kind = .plain
    · rw [OpenTag.through, if_pos hkind] at hvalue ⊢
      have hstep : (s.step l).mode = .tag (t.continued l) := by
        rw [step_of_continued hmode hkind]
        rfl
      exact ih hstep hvalue (OpenTag.infix_fullValue_continued l hin)
    · rw [OpenTag.through, if_neg hkind] at hvalue ⊢
      have hclosed := extends_closeTag_step (outside_of_tag hmode)
        (by rw [reading_of_tag hmode]; exact hkind)
      refine (records_closeTag hd hmode hvalue hin hid).mono (hclosed.trans ?_)
      exact (extends_run (s.step l) ls).trans (extends_closeTag _)

/-! ## Directives on a line -/

/-- Platforms that a line names for the whole description are recorded at the end. -/
theorem names_run {ls : List Text} (h : Names s.tags.platform id) :
    Names (s.run ls).closeTag.tags.platform id :=
  h.mono ((extends_run s ls).trans (extends_closeTag _)).platform.subset

/-- A directive on a line after which a tag is open stands in the tag. -/
theorem infix_fullValue_of_step (hd : directiveAt? d = some (list, []))
    (hin : d <:+: s.outsidePart l) (hopen : (s.step l).mode = .tag t) : d <:+: t.fullValue := by
  have hstep := s.step_spec l
  generalize s.step l = s' at hstep hopen
  cases hstep with
  | code f hmode hgoes => cases hopen
  | close f hmode hclose => cases hopen
  | fence opening hout hkind => cases hopen
  | tag key name value hout hkind hkey =>
    rw [outsidePart, hkind] at hin
    cases hopen
    exact infix_fullValue hd (infix_directives_or_value hd hkind hin)
  | unknownTag name value hout hkind hkey =>
    rw [addProse_mode] at hopen
    cases (closeTag_mode hout).symm.trans hopen
  | blank hout hkind =>
    rw [addBlank_mode, closeTag_mode hout] at hopen
    cases hopen
  | continued t' hmode hkind =>
    rw [outsidePart, reading_of_tag hmode, hkind] at hin
    cases hopen
    show d <:+: (t'.continued l).fullValue
    rw [OpenTag.continued, fullValue_append]
    exact ((infix_trim_iff (trim_directive hd)).2 hin).trans
      ((List.suffix_cons ' ' _).trans (List.suffix_append _ _)).isInfix
  | prose hmode hkind =>
    rw [addProse_mode, hmode] at hopen
    cases hopen

/-- A directive on a line after which no tag is open names its platforms for the description. -/
theorem names_of_step (hd : directiveAt? d = some (list, [])) (hout : s.Outside)
    (hin : d <:+: s.outsidePart l) (hid : id ∈ splitIds list)
    (hopen : ∀ t, (s.step l).mode ≠ .tag t) : Names (s.step l).tags.platform id := by
  have htrim := trim_directive hd
  have hstep := s.step_spec l
  generalize s.step l = s' at hstep hopen ⊢
  cases hstep with
  | code f hmode hgoes => exact absurd hmode (hout f)
  | close f hmode hclose => exact absurd hmode (hout f)
  | fence opening hout hkind =>
    rw [outsidePart, hkind] at hin
    exact names_addPlatforms_of_mem hid (mem_ids_of_isInfix hd hin hid)
  | tag key name value hout hkind hkey => exact absurd rfl (hopen _)
  | unknownTag name value hout hkind hkey =>
    rw [outsidePart, hkind] at hin
    have hline : d <:+: trimEnd l := (infix_trimEnd_iff htrim).2 hin
    exact names_addPlatforms_of_mem hid (mem_ids_of_isInfix hd hline hid)
  | blank hout hkind =>
    rw [outsidePart, hkind] at hin
    have hblank := Line.isBlankText_of_kind hkind
    rw [reading_raw] at hblank
    exact absurd (eq_nil_of_infix_blank htrim hblank hin) (ne_nil_of_directive hd)
  | continued t hmode hkind => exact absurd rfl (hopen _)
  | prose hmode hkind =>
    rw [outsidePart, reading_of_prose hmode, hkind] at hin
    have hline : d <:+: trimEnd l := (infix_trimEnd_iff htrim).2 hin
    exact names_addPlatforms_of_mem hid (mem_ids_of_isInfix hd hline hid)

/-- **No directive outside the code blocks is missed**: the platforms of a directive on a line are
recorded where they belong, unless they are for a tag that stays without a value. -/
theorem records_of_isInfix (hd : directiveAt? d = some (list, [])) (hout : s.Outside)
    (hin : d <:+: s.outsidePart l) (hid : id ∈ splitIds list) {after : List Text}
    (hvalue : ∀ t, (s.step l).mode = .tag t → isBlankText (t.through after).value = false) :
    (s.step l).mode.Records after ((s.step l).run after).closeTag.tags id := by
  have hwhole (hopen : ∀ t, (s.step l).mode ≠ .tag t) :
      Names ((s.step l).run after).closeTag.tags.platform id :=
    names_run (names_of_step hd hout hin hid hopen)
  cases hopen : (s.step l).mode with
  | tag t =>
    exact records_run hd hopen (hvalue t hopen) (infix_fullValue_of_step hd hin hopen) hid
  | prose => exact hwhole fun t ht => by cases hopen.symm.trans ht
  | fence f => exact hwhole fun t ht => by cases hopen.symm.trans ht

end Scan

end Recorded

/-- **Which platforms are recorded in any case**: those of the directives outside the code blocks,
unless they are for a tag that stays without a value. -/
theorem records_of_line {t l d list id : Text} {before after : List Text}
    (hlines : contentLines t = before ++ l :: after) (hout : (Scan.start.run before).Outside)
    (hd : directiveAt? d = some (list, [])) (hin : d <:+: (Scan.start.run before).outsidePart l)
    (hid : id ∈ splitIds list)
    (hvalue : ∀ tag, ((Scan.start.run before).step l).mode = .tag tag →
      isBlankText (tag.through after).value = false) :
    ((Scan.start.run before).step l).mode.Records after (extract t).tags id := by
  rw [extract_tags, hlines, Scan.run_append, Scan.run_cons]
  exact Scan.records_of_isInfix hd hout hin hid hvalue

end ComponentPages
