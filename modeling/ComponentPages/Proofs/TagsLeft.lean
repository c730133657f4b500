import ComponentPages.Proofs.TagValues

/-!
# Tags that stay in the prose

A block tag is taken out of the description and recorded. It stays in the prose where its name is
none of the three, and where no value is given to it on its line or on those with which it goes on.

- **`Scan.LeavesTag`** — the tag that a line is stays in the prose.
- **`Scan.leavesTag_iff_of_key`**, **`Scan.leavesTag_of_otherTag`** — where this is so.
- **`Scan.takesTags_iff`** — that no line is such a tag, told line by line.
- **`exists_shown_of_leavesTag`** — what stays of a tag is shown in the end.
-/

namespace ComponentPages

namespace Scan

variable {s : Scan} {l : Text} {ls after : List Text}

/-! ## One tag -/

/-- The lines with which an open tag goes on. -/
def tagLines (s : Scan) (after : List Text) : List Text :=
  match s.mode with
  | .tag _ => after.takeWhile fun l => (Line.whole l).kind = .plain
  | _ => []

theorem tagLines_of_tag {t : OpenTag} (hmode : s.mode = .tag t) (after : List Text) :
    s.tagLines after = after.takeWhile fun l => (Line.whole l).kind = .plain := by
  rw [tagLines, hmode]

theorem tagLines_of_prose (hmode : s.mode = .prose) (after : List Text) :
    s.tagLines after = [] := by
  rw [tagLines, hmode]

/-- The tag that a line is stays in the prose: there is more of it when the line and those with
which the tag goes on are read. -/
def LeavesTag (s : Scan) (l : Text) (after : List Text) : Prop :=
  ((s.step l).run ((s.step l).tagLines after)).closeTag.prose ≠ s.closeTag.prose

/-- The lines with which a tag goes on are all read as such. -/
theorem run_tagLines {t : OpenTag} (hmode : s.mode = .tag t) (after : List Text) :
    s.run (s.tagLines after) = { s with mode := .tag (t.through after) } := by
  rw [tagLines_of_tag hmode]
  induction after generalizing s t with
  | nil => rw [List.takeWhile_nil, run_nil, OpenTag.through, ← hmode]
  | cons l after ih =>
    rw [OpenTag.through]
    by_cases hkind : (Line.whole l).kind = .plain
    · have hstep : s.step l = { s with mode := .tag (t.continued l) } :=
        step_of_continued hmode hkind
      rw [List.takeWhile_cons_of_pos (by simpa using hkind), run_cons, if_pos hkind,
        ih (s := s.step l) (by rw [hstep]), hstep]
    · rw [List.takeWhile_cons_of_neg (by simpa using hkind), run_nil, if_neg hkind, ← hmode]

/-- A tag keeps the lines that it has when it goes on. -/
theorem rawLines_isPrefix_through (t : OpenTag) (after : List Text) :
    t.rawLines <+: (t.through after).rawLines := by
  induction after generalizing t with
  | nil => exact List.prefix_refl _
  | cons l after ih =>
    rw [OpenTag.through]
    split
    · exact (List.prefix_append _ _).trans (ih (t.continued l))
    · exact List.prefix_refl _

/-- An open tag stays in the prose where it has no value in the end. -/
theorem prose_closeTag_tagLines_ne_iff {t : OpenTag} (hmode : s.mode = .tag t)
    (hlines : t.rawLines ≠ []) :
    (s.run (s.tagLines after)).closeTag.prose ≠ s.prose ↔
      isBlankText (t.through after).value = true := by
  rw [run_tagLines hmode]
  cases hvalue : isBlankText (t.through after).value with
  | true =>
    rw [closeTag_of_blank rfl hvalue]
    refine iff_of_true (fun heq => hlines ?_) rfl
    have hnil := List.append_right_eq_self.1 heq
    exact List.prefix_nil.1 (hnil ▸ rawLines_isPrefix_through t after)
  | false =>
    rw [closeTag_of_value rfl hvalue]
    simp

/-- A block tag is not of directives alone. -/
theorem isBlankText_strip_of_tag {name value : Text}
    (hkind : (s.reading l).kind = .tag name value) :
    isBlankText (stripDirectives (trimEnd l)).1 = false := by
  obtain ⟨more, hrest, -, -⟩ := exists_append_of_blockTag? (Line.kind_eq_tag_iff.1 hkind)
  rw [← Bool.not_eq_true, isBlankText_stripDirectives_iff, OnlyDirectives,
    ← trim_eq_trimStart_trimEnd]
  have hleading : afterLeading (trim l) = (s.reading l).rest := by
    unfold reading at hrest ⊢
    split at hrest
    · exact afterLeading_of_none (by
        rw [show trim l = _ from hrest]
        exact directiveAt?_cons_of_ne (by decide) _)
    · rfl
  rw [hleading, hrest]
  exact List.cons_ne_nil _ _

/-- A line that is a tag of one of the three names opens it. -/
theorem mode_step_of_tag (hout : s.Outside) {name value : Text} {key : TagKey}
    (hkind : (s.reading l).kind = .tag name value) (hkey : TagKey.ofName? name = some key) :
    (s.step l).mode = .tag ⟨key, value, (s.reading l).directives, [trimEnd l]⟩ := by
  rw [step_of_tag hout hkind hkey]

/-- A line that is a tag of another name opens nothing. -/
theorem mode_step_of_otherTag (hout : s.Outside) {name value : Text}
    (hkind : (s.reading l).kind = .tag name value) (hkey : TagKey.ofName? name = none) :
    (s.step l).mode = .prose := by
  rw [step_of_unknownTag hout hkind hkey, addProse_mode]
  exact closeTag_mode hout

/-- **A tag of one of the three names** stays in the prose where it has no value in the end. -/
theorem leavesTag_iff_of_key (hout : s.Outside) {name value : Text} {key : TagKey}
    (hkind : (s.reading l).kind = .tag name value) (hkey : TagKey.ofName? name = some key) :
    s.LeavesTag l after ↔ isBlankText
      (OpenTag.through ⟨key, value, (s.reading l).directives, [trimEnd l]⟩ after).value = true := by
  have hprose : (s.step l).prose = s.closeTag.prose := by rw [step_of_tag hout hkind hkey]
  rw [LeavesTag, ← hprose]
  exact prose_closeTag_tagLines_ne_iff (mode_step_of_tag hout hkind hkey) (List.cons_ne_nil _ _)

/-- What is shown of a tag of another name goes behind the prose. -/
theorem prose_tagLines_of_otherTag (hout : s.Outside) {name value : Text}
    (hkind : (s.reading l).kind = .tag name value) (hkey : TagKey.ofName? name = none) :
    ((s.step l).run ((s.step l).tagLines after)).closeTag.prose =
      s.closeTag.prose ++ [shownLine l] := by
  have hmode := mode_step_of_otherTag hout hkind hkey
  rw [tagLines_of_prose hmode, run_nil, closeTag_of_prose hmode,
    step_of_unknownTag hout hkind hkey, addProse_prose, isBlankText_strip_of_tag hkind,
    Bool.false_and, if_neg Bool.false_ne_true]
  rfl

/-- **A tag of another name** stays in the prose. -/
theorem leavesTag_of_otherTag (hout : s.Outside) {name value : Text}
    (hkind : (s.reading l).kind = .tag name value) (hkey : TagKey.ofName? name = none) :
    s.LeavesTag l after := by
  rw [LeavesTag, prose_tagLines_of_otherTag hout hkind hkey]
  simp

/-! ## All tags -/

/-- The open tag, if there is one, has a value. -/
def HasValue (s : Scan) : Prop := ∀ t, s.mode = .tag t → isBlankText t.value = false

/-- The line leaves no tag in the prose: it is no tag of another name, and the open tag has a value
when the line ends it. -/
def TakesTag (s : Scan) (l : Text) : Prop :=
  s.Outside → (s.reading l).kind.isOtherTag = false ∧ ((s.reading l).kind ≠ .plain → s.HasValue)

/-- A line that ends the open tag and is no tag of another name. -/
theorem takesTag_iff_of_kind (hout : s.Outside) (hplain : (s.reading l).kind ≠ .plain)
    (hother : (s.reading l).kind.isOtherTag = false) : s.TakesTag l ↔ s.HasValue :=
  ⟨fun h => (h hout).2 hplain, fun h _ => ⟨hother, fun _ => h⟩⟩

/-- A plain line leaves none. -/
theorem takesTag_of_plain (hkind : (s.reading l).kind = .plain) : s.TakesTag l := fun _ =>
  ⟨by rw [hkind]; rfl, fun hne => absurd hkind hne⟩

/-- The open tag, if there is one, has a value when the lines have gone on with it. -/
def ThroughValue (s : Scan) (ls : List Text) : Prop :=
  ∀ t, s.mode = .tag t → isBlankText (t.through ls).value = false

/-- Where no tag is open there is none to have a value. -/
theorem throughValue_of_ne (h : ∀ t, s.mode ≠ .tag t) : s.ThroughValue ls := fun t ht =>
  absurd ht (h t)

/-- A line that does not go on with the open tag ends it as it is. -/
theorem throughValue_cons_iff_of_kind (hkind : (s.reading l).kind ≠ .plain) :
    s.ThroughValue (l :: ls) ↔ s.HasValue := by
  refine forall₂_congr fun t ht => ?_
  rw [reading_of_tag ht] at hkind
  rw [OpenTag.through, if_neg hkind]

/-- A line that is plain goes on with the open tag, or leaves none open. -/
theorem throughValue_step_iff_of_plain (hout : s.Outside) (hkind : (s.reading l).kind = .plain) :
    (s.step l).ThroughValue ls ↔ s.ThroughValue (l :: ls) := by
  cases hmode : s.mode with
  | prose =>
    rw [reading_of_prose hmode] at hkind
    have hstep : (s.step l).mode = .prose := by rw [step_of_plain hmode hkind, addProse_mode, hmode]
    exact iff_of_true (throughValue_of_ne fun t ht => by rw [hstep] at ht; cases ht)
      (throughValue_of_ne fun t ht => by rw [hmode] at ht; cases ht)
  | tag t =>
    rw [reading_of_tag hmode] at hkind
    have hstep : (s.step l).mode = .tag (t.continued l) := by
      rw [step_of_continued hmode hkind]
      rfl
    simp [ThroughValue, hstep, hmode, OpenTag.through, hkind]
  | fence f => exact absurd hmode (hout f)

/-- A tag of one of the three names does not stay where it has a value in the end. -/
theorem not_leavesTag_iff_of_key (hout : s.Outside) {name value : Text} {key : TagKey}
    (hkind : (s.reading l).kind = .tag name value) (hkey : TagKey.ofName? name = some key) :
    ¬s.LeavesTag l after ↔ (s.step l).ThroughValue after := by
  rw [leavesTag_iff_of_key hout hkind hkey, ThroughValue, mode_step_of_tag hout hkind hkey]
  simp

/-- No line leaves a tag in the prose, and neither does the end of the text. -/
def TakesTags (s : Scan) : List Text → Prop
  | [] => s.HasValue
  | l :: ls => s.TakesTag l ∧ (s.step l).TakesTags ls

/-- No line of these is a tag that stays in the prose. -/
def LeavesNoTag (s : Scan) (ls : List Text) : Prop :=
  ∀ before l after name value, ls = before ++ l :: after → (s.run before).Outside →
    ((s.run before).reading l).kind = .tag name value → ¬(s.run before).LeavesTag l after

theorem leavesNoTag_nil (s : Scan) : s.LeavesNoTag [] := fun before l after _ _ h => by
  cases before <;> cases h

/-- No line is a tag that stays where the first is none, and neither are the others. -/
theorem leavesNoTag_cons_iff :
    s.LeavesNoTag (l :: ls) ↔
      (∀ name value, s.Outside → (s.reading l).kind = .tag name value → ¬s.LeavesTag l ls) ∧
        (s.step l).LeavesNoTag ls := by
  constructor
  · exact fun h => ⟨fun name value => h [] l ls name value rfl, fun before m after name value hls =>
      h (l :: before) m after name value (by rw [hls, List.cons_append])⟩
  · rintro ⟨hfirst, hrest⟩ before m after name value hls
    cases before with
    | nil =>
      obtain ⟨rfl, rfl⟩ := List.cons.inj hls
      exact hfirst name value
    | cons k before =>
      obtain ⟨rfl, htail⟩ := List.cons.inj hls
      exact hrest before m after name value htail

/-- A line that opens no tag and goes on with none leaves the open tag where it has no value. -/
theorem takesTag_and_throughValue_iff_of_ends (hout : s.Outside)
    (hplain : (s.reading l).kind ≠ .plain)
    (htag : ∀ name value, (s.reading l).kind ≠ .tag name value)
    (hnone : ∀ t, (s.step l).mode ≠ .tag t) :
    s.TakesTag l ∧ (s.step l).ThroughValue ls ↔ s.ThroughValue (l :: ls) ∧
      ∀ name value, s.Outside → (s.reading l).kind = .tag name value → ¬s.LeavesTag l ls := by
  have hother : (s.reading l).kind.isOtherTag = false := by
    rw [← Bool.not_eq_true, LineKind.isOtherTag_iff]
    exact fun ⟨name, value, hkind, _⟩ => htag name value hkind
  rw [takesTag_iff_of_kind hout hplain hother, throughValue_cons_iff_of_kind hplain]
  exact and_congr_right fun _ => iff_of_true (throughValue_of_ne hnone)
    fun name value _ hkind => absurd hkind (htag name value)

/-- A line that is a tag leaves the open tag where it has no value, and itself where none is given
to it. -/
theorem takesTag_and_throughValue_iff_of_tag (hout : s.Outside) {name value : Text}
    (hkind : (s.reading l).kind = .tag name value) :
    s.TakesTag l ∧ (s.step l).ThroughValue ls ↔ s.ThroughValue (l :: ls) ∧ ¬s.LeavesTag l ls := by
  have hplain : (s.reading l).kind ≠ .plain := by rw [hkind]; simp
  rw [throughValue_cons_iff_of_kind hplain]
  cases hkey : TagKey.ofName? name with
  | some key =>
    rw [takesTag_iff_of_kind hout hplain (by simp [hkind, LineKind.isOtherTag, hkey]),
      ← not_leavesTag_iff_of_key hout hkind hkey]
  | none =>
    refine iff_of_false (fun h => ?_) fun h => h.2 (leavesTag_of_otherTag hout hkind hkey)
    have hother := (h.1 hout).1
    rw [LineKind.isOtherTag_iff.2 ⟨name, value, hkind, hkey⟩] at hother
    cases hother

/-- The first line leaves no tag, nor the tag that is open after it, where the tag before has a
value and the line is no tag that stays. -/
theorem takesTag_and_throughValue_iff :
    s.TakesTag l ∧ (s.step l).ThroughValue ls ↔ s.ThroughValue (l :: ls) ∧
      ∀ name value, s.Outside → (s.reading l).kind = .tag name value → ¬s.LeavesTag l ls := by
  rcases s.outside_or_fence with hout | ⟨f, hmode⟩
  · have hclosed := closeTag_mode hout
    cases hkind : (s.reading l).kind with
    | plain =>
      rw [and_iff_right (takesTag_of_plain hkind), throughValue_step_iff_of_plain hout hkind]
      simp
    | blank =>
      rw [← hkind]
      refine takesTag_and_throughValue_iff_of_ends hout (by simp [hkind]) (by simp [hkind]) ?_
      rw [step_of_blank hout hkind, addBlank_mode, hclosed]
      simp
    | fence opening =>
      rw [← hkind]
      refine takesTag_and_throughValue_iff_of_ends hout (by simp [hkind]) (by simp [hkind]) ?_
      rw [step_of_opening hout hkind]
      simp
    | tag name value =>
      rw [takesTag_and_throughValue_iff_of_tag hout hkind]
      exact and_congr_right fun _ => ⟨fun h _ _ _ _ => h, fun h => h name value hout rfl⟩
  · -- code blocks hold no tags, and none is open in them
    have hnone : ∀ t, (s.step l).mode ≠ .tag t := by
      rw [step_of_fence hmode, fenceLine]
      split
      · simp
      · simp
    refine iff_of_true ⟨fun hout => absurd hmode (hout f), throughValue_of_ne hnone⟩ ⟨?_, ?_⟩
    · exact throughValue_of_ne (by simp [hmode])
    · exact fun name value hout => absurd hmode (hout f)

/-- **No tag is left in the prose** where no line is one that stays there. -/
theorem takesTags_iff : s.TakesTags ls ↔ s.ThroughValue ls ∧ s.LeavesNoTag ls := by
  induction ls generalizing s with
  | nil => exact (and_iff_left (leavesNoTag_nil s)).symm
  | cons l ls ih =>
    rw [TakesTags, ih, leavesNoTag_cons_iff, ← and_assoc, takesTag_and_throughValue_iff, and_assoc]

/-! ## A tag that stays is shown -/

section Shown

variable {p : Text} (htrim : trim p = p) (hp : p ≠ [])
include htrim hp

/-- A part that is nowhere shown after a line was not shown before it, nor when the line had closed
the open tag. -/
theorem allShown_of_step (h : s.OneLined)
    (hshown : (s.step l).AllShown fun m => ¬p <:+: m) :
    s.AllShown (fun m => ¬p <:+: m) ∧
      (s.Outside → (s.reading l).kind ≠ .plain → s.closeTag.AllShown fun m => ¬p <:+: m) := by
  have hnil : ¬p <:+: [] := fun hinfix => hp (List.infix_nil.1 hinfix)
  -- what is shown after the open tag is closed was shown before
  have hclosed (hclose : s.closeTag.AllShown fun m => ¬p <:+: m) :
      s.AllShown (fun m => ¬p <:+: m) ∧
        (s.Outside → (s.reading l).kind ≠ .plain → s.closeTag.AllShown fun m => ¬p <:+: m) :=
    ⟨(allShown_closeTag_iff.1 hclose).1, fun _ _ => hclose⟩
  have hstep := s.step_spec l
  generalize s.step l = s' at hstep hshown
  cases hstep with
  | code f hmode hopen => exact ⟨hshown, fun hout => absurd hmode (hout f)⟩
  | close f hmode hclosed =>
    have hprose := forall_not_infix_lines_proseText_iff htrim hp h.prose
    exact ⟨(allShown_close_iff hnil hprose f l).1 hshown, fun hout => absurd hmode (hout f)⟩
  | fence opening hout hkind => exact hclosed hshown
  | tag key name value hout hkind hkey => exact hclosed hshown
  | unknownTag name value hout hkind hkey =>
    exact hclosed ((allShown_addProse_iff hnil).1 hshown).1
  | blank hout hkind => exact hclosed ((allShown_addBlank_iff hnil).1 hshown)
  | continued t hmode hkind =>
    exact ⟨hshown, fun _ hplain => absurd hkind (by rwa [reading_of_tag hmode] at hplain)⟩
  | prose hmode hkind =>
    exact ⟨((allShown_addProse_iff hnil).1 hshown).1, fun _ hplain =>
      absurd hkind (by rwa [reading_of_prose hmode] at hplain)⟩

/-- A part that is nowhere shown after some lines was not shown before them. -/
theorem allShown_of_run (h : s.OneLined) (hnl : ∀ l ∈ ls, '\n' ∉ l)
    (hshown : (s.run ls).closeTag.AllShown fun m => ¬p <:+: m) :
    s.AllShown fun m => ¬p <:+: m := by
  induction ls generalizing s with
  | nil => exact (allShown_closeTag_iff.1 hshown).1
  | cons l ls ih =>
    obtain ⟨hl, hls⟩ := List.forall_mem_cons.1 hnl
    exact (allShown_of_step htrim hp h (ih (h.step hl) hls hshown)).1

/-- A part that is nowhere shown after some lines was not shown when those were read with which an
open tag goes on. -/
theorem allShown_tagLines_of_run (h : s.OneLined) (hout : s.Outside) (hnl : ∀ l ∈ ls, '\n' ∉ l)
    (hshown : (s.run ls).closeTag.AllShown fun m => ¬p <:+: m) :
    (s.run (s.tagLines ls)).closeTag.AllShown fun m => ¬p <:+: m := by
  cases hmode : s.mode with
  | fence f => exact absurd hmode (hout f)
  | prose =>
    rw [tagLines_of_prose hmode, run_nil, closeTag_of_prose hmode]
    exact allShown_of_run htrim hp h hnl hshown
  | tag t =>
    rw [tagLines_of_tag hmode]
    induction ls generalizing s t with
    | nil => exact hshown
    | cons l ls ih =>
      obtain ⟨hl, hls⟩ := List.forall_mem_cons.1 hnl
      have hstep := h.step hl
      by_cases hkind : (Line.whole l).kind = .plain
      · have hnext : (s.step l).mode = .tag (t.continued l) := by
          rw [step_of_continued hmode hkind]
          rfl
        rw [List.takeWhile_cons_of_pos (by simpa using hkind)]
        exact ih hstep (outside_of_tag hnext) hls hshown _ hnext
      · have hplain : (s.reading l).kind ≠ .plain := by rwa [reading_of_tag hmode]
        rw [List.takeWhile_cons_of_neg (by simpa using hkind)]
        have hlater := allShown_of_run htrim hp hstep hls hshown
        exact (allShown_of_step htrim hp h hlater).2 hout hplain

end Shown

/-- What stays of a line that is a tag: the line as it is written for one of the three names, and
for another name the line without its directives. -/
def tagRemainder (name l : Text) : Text :=
  if (TagKey.ofName? name).isSome then trimEnd l else shownLine l

/-- What stays of a line that is a tag is not blank. -/
theorem isBlankText_tagRemainder {name value : Text}
    (hkind : (s.reading l).kind = .tag name value) : isBlankText (tagRemainder name l) = false := by
  have hstrip := isBlankText_strip_of_tag hkind
  rw [tagRemainder]
  split
  · obtain ⟨more, hrest, -, -⟩ := exists_append_of_blockTag? (Line.kind_eq_tag_iff.1 hkind)
    rw [isBlankText_trimEnd, ← Bool.not_eq_true, ← trim_eq_nil_iff]
    intro hnil
    have hsuffix := s.reading_rest_isSuffix l
    rw [hnil, hrest] at hsuffix
    cases List.suffix_nil.1 hsuffix
  · rwa [shownLine, isBlankText_trimEnd]

/-- A tag is read outside code blocks. -/
theorem outside_step_of_tag (hout : s.Outside) {name value : Text}
    (hkind : (s.reading l).kind = .tag name value) : (s.step l).Outside := by
  cases hkey : TagKey.ofName? name with
  | some key => exact outside_of_tag (mode_step_of_tag hout hkind hkey)
  | none => exact outside_of_prose (mode_step_of_otherTag hout hkind hkey)

/-- A tag that stays is in the prose when the lines are read with which it goes on. -/
theorem mem_prose_of_leavesTag (hout : s.Outside) {name value : Text}
    (hkind : (s.reading l).kind = .tag name value) (hleaves : s.LeavesTag l ls) :
    tagRemainder name l ∈ ((s.step l).run ((s.step l).tagLines ls)).closeTag.prose := by
  rw [tagRemainder]
  cases hkey : TagKey.ofName? name with
  | some key =>
    have hvalue := (leavesTag_iff_of_key hout hkind hkey).1 hleaves
    rw [run_tagLines (mode_step_of_tag hout hkind hkey), closeTag_of_blank rfl hvalue]
    exact List.mem_append_right _
      ((rawLines_isPrefix_through _ ls).subset (List.mem_singleton_self _))
  | none =>
    rw [prose_tagLines_of_otherTag hout hkind hkey]
    exact List.mem_append_right _ (List.mem_singleton_self _)

end Scan

/-- **A tag that stays is shown**: a line of prose that is shown holds what stays of it. -/
theorem exists_shown_of_leavesTag {t l name value : Text} {before after : List Text}
    (hlines : contentLines t = before ++ l :: after) (hout : (Scan.start.run before).Outside)
    (hkind : ((Scan.start.run before).reading l).kind = .tag name value)
    (hleaves : (Scan.start.run before).LeavesTag l after) :
    ∃ m ∈ (closedDescription t).proseLines, trim (Scan.tagRemainder name l) <:+: m := by
  have hnl : ∀ m ∈ before ++ l :: after, '\n' ∉ m := fun m hm =>
    newline_not_mem_of_mem_contentLines (by rwa [hlines])
  obtain ⟨hbefore, hrest⟩ := List.forall_mem_append.1 hnl
  obtain ⟨hl, hafter⟩ := List.forall_mem_cons.1 hrest
  have hone := (Scan.oneLined_start.run hbefore).step hl
  have hstays := Scan.isBlankText_tagRemainder hkind
  have htrim := trim_trim (Scan.tagRemainder name l)
  have hp : trim (Scan.tagRemainder name l) ≠ [] := fun hnil => by
    rw [trim_eq_nil_iff.1 hnil] at hstays
    cases hstays
  -- what is nowhere shown in the end was not shown when the tag was closed
  by_contra hnone
  push Not at hnone
  have hend : (Scan.start.run (contentLines t)).closeTag.AllShown fun m =>
      ¬trim (Scan.tagRemainder name l) <:+: m :=
    (Scan.allShown_iff_description (fun hinfix => hp (List.infix_nil.1 hinfix))
      (forall_not_infix_lines_proseText_iff htrim hp
        (Scan.oneLined_start.run (hlines ▸ hnl)).prose_closeTag)).2 hnone
  rw [hlines, Scan.run_append, Scan.run_cons] at hend
  have hclosed := Scan.allShown_tagLines_of_run htrim hp hone (Scan.outside_step_of_tag hout hkind)
    hafter hend
  exact hclosed _ (List.mem_append_right _ (Scan.mem_prose_of_leavesTag hout hkind hleaves))
    (trim_isInfix _)

end ComponentPages
