import ComponentPages.Proofs.Gains
import ComponentPages.Proofs.Insertion

/-!
# Directives in front of lines

A directive is put in front of a line that opens a code block or is a tag with a value, where no tag
is open. The two texts are read side by side: they give the same description and the same tags, and
the platforms of the directive are gained where they belong.

- **`LineKind.Takes`** — what the platforms of a directive in front of a line are for.
- **`Scan.Alike`**, **`Scan.AlikeInTag`** — two scans that differ in what was gained, or that will
  differ when the open tag is closed.
- **`Scan.Alike.step`**, **`Scan.AlikeInTag.step`** — one more line.
- **`extract_withDirective`** — the whole text.
-/

namespace ComponentPages

/-- A directive in front of a line that opens a code block is for the whole description, and in
front of a tag with a value it is for the tag. -/
inductive LineKind.Takes : LineKind → Option TagKey → Prop
  | fence (opening : FenceOpening) : Takes (.fence opening) none
  | tag {name value : Text} {key : TagKey} (hkey : TagKey.ofName? name = some key)
      (hvalue : value ≠ []) : Takes (.tag name value) (some key)

/-- A line that opens a code block or is a tag with a value is not blank. -/
theorem LineKind.Takes.not_blank {l : Text} {key? : Option TagKey}
    (h : (Line.ofText l).kind.Takes key?) : isBlankText l = false := by
  by_contra hblank
  rw [Bool.not_eq_false] at hblank
  rw [Line.kind_ofText_of_blank hblank] at h
  cases h

/-! ## The line with the directive -/

section Line

variable {d list : Text}

/-- The directives that a line begins with have no blanks in front. -/
theorem trimStart_directives (l : Text) :
    trimStart (splitLeading (trim l)).1 = (splitLeading (trim l)).1 :=
  trimStart_eq_self_of_isPrefix ((trimEnd_isPrefix _).trans (List.take_prefix _ _))
    (trimStart_trim l)

/-- Directives that are not empty are not blank. -/
theorem isBlankText_directives {l : Text} (h : (splitLeading (trim l)).1 ≠ []) :
    isBlankText (splitLeading (trim l)).1 = false := by
  rw [← Bool.not_eq_true, ← trimStart_eq_nil_iff, trimStart_directives]
  exact h

/-- A directive that stands alone names its platforms. -/
theorem stripDirectives_alone (hd : directiveAt? d = some (list, [])) :
    (stripDirectives d).2 = splitIds list := by
  rw [stripDirectives, cutDirectives_of_some hd, cutDirectives_nil]
  simp [Cut.ids, Cut.mark]

/-- The directives of the line with one more in front of them. -/
def leadDirectives (d directives : Text) : Text :=
  if directives.isEmpty then d else d ++ ' ' :: directives

/-- **The line with the directive** differs from the line in its directives alone. -/
theorem ofText_leadWith (hd : directiveAt? d = some (list, [])) {l : Text}
    (hl : isBlankText l = false) :
    Line.ofText (leadWith d l) =
      ⟨leadWith d l, leadDirectives d (Line.ofText l).directives, (Line.ofText l).rest⟩ := by
  have hdirectives := directives_leading hd (trimStart_trim l)
  have hrest : (splitLeading (d ++ ' ' :: trim l)).2 = afterLeading (trim l) :=
    afterLeading_leading hd (trimStart_trim l)
  simp only [Line.ofText, trim_leadWith hd hl]
  rw [← hrest.symm]
  exact congrArg (fun x => Line.mk (leadWith d l) x _) hdirectives

/-- The directives name the platforms of the one in front first. -/
theorem ids_leadDirectives (hd : directiveAt? d = some (list, [])) (l : Text) :
    (stripDirectives (leadDirectives d (Line.ofText l).directives)).2 =
      splitIds list ++ (stripDirectives (Line.ofText l).directives).2 := by
  unfold leadDirectives
  split
  · next hnil =>
    rw [List.isEmpty_iff.1 hnil, stripDirectives_alone hd,
      stripDirectives_of_free directiveFree_nil, List.append_nil]
  · rw [Line.ofText_directives, stripDirectives_leading hd (trimStart_directives l)]

/-- The whole value of a tag has the directive in front. -/
theorem fullValue_leadDirectives (d directives value : Text) (key : TagKey)
    (raw raw' : List Text) (hd : d ≠ []) :
    OpenTag.fullValue ⟨key, value, leadDirectives d directives, raw'⟩ =
      d ++ ' ' :: OpenTag.fullValue ⟨key, value, directives, raw⟩ := by
  have hlead : (leadDirectives d directives).isEmpty = false := by
    unfold leadDirectives
    split <;> simp [hd]
  rw [OpenTag.fullValue, OpenTag.fullValue, hlead, if_neg Bool.false_ne_true]
  unfold leadDirectives
  dsimp only
  split
  · rfl
  · rw [List.append_assoc, List.cons_append]

/-- A line that goes on with a tag goes on with its whole value. -/
theorem fullValue_append (t : OpenTag) (more : Text) (raw : List Text) :
    OpenTag.fullValue { t with value := t.value ++ more, rawLines := raw } =
      t.fullValue ++ more := by
  unfold OpenTag.fullValue
  dsimp only
  split
  · rfl
  · rw [List.append_assoc, List.cons_append]

end Line

namespace Scan

variable {ids : List Text} {key? : Option TagKey} {found : TagSet} {s s' : Scan}

/-! ## Scans that differ in what was gained -/

/-- Two scans that have found the same and are in the same place, but for platforms gained since the
tags of `found`. -/
structure Alike (ids : List Text) (key? : Option TagKey) (found : TagSet) (s s' : Scan) :
    Prop where
  prose : s'.prose = s.prose
  opening : s'.opening? = s.opening?
  examples : s'.examples = s.examples
  mode : s'.mode = s.mode
  tags : TagSet.Gains ids key? found s.tags s'.tags

/-- Closing the open tag leaves scans alike. -/
theorem Alike.closeTag (h : Alike ids key? found s s') :
    Alike ids key? found s.closeTag s'.closeTag := by
  cases hmode : s.mode with
  | prose => rwa [closeTag_of_prose hmode, closeTag_of_prose (h.mode.trans hmode)]
  | fence f =>
    have hne {r : Scan} (hr : r.mode = .fence f) : ∀ t, r.mode ≠ .tag t := fun t ht => by
      rw [hr] at ht; cases ht
    rwa [closeTag_of_ne (hne hmode), closeTag_of_ne (hne (h.mode.trans hmode))]
  | tag t =>
    cases hv : isBlankText t.value with
    | true =>
      rw [closeTag_of_blank hmode hv, closeTag_of_blank (h.mode.trans hmode) hv]
      exact ⟨congrArg (· ++ t.rawLines) h.prose, h.opening, h.examples, rfl, h.tags⟩
    | false =>
      rw [closeTag_of_value hmode hv, closeTag_of_value (h.mode.trans hmode) hv]
      exact ⟨h.prose, h.opening, h.examples, rfl, h.tags.record _ _⟩

/-- Adding a line of prose leaves scans alike. -/
theorem Alike.addProse (h : Alike ids key? found s s') (l : Text) :
    Alike ids key? found (s.addProse l) (s'.addProse l) where
  prose := by rw [addProse_prose, addProse_prose, h.prose]
  opening := h.opening
  examples := h.examples
  mode := h.mode
  tags := h.tags.addPlatforms _

/-- Adding a blank line leaves scans alike. -/
theorem Alike.addBlank (h : Alike ids key? found s s') :
    Alike ids key? found s.addBlank s'.addBlank where
  prose := by rw [addBlank_prose, addBlank_prose, h.prose]
  opening := by rw [addBlank_opening?, addBlank_opening?, h.opening]
  examples := by rw [addBlank_examples, addBlank_examples, h.examples]
  mode := by rw [addBlank_mode, addBlank_mode, h.mode]
  tags := by rw [addBlank_tags, addBlank_tags]; exact h.tags

/-- A line that ends the open tag leaves two scans alike where they are when the tag is closed. -/
theorem Alike.step_of_closeTag (hclose : Alike ids key? found s.closeTag s'.closeTag)
    (hout : s.Outside) (hout' : s'.Outside) {l : Text} (hread : s'.reading l = s.reading l)
    (hkind : (s.reading l).kind ≠ .plain) : Alike ids key? found (s.step l) (s'.step l) := by
  cases hk : (s.reading l).kind with
  | plain => exact absurd hk hkind
  | blank =>
    rw [step_of_blank hout hk, step_of_blank hout' (by rw [hread, hk])]
    exact hclose.addBlank
  | fence opening =>
    rw [step_of_opening hout hk, step_of_opening hout' (by rw [hread, hk]), hread]
    exact ⟨hclose.prose, hclose.opening, hclose.examples, rfl, hclose.tags.addPlatforms _⟩
  | tag name value =>
    cases hkey : TagKey.ofName? name with
    | some key =>
      rw [step_of_tag hout hk hkey, step_of_tag hout' (by rw [hread, hk]) hkey, hread]
      exact ⟨hclose.prose, hclose.opening, hclose.examples, rfl, hclose.tags⟩
    | none =>
      rw [step_of_unknownTag hout hk hkey, step_of_unknownTag hout' (by rw [hread, hk]) hkey]
      have hnoted : Alike ids key? found
          { s.closeTag with notices := s.closeTag.notices ++ [.unknownTag name] }
          { s'.closeTag with notices := s'.closeTag.notices ++ [.unknownTag name] } :=
        ⟨hclose.prose, hclose.opening, hclose.examples, hclose.mode, hclose.tags⟩
      exact hnoted.addProse l

/-- **A line leaves scans alike.** -/
theorem Alike.step (h : Alike ids key? found s s') (l : Text) :
    Alike ids key? found (s.step l) (s'.step l) := by
  rcases s.outside_or_fence with hout | ⟨f, hmode⟩
  · have hout' : s'.Outside := by unfold Outside; rw [h.mode]; exact hout
    have hread : s'.reading l = s.reading l := by unfold reading; rw [h.mode]
    by_cases hkind : (s.reading l).kind = .plain
    · cases hmode : s.mode with
      | fence f => exact absurd hmode (hout f)
      | prose =>
        rw [reading_of_prose hmode] at hkind
        rw [step_of_plain hmode hkind, step_of_plain (h.mode.trans hmode) hkind]
        exact h.addProse l
      | tag t =>
        rw [reading_of_tag hmode] at hkind
        rw [step_of_continued hmode hkind, step_of_continued (h.mode.trans hmode) hkind]
        exact ⟨h.prose, h.opening, h.examples, rfl, h.tags⟩
    · exact h.closeTag.step_of_closeTag hout hout' hread hkind
  · rw [step_of_fence hmode, step_of_fence (h.mode.trans hmode)]
    unfold fenceLine
    split
    · exact ⟨rfl, by rw [h.opening, h.prose], by rw [h.opening, h.prose, h.examples], rfl, h.tags⟩
    · exact ⟨h.prose, h.opening, h.examples, rfl, h.tags⟩

/-- Scans that are alike are so at the end of the text. -/
theorem Alike.finish (h : Alike ids key? found s s') : Alike ids key? found s.finish s'.finish := by
  rcases s.outside_or_fence with hout | ⟨f, hmode⟩
  · have hout' : s'.Outside := by unfold Outside; rw [h.mode]; exact hout
    rw [finish_of_outside hout, finish_of_outside hout']
    exact h.closeTag
  · rw [finish_of_fence hmode, finish_of_fence (h.mode.trans hmode)]
    exact ⟨congrArg (· ++ f.firstLine :: f.body) h.prose, h.opening, h.examples, rfl, h.tags⟩

/-- The same description is read in scans that are alike. -/
theorem Alike.description (h : Alike ids key? found s s') : s'.description = s.description := by
  rw [Scan.description, Scan.description, h.prose, h.opening, h.examples]

/-! ## Scans that will differ -/

/-- Two scans that have found the same, the tags of `found` among it, and in which the same tag is
open, in one of them with the directive in front of its value. -/
structure AlikeInTag (d : Text) (key : TagKey) (found : TagSet) (s s' : Scan) : Prop where
  prose : s'.prose = s.prose
  opening : s'.opening? = s.opening?
  examples : s'.examples = s.examples
  tags : s.tags = found
  tags' : s'.tags = found
  openTags : ∃ t t', s.mode = .tag t ∧ s'.mode = .tag t' ∧ t.key = key ∧ t'.key = key ∧
    isBlankText t.value = false ∧ t'.value = t.value ∧
    trimStart t.fullValue = t.fullValue ∧ t'.fullValue = d ++ ' ' :: t.fullValue

variable {d list : Text} {key : TagKey}

/-- When the tag is closed, the platforms of the directive are gained. -/
theorem AlikeInTag.closeTag (hd : directiveAt? d = some (list, []))
    (h : AlikeInTag d key found s s') :
    Alike (splitIds list) (some key) found s.closeTag s'.closeTag := by
  obtain ⟨t, t', hmode, hmode', hkey, hkey', hv, hv', htrim, hfull⟩ := h.openTags
  rw [closeTag_of_value hmode hv, closeTag_of_value hmode' (by rw [hv', hv])]
  refine ⟨h.prose, h.opening, h.examples, rfl, ?_⟩
  dsimp only
  rw [h.tags, h.tags', hkey, hkey', hfull]
  exact TagSet.gains_record_leading hd found key htrim

/-- A whole value that is not blank is not blank when more follows. -/
theorem isBlankText_fullValue {t : OpenTag} (h : isBlankText t.value = false) :
    isBlankText t.fullValue = false := by
  unfold OpenTag.fullValue
  split
  · exact h
  · rw [isBlankText_append, isBlankText_cons, h, Bool.and_false, Bool.and_false]

/-- **A line goes on with the tag in both scans, or leaves them alike.** -/
theorem AlikeInTag.step (hd : directiveAt? d = some (list, [])) (h : AlikeInTag d key found s s')
    (l : Text) :
    AlikeInTag d key found (s.step l) (s'.step l) ∨
      Alike (splitIds list) (some key) found (s.step l) (s'.step l) := by
  obtain ⟨t, t', hmode, hmode', hkey, hkey', hv, hv', htrim, hfull⟩ := h.openTags
  by_cases hkind : (Line.whole l).kind = .plain
  · left
    rw [step_of_continued hmode hkind, step_of_continued hmode' hkind]
    refine ⟨h.prose, h.opening, h.examples, h.tags, h.tags', _, _, rfl, rfl, hkey, hkey', ?_, ?_,
      ?_, ?_⟩
    · dsimp only
      rw [isBlankText_append, hv, Bool.false_and]
    · dsimp only
      rw [hv']
    · rw [fullValue_append, trimStart_append (isBlankText_fullValue hv), htrim]
    · rw [fullValue_append, fullValue_append, hfull, List.append_assoc, List.cons_append]
  · right
    refine (h.closeTag hd).step_of_closeTag (outside_of_tag hmode) (outside_of_tag hmode') ?_ ?_
    · rw [reading_of_tag hmode, reading_of_tag hmode']
    · rwa [reading_of_tag hmode]

/-- **Lines leave two scans alike**, or in the same tag. -/
theorem alike_run (hd : directiveAt? d = some (list, [])) (ls : List Text)
    (h : (∃ key, key? = some key ∧ AlikeInTag d key found s s') ∨
      Alike (splitIds list) key? found s s') :
    (∃ key, key? = some key ∧ AlikeInTag d key found (s.run ls) (s'.run ls)) ∨
      Alike (splitIds list) key? found (s.run ls) (s'.run ls) := by
  induction ls generalizing s s' with
  | nil => exact h
  | cons l ls ih =>
    refine ih ?_
    rcases h with ⟨key, rfl, h⟩ | h
    · exact (h.step hd l).imp_left fun hstep => ⟨key, rfl, hstep⟩
    · exact .inr (h.step l)

/-- At the end two scans that are alike, or in the same tag, are alike. -/
theorem alike_finish (hd : directiveAt? d = some (list, []))
    (h : (∃ key, key? = some key ∧ AlikeInTag d key found s s') ∨
      Alike (splitIds list) key? found s s') :
    Alike (splitIds list) key? found s.finish s'.finish := by
  rcases h with ⟨key, rfl, h⟩ | h
  · obtain ⟨t, t', hmode, hmode', -⟩ := h.openTags
    rw [finish_of_outside (outside_of_tag hmode), finish_of_outside (outside_of_tag hmode')]
    exact h.closeTag hd
  · exact h.finish

/-! ## The line itself -/

/-- **The line with the directive and the line without it** leave the scan alike, or in the same
tag. What was found before them is what the scan has found so far. -/
theorem alike_step_leadWith (hd : directiveAt? d = some (list, [])) {l : Text}
    (hmode : s.mode = .prose) (htakes : (Line.ofText l).kind.Takes key?) :
    (∃ key, key? = some key ∧ AlikeInTag d key s.tags (s.step l) (s.step (leadWith d l))) ∨
      Alike (splitIds list) key? s.tags (s.step l) (s.step (leadWith d l)) := by
  have hout := outside_of_prose hmode
  have hblank := htakes.not_blank
  have hlead := ofText_leadWith hd hblank
  generalize hk : (Line.ofText l).kind = kind at htakes
  cases htakes with
  | fence opening =>
    right
    have hopens := Line.kind_eq_fence_iff.1 hk
    have hk' : (s.reading (leadWith d l)).kind = .fence opening := by
      rw [reading_of_prose hmode, hlead, Line.kind_eq_fence_iff]
      exact hopens
    rw [step_of_opening hout (by rw [reading_of_prose hmode, hk]), step_of_opening hout hk',
      reading_of_prose hmode, reading_of_prose hmode, hlead]
    refine ⟨rfl, rfl, rfl, rfl, TagSet.gains_whole (.inl rfl) (fun id => ?_) (by simp) (by simp)⟩
    dsimp only
    rw [ids_leadDirectives hd, names_addPlatforms, names_addPlatforms, adds_append,
      adds_splitIds, ← or_assoc, or_right_comm]
  | @tag name value key hkey hvalue =>
    left
    have htag := Line.kind_eq_tag_iff.1 hk
    have hk' : (s.reading (leadWith d l)).kind = .tag name value := by
      rw [reading_of_prose hmode, hlead, Line.kind_eq_tag_iff]
      exact htag
    have htrim := trim_value_of_blockTag? htag
    have hv : isBlankText value = false := by
      rw [← Bool.not_eq_true, ← trim_eq_nil_iff, htrim]
      exact hvalue
    have hne : d ≠ [] := by rintro rfl; cases hd
    refine ⟨key, rfl, ?_⟩
    rw [step_of_tag hout (by rw [reading_of_prose hmode, hk]) hkey, step_of_tag hout hk' hkey,
      reading_of_prose hmode, reading_of_prose hmode, hlead, closeTag_of_prose hmode]
    refine ⟨rfl, rfl, rfl, rfl, rfl, _, _, rfl, rfl, rfl, rfl, hv, rfl, ?_,
      fullValue_leadDirectives d _ value key _ _ hne⟩
    unfold OpenTag.fullValue
    split
    · exact (trim_eq_self_iff.1 htrim).1
    · next hdirectives =>
      rw [List.isEmpty_iff] at hdirectives
      dsimp only at hdirectives ⊢
      rw [Line.ofText_directives] at hdirectives ⊢
      rw [trimStart_append (isBlankText_directives hdirectives), trimStart_directives]

end Scan

/-! ## The whole text -/

/-- **A directive hides nothing that follows it**: in front of a line that opens a code block or is
a tag with a value, where no tag is open, it leaves the description, the examples and the values of
all tags as they are, and its platforms are gained by the tag, or else by the description. The value
of the tag is the first of its kind after those that are recorded of the lines before it. -/
theorem extract_withDirective {d list t l : Text} {i : Nat} {key? : Option TagKey}
    (hd : directiveAt? d = some (list, [])) (hnl : '\n' ∉ d)
    (hl : (contentLines t)[i]? = some l)
    (hmode : (Scan.start.run ((contentLines t).take i)).mode = .prose)
    (htakes : (Line.ofText l).kind.Takes key?) :
    (extract (withDirective d i t)).description = (extract t).description ∧
      (extract (withDirective d i t)).tags.default.map (·.value) =
        (extract t).tags.default.map (·.value) ∧
      (extract (withDirective d i t)).tags.typeOverrides.map (·.value) =
        (extract t).tags.typeOverrides.map (·.value) ∧
      TagSet.Gains (splitIds list) key? (Scan.start.run ((contentLines t).take i)).tags
        (extract t).tags (extract (withDirective d i t)).tags := by
  have hblank := htakes.not_blank
  obtain ⟨hi, hget⟩ := List.getElem?_eq_some_iff.1 hl
  have hlines : contentLines t =
      (contentLines t).take i ++ l :: (contentLines t).drop (i + 1) := by
    rw [← hget, ← List.drop_eq_getElem_cons hi, List.take_append_drop]
  have hlines' : contentLines (withDirective d i t) =
      (contentLines t).take i ++ leadWith d l :: (contentLines t).drop (i + 1) := by
    rw [contentLines_withDirective hd hnl hl hblank, List.modify_eq_take_cons_drop hi, hget]
  have halike := Scan.alike_finish hd (Scan.alike_run hd ((contentLines t).drop (i + 1))
    (Scan.alike_step_leadWith hd hmode htakes))
  rw [← Scan.run_cons, ← Scan.run_cons, ← Scan.run_append, ← Scan.run_append, ← hlines,
    ← hlines'] at halike
  obtain ⟨hdefault, htype⟩ := halike.tags.values
  exact ⟨halike.description, hdefault, htype, halike.tags⟩

/-- The second of three type tags, which has a directive already, gains the platforms of one more in
front of it. -/
theorem extract_withDirective_type :
    let d := "{@platform ios, web}".toList
    let t := "@type string\n\n  {@platform tv} @type number\n  or null\n@type any\n\n".toList ++
      "@platform iOS".toList
    (Scan.start.run ((contentLines t).take 2)).tags = ⟨[], [], [⟨"string".toList, []⟩]⟩ ∧
      (extract (withDirective d 2 t)).description = (extract t).description ∧
      (extract (withDirective d 2 t)).tags.default.map (·.value) =
        (extract t).tags.default.map (·.value) ∧
      (extract (withDirective d 2 t)).tags.typeOverrides.map (·.value) =
        (extract t).tags.typeOverrides.map (·.value) ∧
      TagSet.Gains (splitIds "ios, web".toList) (some .type)
        (Scan.start.run ((contentLines t).take 2)).tags
        (extract t).tags (extract (withDirective d 2 t)).tags := by
  intro d t
  have hkind : (Line.ofText "  {@platform tv} @type number".toList).kind =
      .tag "type".toList "number".toList := by decide +kernel
  refine ⟨by decide +kernel, extract_withDirective (l := "  {@platform tv} @type number".toList)
    (by decide +kernel) (by decide +kernel) (by decide +kernel) (by decide +kernel) ?_⟩
  rw [hkind]
  exact .tag rfl (by decide)

/-- Where a tag is open the directive hides what follows it: the line goes on with the tag. -/
theorem not_withDirective_in_tag :
    let d := "{@platform ios}".toList
    let t := "@default 0\n@type number".toList
    directiveAt? d = some ("ios".toList, []) ∧ (contentLines t)[1]? = some "@type number".toList ∧
      (Line.ofText "@type number".toList).kind = .tag "type".toList "number".toList ∧
      (Scan.start.run ((contentLines t).take 1)).mode =
        .tag ⟨.default, "0".toList, [], ["@default 0".toList]⟩ ∧
      (extract t).tags = ⟨[], [⟨"0".toList, []⟩], [⟨"number".toList, []⟩]⟩ ∧
      (extract (withDirective d 1 t)).tags =
        ⟨[], [⟨"0 @type number".toList, ["ios".toList]⟩], []⟩ := by
  decide +kernel

end ComponentPages
