import ComponentPages.Proofs.LeadingDirectives
import ComponentPages.Proofs.PlatformIds
import ComponentPages.Proofs.Shown

/-!
# What tags hold

The tags of a description are recorded one at a time: platforms as ids of a list, and values as they
stand after a tag on one line or on several that are put together with spaces. So whatever the text,
its tags are well-formed.

- **`TagSet.Recorded`** — the tags that can be recorded at all; what holds of all tags is proved by
  induction on it.
- **`Scan.Reads`**, **`recorded_extract`** — a text gives no others.
- **`PlainWord`**, **`plainWord_of_mem_ids`** — the ids of a directive.
- **`TagSet.WellFormed`**, **`wellFormed_extract`** — ids and values of the right form.
- **`wellFormed_extract_and_badges`** — and each platform is shown with a label of its own.
-/

namespace ComponentPages

/-! ## Tags that can be recorded -/

/-- The tags that can be recorded, one at a time: ids of lists, and values on one line. -/
inductive TagSet.Recorded : TagSet → Prop where
  /-- Nothing is recorded. -/
  | empty : Recorded .empty
  /-- An id of a list is recorded. -/
  | platform {t : TagSet} {list id : Text} (h : Recorded t) (hid : id ∈ splitIds list) :
      Recorded (t.addPlatform id)
  /-- The value of a default tag is recorded. -/
  | default {t : TagSet} {value : Text} (h : Recorded t) (hvalue : '\n' ∉ value) :
      Recorded (Scan.record t .default value)
  /-- The value of a type tag is recorded. -/
  | type {t : TagSet} {value : Text} (h : Recorded t) (hvalue : '\n' ∉ value) :
      Recorded (Scan.record t .type value)

namespace TagSet

variable {t : TagSet}

/-- Any number of ids of lists can be recorded. -/
theorem Recorded.addPlatforms (h : t.Recorded) {ids : List Text}
    (hids : ∀ id ∈ ids, ∃ list, id ∈ splitIds list) : (t.addPlatforms ids).Recorded := by
  induction ids generalizing t with
  | nil => exact h
  | cons id ids ih =>
    obtain ⟨list, hid⟩ := hids id (List.mem_cons_self ..)
    exact ih (h.platform hid) fun other hother => hids other (List.mem_cons_of_mem _ hother)

/-- The ids that a text names can be recorded. -/
theorem Recorded.addNamed (h : t.Recorded) (s : Text) :
    (t.addPlatforms (stripDirectives s).2).Recorded :=
  h.addPlatforms fun _ hid => exists_mem_splitIds_of_mem_ids hid

/-- A tag of any key can be recorded with a value on one line. -/
theorem Recorded.record (h : t.Recorded) (key : TagKey) {value : Text} (hvalue : '\n' ∉ value) :
    (Scan.record t key value).Recorded := by
  cases key with
  | platform =>
    refine h.addPlatforms fun id hid => ?_
    rcases List.mem_append.1 hid with hid | hid
    · exact ⟨_, hid⟩
    · exact exists_mem_splitIds_of_mem_ids hid
  | default => exact h.default hvalue
  | type => exact h.type hvalue

end TagSet

namespace Scan

variable {s : Scan} {l : Text}

/-- The leading directives of a line hold nothing else than the line. -/
theorem directives_subset (s : Scan) (l : Text) : (s.reading l).directives ⊆ l := by
  unfold reading
  split
  · rw [Line.whole_directives]
    exact List.nil_subset l
  · rw [Line.ofText_directives]
    intro c hc
    exact (trim_isInfix l).subset (List.mem_of_mem_take ((trimEnd_isPrefix _).subset hc))

/-- What follows the leading directives of a line holds nothing else than the line. -/
theorem rest_subset (s : Scan) (l : Text) : (s.reading l).rest ⊆ l := by
  unfold reading
  split
  · rw [Line.whole_rest]
    exact (trim_isInfix l).subset
  · exact ((Line.ofText_rest_suffix l).isInfix.trans (trim_isInfix l)).subset

/-- What is recorded can be recorded one at a time, and the value of the open tag is on one line. -/
structure Reads (s : Scan) : Prop where
  tags : s.tags.Recorded
  openTag : ∀ t, s.mode = .tag t → '\n' ∉ t.fullValue

theorem reads_start : start.Reads := ⟨.empty, fun t ht => by cases ht⟩

/-- Where no tag is open, only what is recorded matters. -/
theorem Reads.of_tags (htags : s.tags.Recorded) (hmode : ∀ t, s.mode ≠ .tag t) : s.Reads :=
  ⟨htags, fun t ht => absurd ht (hmode t)⟩

/-- The open tag can be recorded. -/
theorem Reads.closeTag (h : s.Reads) : s.closeTag.tags.Recorded := by
  cases hmode : s.mode with
  | prose => rw [closeTag_of_prose hmode]; exact h.tags
  | fence f =>
    rw [closeTag_of_ne fun t ht => by rw [hmode] at ht; cases ht]
    exact h.tags
  | tag t =>
    cases hvalue : isBlankText t.value with
    | true => rw [closeTag_of_blank hmode hvalue]; exact h.tags
    | false => rw [closeTag_of_value hmode hvalue]; exact h.tags.record t.key (h.openTag t hmode)

/-- **A line without line feeds** records what can be recorded one at a time. -/
theorem Reads.step (h : s.Reads) (hnl : '\n' ∉ l) : (s.step l).Reads := by
  have hstep := s.step_spec l
  generalize s.step l = s' at hstep ⊢
  cases hstep with
  | code f hmode hopen => exact .of_tags h.tags fun t ht => by cases ht
  | close f hmode hclose => exact .of_tags h.tags fun t ht => by cases ht
  | fence opening hout hkind => exact .of_tags (h.closeTag.addNamed _) fun t ht => by cases ht
  | tag key name value hout hkind hkey =>
    refine ⟨h.closeTag, fun t ht => ?_⟩
    cases ht
    -- the whole value is of two parts of the line with a space between them
    have hdirectives : '\n' ∉ (s.reading l).directives := fun hmem =>
      hnl (s.directives_subset l hmem)
    have hvalue : '\n' ∉ value := fun hmem =>
      hnl (s.rest_subset l ((value_infix_of_blockTag? (Line.kind_eq_tag_iff.1 hkind)).subset hmem))
    unfold OpenTag.fullValue
    split
    · exact hvalue
    · simp [hdirectives, hvalue]
  | unknownTag name value hout hkind hkey =>
    refine .of_tags (h.closeTag.addNamed _) fun t ht => ?_
    rw [addProse_mode] at ht
    cases (closeTag_mode hout).symm.trans ht
  | blank hout hkind =>
    refine .of_tags (by rw [addBlank_tags]; exact h.closeTag) fun t ht => ?_
    rw [addBlank_mode, closeTag_mode hout] at ht
    cases ht
  | continued t hmode hkind =>
    refine ⟨h.tags, fun t' ht => ?_⟩
    cases ht
    -- it goes on with a space and the line
    have htrim : '\n' ∉ trim l := fun hmem => hnl ((trim_isInfix l).subset hmem)
    rw [fullValue_append]
    simp [h.openTag t hmode, htrim]
  | prose hmode hkind =>
    refine .of_tags (h.tags.addNamed _) fun t ht => ?_
    rw [addProse_mode, hmode] at ht
    cases ht

/-- **Any number of lines** record what can be recorded one at a time. -/
theorem Reads.run (h : s.Reads) {ls : List Text} (hnl : ∀ l ∈ ls, '\n' ∉ l) : (s.run ls).Reads := by
  induction ls generalizing s with
  | nil => exact h
  | cons l ls ih =>
    exact ih (h.step (hnl l (List.mem_cons_self ..))) fun m hm => hnl m (List.mem_cons_of_mem _ hm)

end Scan

/-- **The tags of a text can all be recorded one at a time.** -/
theorem recorded_extract (t : Text) : (extract t).tags.Recorded := by
  rw [extract_tags]
  exact (Scan.reads_start.run fun _ hl => newline_not_mem_of_mem_contentLines hl).closeTag

/-! ## Ids -/

/-- An id with something in it and without blanks. -/
structure PlainId (id : Text) : Prop where
  ne_nil : id ≠ []
  noBlank : ∀ c ∈ id, isBlank c = false

theorem PlainId.not_blank {id : Text} (h : PlainId id) : isBlankText id = false := by
  obtain ⟨c, rest, rfl⟩ := List.exists_cons_of_ne_nil h.ne_nil
  rw [isBlankText_cons, h.noBlank c (List.mem_cons_self ..), Bool.false_and]

theorem PlainId.trim {id : Text} (h : PlainId id) : trim id = id :=
  trim_eq_self_of_not_blank h.noBlank

/-- An id as it can stand in a list, where commas separate ids as blanks do. -/
structure ListedId (id : Text) : Prop extends PlainId id where
  noComma : ',' ∉ id

/-- The ids that a list is split into. -/
theorem listedId_of_mem_splitIds {list id : Text} (h : id ∈ splitIds list) : ListedId id := by
  obtain ⟨hne, hid⟩ := mem_splitIds h
  have hplain : ∀ c ∈ id, isBlank c = false := fun c hc => by
    have hseparates := hid c hc
    rw [separatesIds, Bool.or_eq_false_iff] at hseparates
    exact hseparates.2
  exact ⟨⟨hne, hplain⟩, fun hc => by cases hid _ hc⟩

/-- One or more letters, digits and underscores of ASCII. -/
structure PlainWord (id : Text) : Prop where
  ne_nil : id ≠ []
  word : ∀ c ∈ id, isAsciiWord c = true

/-- An id of a list holds nothing else than the list. -/
theorem subset_of_mem_splitIds {list id : Text} (h : id ∈ splitIds list) : id ⊆ list := by
  fun_induction splitIds list with
  | case1 => cases h
  | case2 c rest _ ih => exact List.subset_cons_of_subset c (ih h)
  | case3 c rest hc ih =>
    rcases List.mem_cons.1 h with rfl | h
    · exact List.cons_subset_cons c (List.takeWhile_prefix _).subset
    · exact List.subset_cons_of_subset c (List.Subset.trans (ih h) (List.dropWhile_suffix _).subset)

/-- A directive that a text is cut at has a list of ids. -/
theorem all_inIdList_of_mem_pieces {s : Text} {piece : Text × Text}
    (h : piece ∈ (cutDirectives s).pieces) : piece.1.all inIdList = true := by
  fun_induction cutDirectives s with
  | case1 s ids rest hd ih =>
    rcases List.mem_cons.1 h with rfl | h
    · obtain ⟨_, _, _, _, _, _, _, _, hids⟩ := directiveAt?_eq_some_iff.1 hd
      exact hids
    · exact ih h
  | case2 h' => cases h
  | case3 c rest hd ih => exact ih h

/-- **The ids of directives are plain words**: what else a list may hold separates them. -/
theorem plainWord_of_mem_ids {s id : Text} (h : id ∈ (stripDirectives s).2) : PlainWord id := by
  obtain ⟨list, hlist, hid⟩ := List.mem_flatMap.1 (show id ∈ (cutDirectives s).ids from h)
  obtain ⟨piece, hpiece, rfl⟩ := List.mem_map.1 hlist
  refine ⟨(mem_splitIds hid).1, fun c hc => ?_⟩
  -- an id list is of word characters and of what separates ids, and an id is without the latter
  have hin : inIdList c = true :=
    List.all_eq_true.1 (all_inIdList_of_mem_pieces hpiece) c (subset_of_mem_splitIds hid hc)
  have hseparates : (c == ',' || isBlank c) = false := (mem_splitIds hid).2 c hc
  rwa [inIdList, Bool.or_assoc, hseparates, Bool.or_false] at hin

/-! ## Tags of the right form -/

/-- A value without blanks at its ends on one line, for platforms that are plain words. -/
structure PlatformValue.WellFormed (v : PlatformValue) : Prop where
  trimmed : trim v.value = v.value
  oneLine : '\n' ∉ v.value
  platforms : ∀ id ∈ v.platforms, PlainWord id

/-- The value of a tag on one line is well-formed. -/
theorem wellFormed_platformValue {value : Text} (h : '\n' ∉ value) :
    (Scan.platformValue value).WellFormed where
  trimmed := trim_trim _
  oneLine hmem := h ((stripDirectives_sublist value).subset ((trim_isInfix _).subset hmem))
  platforms _ hid := plainWord_of_mem_ids hid

/-- Platforms that are ids and differ from each other, and values of the right form. -/
structure TagSet.WellFormed (t : TagSet) : Prop where
  ids : ∀ id ∈ t.platform, ListedId id
  distinct : DistinctIds t.platform
  default : ∀ v ∈ t.default, v.WellFormed
  typeOverrides : ∀ v ∈ t.typeOverrides, v.WellFormed

/-- **Whatever tags can be recorded are well-formed.** -/
theorem TagSet.Recorded.wellFormed {t : TagSet} (h : t.Recorded) : t.WellFormed := by
  induction h with
  | empty => exact ⟨fun _ h => (by cases h), distinctIds_nil, fun _ h => (by cases h),
      fun _ h => (by cases h)⟩
  | platform h hid ih =>
    -- nothing of the id is trimmed when it is added
    have hlisted := listedId_of_mem_splitIds hid
    rw [← trim_of_mem_splitIds hid] at hlisted
    exact ⟨forall_mem_addId ih.ids hlisted, ih.distinct.addId _, ih.default, ih.typeOverrides⟩
  | default h hvalue ih =>
    have hone := List.forall_mem_singleton.2 (wellFormed_platformValue hvalue)
    exact ⟨ih.ids, ih.distinct, List.forall_mem_append.2 ⟨ih.default, hone⟩, ih.typeOverrides⟩
  | type h hvalue ih =>
    have hone := List.forall_mem_singleton.2 (wellFormed_platformValue hvalue)
    exact ⟨ih.ids, ih.distinct, ih.default, List.forall_mem_append.2 ⟨ih.typeOverrides, hone⟩⟩

/-- **The tags of a text are well-formed.** -/
theorem wellFormed_extract (t : Text) : (extract t).tags.WellFormed :=
  (recorded_extract t).wellFormed

/-- The badges of well-formed tags are those of all their platforms, and no label is shown twice. -/
theorem TagSet.WellFormed.badges_platform {t : TagSet} (h : t.WellFormed)
    (labels : List PlatformLabel) :
    badges labels t.platform = joinWith [' '] (t.platform.map (badge labels)) ∧
      LabelledApart labels t.platform :=
  ⟨badges_of_not_blank fun id hid => (h.ids id hid).not_blank,
    h.distinct.labelledApart (fun id hid => (h.ids id hid).trim) labels⟩

/-- **The tags of a text are well-formed, and so each of its platforms has its own badge**: the
badges are those of the platforms one by one, and no two of the platforms are shown with the same
label. -/
theorem wellFormed_extract_and_badges (t : Text) :
    (extract t).tags.WellFormed ∧ ∀ labels,
      badges labels (extract t).tags.platform =
          joinWith [' '] ((extract t).tags.platform.map (badge labels)) ∧
        LabelledApart labels (extract t).tags.platform :=
  ⟨wellFormed_extract t, fun labels => (wellFormed_extract t).badges_platform labels⟩

/-- A directive over two lines of a tag, and a platform that is named once more in another case. -/
example : (extract "@default \x7b@platform\n  ios\x7d x\n@platform TV, tv".toList).tags =
    ⟨["TV".toList], [⟨"x".toList, ["ios".toList]⟩], []⟩ := by
  decide +kernel

end ComponentPages
