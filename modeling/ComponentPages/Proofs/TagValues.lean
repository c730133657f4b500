import ComponentPages.Proofs.DirectiveGaps
import ComponentPages.Proofs.DirectivesTaken
import ComponentPages.Proofs.Normalizing

/-!
# Values of recorded tags

A tag is recorded where it has a value, and the directives are taken out of the value after that. So
nothing may be left of it: a tag whose whole value is directives is recorded with an empty one, and
a property whose type tags are all of this kind is accepted without any type to show.

- **`OnlyDirectives`** — a text of directives and blanks: that of which only blanks are left
  (`isBlankText_stripDirectives_iff`).
- **`recordedTags`** — the tags of a text that are recorded, in order.
- **`entriesOf_extract`** — what is recorded is what these tags give.
- **`recordsValues_iff`**, **`PropDoc.hasType_iff`** — where every value is there, and where an
  accepted property has a type.
- **`recordsValues_and_hasType`** — the two together.
-/

namespace ComponentPages

/-! ## Texts of directives alone -/

/-- Directives and blanks, and nothing else: no line is left after the directives in front of it. -/
def OnlyDirectives (s : Text) : Prop := afterLeading (trimStart s) = []

instance (s : Text) : Decidable (OnlyDirectives s) :=
  inferInstanceAs (Decidable (afterLeading (trimStart s) = []))

section OnlyDirectives

variable {gap d ids rest s : Text}

/-- What is kept of a gap is blank where the gap is. -/
theorem KeptOf.isBlankText_eq {kept : Text} (h : KeptOf kept gap) :
    isBlankText kept = isBlankText gap := by
  obtain ⟨front, back, rfl, hfront, hback⟩ := h
  rw [isBlankText_append, isBlankText_append, isBlankText_of_all_isIndent hfront,
    isBlankText_of_all_isIndent hback, Bool.true_and, Bool.and_true]

/-- Only blanks are left of a text where every gap of it is blank. -/
theorem isBlankText_stripDirectives (s : Text) :
    isBlankText (stripDirectives s).1 = (gapsBetween s).all isBlankText := by
  obtain ⟨kept, hkept, hflatten⟩ := exists_keptOf_stripDirectives s
  rw [hflatten]
  generalize gapsBetween s = gaps at hkept
  clear hflatten
  induction hkept with
  | nil => rfl
  | cons hk _ ih => rw [List.flatten_cons, isBlankText_append, List.all_cons, hk.isBlankText_eq, ih]

/-- A blank gap is passed over to the directive after it. -/
theorem onlyDirectives_append_of_blank (hblank : isBlankText gap = true)
    (hd : directiveAt? d = some (ids, [])) :
    OnlyDirectives (gap ++ (d ++ rest)) ↔ OnlyDirectives rest := by
  obtain ⟨e, rfl, -⟩ := exists_cons_of_directive hd
  rw [OnlyDirectives, trimStart_append_of_blank hblank, List.cons_append,
    trimStart_cons_of_not_blank (by rfl), ← List.cons_append, afterLeading_of_directive hd,
    OnlyDirectives]

/-- A gap that is not blank is left, for no directive begins in it. -/
theorem not_onlyDirectives_append (hblank : isBlankText gap = false) {t : Text}
    (hgap : NoneBegins gap t) : ¬OnlyDirectives (gap ++ t) := by
  have hne : trimStart gap ≠ [] := by
    rw [Ne, trimStart_eq_nil_iff, hblank]
    exact Bool.false_ne_true
  rw [OnlyDirectives, trimStart_append hblank,
    afterLeading_of_none (hgap _ (trimStart_suffix gap) hne), List.append_eq_nil_iff]
  exact fun h => hne h.1

/-- **Only blanks are left of a text of directives alone**, and of no other. -/
theorem isBlankText_stripDirectives_iff :
    isBlankText (stripDirectives s).1 = true ↔ OnlyDirectives s := by
  rw [isBlankText_stripDirectives]
  induction s using directive_induction with
  | free s hfree =>
    rw [gapsBetween_of_free hfree, List.all_cons, List.all_nil, Bool.and_true, OnlyDirectives,
      afterLeading_of_none (hfree.of_isSuffix (trimStart_suffix s)).directiveAt?,
      trimStart_eq_nil_iff]
  | first gap d ids rest hd hgap ih =>
    rw [gapsBetween_first hd hgap, List.all_cons, Bool.and_eq_true, ih]
    cases hblank : isBlankText gap with
    | true => rw [onlyDirectives_append_of_blank hblank hd, eq_self, true_and]
    | false => simp [not_onlyDirectives_append hblank hgap]

/-- The value of a tag is empty where all of it is directives. -/
theorem value_platformValue_eq_nil_iff :
    (Scan.platformValue s).value = [] ↔ OnlyDirectives s := by
  rw [← isBlankText_stripDirectives_iff, ← trim_eq_nil_iff]
  rfl

end OnlyDirectives

/-! ## The tags that are recorded -/

/-- The tag that is recorded when what is open is closed: one that has a value. -/
def Mode.recorded : Mode → List OpenTag
  | .tag t => if isBlankText t.value then [] else [t]
  | _ => []

/-- The tags that are recorded while the lines are read, and at their end. -/
def Scan.recordedTags (s : Scan) : List Text → List OpenTag
  | [] => s.mode.recorded
  | l :: ls =>
    -- a plain line goes on with the open tag, and any other ends it
    (if (s.reading l).kind = .plain then [] else s.mode.recorded) ++ (s.step l).recordedTags ls

/-- The tags of a text that are recorded, in order. -/
def recordedTags (t : Text) : List OpenTag := Scan.start.recordedTags (contentLines t)

/-- What the tags of one key give. -/
def entriesOfTags (key : TagKey) (tags : List OpenTag) : List PlatformValue :=
  (tags.filter fun t => t.key = key).map fun t => Scan.platformValue t.fullValue

@[simp] theorem entriesOfTags_nil (key : TagKey) : entriesOfTags key [] = [] := rfl

theorem entriesOfTags_append (key : TagKey) (tags tags' : List OpenTag) :
    entriesOfTags key (tags ++ tags') = entriesOfTags key tags ++ entriesOfTags key tags' := by
  rw [entriesOfTags, List.filter_append, List.map_append]
  rfl

/-- The entries that are recorded for a key; platforms are no entries. -/
def TagSet.entriesOf (t : TagSet) : TagKey → List PlatformValue
  | .platform => []
  | .default => t.default
  | .type => t.typeOverrides

@[simp] theorem TagSet.entriesOf_addPlatforms (t : TagSet) (ids : List Text) (key : TagKey) :
    (t.addPlatforms ids).entriesOf key = t.entriesOf key := by
  cases key with
  | platform => rfl
  | default => exact default_addPlatforms t ids
  | type => exact typeOverrides_addPlatforms t ids

/-- Recording a tag adds what it gives. -/
theorem TagSet.entriesOf_record (t : TagSet) (tag : OpenTag) {key : TagKey}
    (hkey : key ≠ .platform) :
    (Scan.record t tag.key tag.fullValue).entriesOf key =
      t.entriesOf key ++ entriesOfTags key [tag] := by
  obtain ⟨own, value, directives, raw⟩ := tag
  cases key with
  | platform => exact absurd rfl hkey
  | default =>
    cases own with
    | platform => simp [Scan.record, entriesOfTags]
    | default => rfl
    | type => simp [Scan.record, entriesOfTags, entriesOf]
  | type =>
    cases own with
    | platform => simp [Scan.record, entriesOfTags]
    | default => simp [Scan.record, entriesOfTags, entriesOf]
    | type => rfl

namespace Scan

variable {key : TagKey}

/-- Closing what is open adds what the tag that is recorded gives. -/
theorem entriesOf_closeTag (s : Scan) (hkey : key ≠ .platform) :
    s.closeTag.tags.entriesOf key = s.tags.entriesOf key ++ entriesOfTags key s.mode.recorded := by
  cases hmode : s.mode with
  | prose => simp [closeTag_of_prose hmode, Mode.recorded]
  | fence f =>
    rw [closeTag_of_ne fun t ht => by rw [hmode] at ht; cases ht]
    simp [Mode.recorded]
  | tag t =>
    rw [Mode.recorded]
    cases hvalue : isBlankText t.value with
    | true => simp [closeTag_of_blank hmode hvalue]
    | false =>
      rw [closeTag_of_value hmode hvalue]
      exact TagSet.entriesOf_record s.tags t hkey

/-- **A line adds what the tag gives that it ends.** -/
theorem entriesOf_step (s : Scan) (l : Text) (hkey : key ≠ .platform) :
    (s.step l).tags.entriesOf key = s.tags.entriesOf key ++
      entriesOfTags key (if (s.reading l).kind = .plain then [] else s.mode.recorded) := by
  have hclose := s.entriesOf_closeTag hkey
  -- a line that goes on with what is open, or is prose, ends no tag
  have hnone (hrecorded : s.mode.recorded = []) :
      entriesOfTags key (if (s.reading l).kind = .plain then [] else s.mode.recorded) = [] := by
    rw [hrecorded, ite_self, entriesOfTags_nil]
  have hstep := s.step_spec l
  generalize s.step l = s' at hstep ⊢
  cases hstep with
  | code f hmode hopen => rw [hnone (by rw [hmode]; rfl), List.append_nil]
  | close f hmode hclosed => rw [hnone (by rw [hmode]; rfl), List.append_nil]
  | fence opening hout hkind =>
    rw [hkind, if_neg (by simp), ← hclose]
    exact TagSet.entriesOf_addPlatforms _ _ _
  | tag key' name value hout hkind hkey' => rw [hkind, if_neg (by simp), ← hclose]
  | unknownTag name value hout hkind hkey' =>
    rw [hkind, if_neg (by simp), ← hclose]
    exact TagSet.entriesOf_addPlatforms _ _ _
  | blank hout hkind => rw [hkind, if_neg (by simp), ← hclose, addBlank_tags]
  | continued t hmode hkind =>
    rw [reading_of_tag hmode, hkind, if_pos rfl, entriesOfTags_nil, List.append_nil]
  | prose hmode hkind =>
    rw [hnone (by rw [hmode]; rfl), List.append_nil]
    exact TagSet.entriesOf_addPlatforms _ _ _

/-- **Any number of lines** add what the tags give that are recorded while they are read. -/
theorem entriesOf_run (s : Scan) (ls : List Text) (hkey : key ≠ .platform) :
    (s.run ls).closeTag.tags.entriesOf key =
      s.tags.entriesOf key ++ entriesOfTags key (s.recordedTags ls) := by
  induction ls generalizing s with
  | nil => exact s.entriesOf_closeTag hkey
  | cons l ls ih =>
    rw [run_cons, ih, entriesOf_step s l hkey, recordedTags, entriesOfTags_append,
      List.append_assoc]

end Scan

/-- **What is recorded of a text** is what its recorded tags give, in order. -/
theorem entriesOf_extract (t : Text) {key : TagKey} (hkey : key ≠ .platform) :
    (extract t).tags.entriesOf key = entriesOfTags key (recordedTags t) := by
  have hrun := Scan.start.entriesOf_run (contentLines t) hkey
  rw [extract_tags, hrun]
  cases key with
  | platform => exact absurd rfl hkey
  | default => rfl
  | type => rfl

/-- An entry is what a recorded tag gives. -/
theorem mem_entriesOfTags_iff {key : TagKey} {tags : List OpenTag} {v : PlatformValue} :
    v ∈ entriesOfTags key tags ↔
      ∃ tag ∈ tags, tag.key = key ∧ Scan.platformValue tag.fullValue = v := by
  simp [entriesOfTags, and_assoc]

theorem mem_default_iff {t : Text} {v : PlatformValue} :
    v ∈ (extract t).tags.default ↔
      ∃ tag ∈ recordedTags t, tag.key = .default ∧ Scan.platformValue tag.fullValue = v := by
  rw [← mem_entriesOfTags_iff, ← entriesOf_extract t (by simp)]
  rfl

theorem mem_typeOverrides_iff {t : Text} {v : PlatformValue} :
    v ∈ (extract t).tags.typeOverrides ↔
      ∃ tag ∈ recordedTags t, tag.key = .type ∧ Scan.platformValue tag.fullValue = v := by
  rw [← mem_entriesOfTags_iff, ← entriesOf_extract t (by simp)]
  rfl

/-! ## Values and types -/

/-- No value that is recorded is empty. -/
def RecordsValues (t : Text) : Prop := ∀ v ∈ (extract t).tags.values, v ≠ []

instance (t : Text) : Decidable (RecordsValues t) :=
  inferInstanceAs (Decidable (∀ v ∈ (extract t).tags.values, v ≠ []))

/-- No default or type tag that is recorded is of directives alone. -/
def LeavesValues (t : Text) : Prop :=
  ∀ tag ∈ recordedTags t, tag.key ≠ .platform → ¬OnlyDirectives tag.fullValue

instance (t : Text) : Decidable (LeavesValues t) :=
  inferInstanceAs (Decidable (∀ tag ∈ recordedTags t, _))

/-- There is a type to show of the property: its own, or one that a tag gives. -/
def PropDoc.HasType (d : PropDoc) : Prop :=
  d.type?.isSome = true ∨ ∃ v ∈ d.tags.typeOverrides, v.value ≠ []

/-- **Every value is there** where no tag is of directives alone. -/
theorem recordsValues_iff {t : Text} : RecordsValues t ↔ LeavesValues t := by
  have hvalue (tag : OpenTag) : (Scan.platformValue tag.fullValue).value ≠ [] ↔
      ¬OnlyDirectives tag.fullValue := not_congr value_platformValue_eq_nil_iff
  rw [RecordsValues, TagSet.values, List.forall_mem_map]
  constructor
  · intro h tag htag hkey
    refine (hvalue tag).1 (h _ (List.mem_append.2 ?_))
    cases hown : tag.key with
    | platform => exact absurd hown hkey
    | default => exact .inl (mem_default_iff.2 ⟨tag, htag, hown, rfl⟩)
    | type => exact .inr (mem_typeOverrides_iff.2 ⟨tag, htag, hown, rfl⟩)
  · intro h v hv
    rcases List.mem_append.1 hv with hv | hv
    · obtain ⟨tag, htag, hkey, rfl⟩ := mem_default_iff.1 hv
      exact (hvalue tag).2 (h tag htag (by simp [hkey]))
    · obtain ⟨tag, htag, hkey, rfl⟩ := mem_typeOverrides_iff.1 hv
      exact (hvalue tag).2 (h tag htag (by simp [hkey]))

section Properties

variable {name : Text} {p : Metadata.Property} {d : PropDoc}

/-- The type of an accepted property is that of its metadata; where that gives none, tags override
it. -/
theorem propType_eq_ok_iff {type : Option TypeNode} {overridden : Bool}
    {found : Option TypeDescriptor} :
    propType name type overridden = .ok found ↔
      type.bind TypeDescriptor.ofNode? = found ∧ (found = none → overridden = true) := by
  unfold propType
  cases type with
  | none => cases overridden <;> cases found <;> simp
  | some node =>
    rw [Option.bind_some]
    dsimp only
    cases TypeDescriptor.ofNode? node with
    | none => cases overridden <;> cases found <;> simp
    | some type => cases found <;> simp

theorem PropDoc.type?_of_ofProperty (h : PropDoc.ofProperty name p = .ok d) :
    p.type?.bind TypeDescriptor.ofNode? = d.type? ∧
      (d.type? = none → d.tags.typeOverrides ≠ []) := by
  obtain ⟨type, htype, hd⟩ := bind_eq_ok_iff.1 h
  cases hd
  simpa using propType_eq_ok_iff.1 htype

/-- The tags of a property are those of its description. -/
theorem PropDoc.tags_of_ofProperty (h : PropDoc.ofProperty name p = .ok d) :
    d.tags = (extract (p.description.getD [])).tags := by
  rw [PropDoc.eq_of_ofProperty h]
  rfl

/-- A property with a type tag is accepted in any case. -/
theorem PropDoc.exists_ofProperty
    (h : (extractOptional p.description).tags.typeOverrides ≠ []) (name : Text) :
    ∃ d, PropDoc.ofProperty name p = .ok d :=
  ⟨_, bind_eq_ok_iff.2 ⟨_, propType_eq_ok_iff.2 ⟨rfl, fun _ => by simpa using h⟩, rfl⟩⟩

/-- **An accepted property has a type to show** where its own is one, or some type tag is not of
directives alone. -/
theorem PropDoc.hasType_iff (h : PropDoc.ofProperty name p = .ok d) :
    d.HasType ↔ (p.type?.bind TypeDescriptor.ofNode?).isSome = true ∨
      ∃ tag ∈ recordedTags (p.description.getD []),
        tag.key = .type ∧ ¬OnlyDirectives tag.fullValue := by
  rw [HasType, (type?_of_ofProperty h).1, tags_of_ofProperty h]
  refine or_congr_right ⟨?_, ?_⟩
  · rintro ⟨v, hv, hne⟩
    obtain ⟨tag, htag, hkey, rfl⟩ := mem_typeOverrides_iff.1 hv
    exact ⟨tag, htag, hkey, fun honly => hne (value_platformValue_eq_nil_iff.2 honly)⟩
  · rintro ⟨tag, htag, hkey, honly⟩
    exact ⟨_, mem_typeOverrides_iff.2 ⟨tag, htag, hkey, rfl⟩,
      fun hnil => honly (value_platformValue_eq_nil_iff.1 hnil)⟩

/-- Where every value is there, an accepted property has a type to show. -/
theorem PropDoc.hasType_of_recordsValues (h : PropDoc.ofProperty name p = .ok d)
    (hvalues : RecordsValues (p.description.getD [])) : d.HasType := by
  cases htype : d.type? with
  | some type => exact .inl (by rw [htype]; rfl)
  | none =>
    obtain ⟨v, hv⟩ := List.exists_mem_of_ne_nil _ ((type?_of_ofProperty h).2 htype)
    refine .inr ⟨v, hv, hvalues _ (List.mem_map_of_mem (List.mem_append_right _ ?_))⟩
    rwa [tags_of_ofProperty h] at hv

end Properties

/-- **Every value is there, and every accepted property has a type to show**, where no recorded tag
of the text is of directives alone; where one is, a value is missing, and the property has a type
only if its own is one, or another type tag gives it. -/
theorem recordsValues_and_hasType (t : Text) :
    (RecordsValues t ↔ LeavesValues t) ∧
    ∀ name p d, p.description.getD [] = t → PropDoc.ofProperty name p = .ok d →
      (LeavesValues t → d.HasType) ∧
      (d.HasType ↔ (p.type?.bind TypeDescriptor.ofNode?).isSome = true ∨
        ∃ tag ∈ recordedTags t, tag.key = .type ∧ ¬OnlyDirectives tag.fullValue) := by
  refine ⟨recordsValues_iff, ?_⟩
  rintro name p d rfl h
  refine ⟨fun hleaves => ?_, PropDoc.hasType_iff h⟩
  exact PropDoc.hasType_of_recordsValues h (recordsValues_iff.2 hleaves)

/-- A property whose only type comes from its description. -/
def describedProperty (description : String) : Metadata.Property where
  type? := none
  required := false
  description := some description.toList
  defaultValue := none

/-- A type tag over two lines has its value, with a directive in front of it and one before the
value. -/
theorem recordsValues_and_hasType_continued :
    let p := describedProperty "{@platform ios} @type {@platform tv}\n  number"
    ∃ d, PropDoc.ofProperty "size".toList p = .ok d ∧ d.HasType ∧
      d.tags.typeOverrides = [⟨"number".toList, ["ios".toList, "tv".toList]⟩] := by
  intro p
  obtain ⟨d, hd⟩ := PropDoc.exists_ofProperty (p := p) (by decide +kernel) "size".toList
  refine ⟨d, hd, ((recordsValues_and_hasType _).2 _ p d rfl hd).1 (by decide +kernel), ?_⟩
  rw [PropDoc.tags_of_ofProperty hd]
  decide +kernel

/-- A type tag that is a directive alone is recorded without a value, and the property is accepted
without a type. -/
theorem not_hasType_directiveAlone :
    ¬RecordsValues "@type {@platform ios}".toList ∧
    ∃ d, PropDoc.ofProperty "size".toList (describedProperty "@type {@platform ios}") =
        .ok d ∧ ¬d.HasType := by
  refine ⟨by decide +kernel, ?_⟩
  obtain ⟨d, hd⟩ := PropDoc.exists_ofProperty
    (p := describedProperty "@type {@platform ios}") (by decide +kernel) "size".toList
  refine ⟨d, hd, fun htype => ?_⟩
  rw [PropDoc.hasType_iff hd] at htype
  exact absurd htype (by decide +kernel)

end ComponentPages
