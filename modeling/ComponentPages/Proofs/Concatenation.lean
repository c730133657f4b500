import ComponentPages.Proofs.Scanning

/-!
# Texts one after another

A blank line ends whatever is open but a code block. A text that follows after one is read as if it
stood alone: what a line does to the mode, to the tags and to the code blocks does not depend on
what was found before.

- **`TagSet.followedBy`** — the tags of a text, and those of the text after it.
- **`Scan.Follows`** — a scan inside the second text, and a scan of this text alone.
- **`Scan.Follows.step`**, **`Scan.Follows.run`** — one more line, and any number of them.
- **`extract_append_blankLine`** — the two texts with a blank line between them.
-/

namespace ComponentPages

/-! ## Tags of two texts -/

/-- The ids of a list that are not known in any case of their letters. -/
def newIds (known ids : List Text) : List Text :=
  ids.filter fun id => !known.any (sameIgnoringCase · id)

theorem newIds_append (known ids ids' : List Text) :
    newIds known (ids ++ ids') = newIds known ids ++ newIds known ids' :=
  List.filter_append ..

/-- An id is as well known as it is in another case of its letters. -/
theorem any_sameIgnoringCase_congr (known : List Text) {id id' : Text}
    (h : sameIgnoringCase id id' = true) :
    known.any (sameIgnoringCase · id) = known.any (sameIgnoringCase · id') := by
  rw [sameIgnoringCase_iff] at h
  have hsame : (sameIgnoringCase · id) = (sameIgnoringCase · id') := by
    funext k
    rw [Bool.eq_iff_iff, sameIgnoringCase_iff, sameIgnoringCase_iff, h]
  rw [hsame]

/-- An id that is not known is among the new ones where it is among all. -/
theorem any_newIds {known : List Text} (ids : List Text) {id : Text}
    (h : known.any (sameIgnoringCase · id) = false) :
    (newIds known ids).any (sameIgnoringCase · id) = ids.any (sameIgnoringCase · id) := by
  rw [newIds, List.any_filter, Bool.eq_iff_iff, List.any_eq_true, List.any_eq_true]
  refine exists_congr fun k => and_congr_right fun _ => ?_
  rw [Bool.and_eq_true]
  refine and_iff_right_of_imp fun hk => ?_
  rw [any_sameIgnoringCase_congr known hk, h]
  rfl

/-- **An id is added to what is known** as it is added to the rest. -/
theorem addId_append_newIds (known ids : List Text) (id : Text) :
    TagSet.addId (known ++ newIds known ids) id = known ++ newIds known (TagSet.addId ids id) := by
  dsimp only [TagSet.addId]
  by_cases hblank : (trim id).isEmpty = true
  · rw [hblank, Bool.true_or, Bool.true_or, if_pos rfl, if_pos rfl]
  rw [Bool.not_eq_true] at hblank
  rw [hblank, Bool.false_or, Bool.false_or, List.any_append]
  cases hknown : known.any (sameIgnoringCase · (trim id)) with
  | true =>
    -- the id is known, and not new if it is added to the rest
    have hone : newIds known [trim id] = [] := by simp [newIds, hknown]
    rw [Bool.true_or, if_pos rfl]
    split
    · rfl
    · rw [newIds_append, hone, List.append_nil]
  | false =>
    have hone : newIds known [trim id] = [trim id] := by simp [newIds, hknown]
    rw [Bool.false_or, any_newIds ids hknown]
    split
    · rfl
    · rw [newIds_append, hone, List.append_assoc]

namespace TagSet

/-- The tags of a text and of one that follows it: values come one after another, and of the
platforms those that are new. -/
def followedBy (t t' : TagSet) : TagSet where
  platform := t.platform ++ newIds t.platform t'.platform
  default := t.default ++ t'.default
  typeOverrides := t.typeOverrides ++ t'.typeOverrides

@[simp] theorem followedBy_empty (t : TagSet) : t.followedBy empty = t := by
  simp [followedBy, empty, newIds]

theorem followedBy_addPlatform (t t' : TagSet) (id : Text) :
    (t.followedBy t').addPlatform id = t.followedBy (t'.addPlatform id) := by
  simp only [followedBy, addPlatform, addId_append_newIds]

/-- Platforms are added to the tags that follow. -/
theorem followedBy_addPlatforms (t t' : TagSet) (ids : List Text) :
    (t.followedBy t').addPlatforms ids = t.followedBy (t'.addPlatforms ids) := by
  induction ids generalizing t' with
  | nil => rfl
  | cons id ids ih => rw [addPlatforms_cons, addPlatforms_cons, followedBy_addPlatform, ih]

/-- A tag is recorded among the tags that follow. -/
theorem followedBy_record (t t' : TagSet) (key : TagKey) (value : Text) :
    Scan.record (t.followedBy t') key value = t.followedBy (Scan.record t' key value) := by
  cases key with
  | platform => exact followedBy_addPlatforms t t' _
  | default => simp only [Scan.record, followedBy, List.append_assoc]
  | type => simp only [Scan.record, followedBy, List.append_assoc]

end TagSet

/-! ## The second text -/

/-- An example without the prose in front of it: its language, its block and its code. -/
def Example.block (e : Example) : Text × Text × Text := (e.language, e.raw, e.code)

namespace Scan

/-- The scan `s'` has read more than the scan `s`, and is in the same place: the tags and the code
blocks that `s` has found follow those found before. What is prose, and where it is, may differ. -/
structure Follows (known : TagSet) (blocks : List (Text × Text × Text)) (s s' : Scan) : Prop where
  mode : s'.mode = s.mode
  tags : s'.tags = known.followedBy s.tags
  blocks : s'.examples.map Example.block = blocks ++ s.examples.map Example.block

variable {known : TagSet} {blocks : List (Text × Text × Text)} {s s' : Scan}

theorem Follows.outside (h : Follows known blocks s s') (hout : s.Outside) : s'.Outside := by
  unfold Outside
  rw [h.mode]
  exact hout

theorem Follows.reading (h : Follows known blocks s s') (l : Text) :
    s'.reading l = s.reading l := by
  unfold Scan.reading
  rw [h.mode]

/-- A scan still follows another one when the open tag is closed in both. -/
theorem Follows.closeTag (h : Follows known blocks s s') :
    Follows known blocks s.closeTag s'.closeTag := by
  by_cases hopen : ∃ t, s.mode = .tag t
  · obtain ⟨t, hmode⟩ := hopen
    have hmode' := h.mode.trans hmode
    cases hv : isBlankText t.value with
    | true =>
      rw [closeTag_of_blank hmode hv, closeTag_of_blank hmode' hv]
      exact ⟨rfl, h.tags, h.blocks⟩
    | false =>
      rw [closeTag_of_value hmode hv, closeTag_of_value hmode' hv]
      refine ⟨rfl, ?_, h.blocks⟩
      dsimp only
      rw [h.tags, TagSet.followedBy_record]
  · have hne : ∀ t, s.mode ≠ .tag t := fun t ht => hopen ⟨t, ht⟩
    rwa [closeTag_of_ne hne, closeTag_of_ne fun t => by rw [h.mode]; exact hne t]

/-- The tags of a scan still follow those of another one when platforms are named in both. -/
theorem Follows.tags_addPlatforms (h : Follows known blocks s s') (ids : List Text) :
    s'.tags.addPlatforms ids = known.followedBy (s.tags.addPlatforms ids) := by
  rw [h.tags, TagSet.followedBy_addPlatforms]

/-- A scan still follows another one when a line of prose is added to both. -/
theorem Follows.addProse (h : Follows known blocks s s') (l : Text) :
    Follows known blocks (s.addProse l) (s'.addProse l) where
  mode := h.mode
  tags := h.tags_addPlatforms _
  blocks := h.blocks

/-- **A line does the same in both scans.** -/
theorem Follows.step (h : Follows known blocks s s') (l : Text) :
    Follows known blocks (s.step l) (s'.step l) := by
  rcases s.outside_or_fence with hout | ⟨f, hmode⟩
  · have hout' := h.outside hout
    have hread := h.reading l
    have hclose := h.closeTag
    cases hk : (s.reading l).kind with
    | blank =>
      rw [step_of_blank hout hk, step_of_blank hout' (by rw [hread, hk])]
      refine ⟨?_, ?_, ?_⟩
      · rw [addBlank_mode, addBlank_mode, hclose.mode]
      · rw [addBlank_tags, addBlank_tags, hclose.tags]
      · rw [addBlank_examples, addBlank_examples, hclose.blocks]
    | fence opening =>
      rw [step_of_opening hout hk, step_of_opening hout' (by rw [hread, hk]), hread]
      exact ⟨rfl, hclose.tags_addPlatforms _, hclose.blocks⟩
    | tag name value =>
      cases hkey : TagKey.ofName? name with
      | some key =>
        rw [step_of_tag hout hk hkey, step_of_tag hout' (by rw [hread, hk]) hkey, hread]
        exact ⟨rfl, hclose.tags, hclose.blocks⟩
      | none =>
        rw [step_of_unknownTag hout hk hkey, step_of_unknownTag hout' (by rw [hread, hk]) hkey]
        have hnoted : Follows known blocks
            { s.closeTag with notices := s.closeTag.notices ++ [.unknownTag name] }
            { s'.closeTag with notices := s'.closeTag.notices ++ [.unknownTag name] } :=
          ⟨hclose.mode, hclose.tags, hclose.blocks⟩
        exact hnoted.addProse l
    | plain =>
      cases hmode : s.mode with
      | fence f => exact absurd hmode (hout f)
      | prose =>
        rw [reading_of_prose hmode] at hk
        rw [step_of_plain hmode hk, step_of_plain (h.mode.trans hmode) hk]
        exact h.addProse l
      | tag t =>
        rw [reading_of_tag hmode] at hk
        rw [step_of_continued hmode hk, step_of_continued (h.mode.trans hmode) hk]
        exact ⟨rfl, h.tags, h.blocks⟩
  · rw [step_of_fence hmode, step_of_fence (h.mode.trans hmode)]
    unfold fenceLine
    split
    · refine ⟨rfl, h.tags, ?_⟩
      -- the intro of the new example differs, and is no part of its block
      rw [List.map_append, List.map_append, h.blocks, List.append_assoc]
      rfl
    · exact ⟨rfl, h.tags, h.blocks⟩

/-- **Lines do the same in both scans.** -/
theorem Follows.run (h : Follows known blocks s s') (ls : List Text) :
    Follows known blocks (s.run ls) (s'.run ls) := by
  induction ls generalizing s s' with
  | nil => exact h
  | cons l ls ih => exact ih (h.step l)

/-! ## The first text -/

/-- A line that leaves a code block closes it. -/
theorem closedBy_of_outside_step {f : OpenFence} {l : Text} (hmode : s.mode = .fence f)
    (hout : (s.step l).Outside) : f.opening.closedBy l = true := by
  by_contra hopen
  rw [step_of_fence hmode, fenceLine, if_neg hopen] at hout
  exact hout _ rfl

/-- The last line of a text is read as it is where another line follows, unless it is code. -/
theorem run_map_innerLine {t : Text} (ht : ∃ l ∈ lines t, AtMargin l)
    (hout : (start.run (contentLines t)).Outside) :
    start.run ((lines t).map innerLine) = start.run (contentLines t) := by
  obtain ⟨l, hl, hmargin⟩ := ht
  obtain ⟨init, last, hlines⟩ : ∃ init last, lines t = init ++ [last] :=
    ⟨_, _, (List.dropLast_append_getLast (lines_ne_nil t)).symm⟩
  have hcontent := contentLines_of_lines_append hlines (List.cons_ne_nil _ _) (hlines ▸ hl) hmargin
  have hlast : (unixLineList [last]).map (outdentLine 0) = [outdentLine 0 last] := rfl
  rw [hlast] at hcontent
  rw [hcontent, run_append, run_cons, run_nil] at hout
  rw [hlines, hcontent, List.map_append, run_append, run_append]
  refine (step_congr ?_ fun f hf => closedBy_of_outside_step hf hout).symm
  rw [trimEnd_outdentLine_zero, trimEnd_innerLine]

/-- **A blank line resets the scan**: from then on it follows a scan that has read nothing. -/
theorem follows_start (hout : s.Outside) :
    Follows s.closeTag.tags (s.examples.map Example.block) start (s.step []) := by
  rw [step_of_blank hout (kind_reading_of_blank s rfl)]
  refine ⟨?_, ?_, ?_⟩
  · rw [addBlank_mode, closeTag_mode hout]
    rfl
  · rw [addBlank_tags]
    exact (TagSet.followedBy_empty _).symm
  · rw [addBlank_examples, closeTag_examples]
    exact (List.append_nil _).symm

end Scan

/-! ## The whole text -/

/-- **Texts with a blank line between them are read one after another**: where each has a line at
the margin and the first leaves no code block open, the tags of the whole are those of the first
followed by those of the second, and so are the code blocks. -/
theorem extract_append_blankLine {t₁ t₂ : Text} (h₁ : ∃ l ∈ lines t₁, AtMargin l)
    (h₂ : ∃ l ∈ lines t₂, AtMargin l) (hout : (Scan.start.run (contentLines t₁)).Outside) :
    (extract (t₁ ++ "\n\n".toList ++ t₂)).tags =
        (extract t₁).tags.followedBy (extract t₂).tags ∧
      (extract (t₁ ++ "\n\n".toList ++ t₂)).description.examples.map Example.block =
        (extract t₁).description.examples.map Example.block ++
          (extract t₂).description.examples.map Example.block := by
  have hlines : lines (t₁ ++ "\n\n".toList ++ t₂) = lines t₁ ++ [] :: lines t₂ := by
    rw [List.append_assoc]
    exact (lines_append_newline t₁ ('\n' :: t₂)).trans (by rw [lines_newline_cons])
  have hcontent : contentLines (t₁ ++ "\n\n".toList ++ t₂) =
      (lines t₁).map innerLine ++ [] :: contentLines t₂ := by
    obtain ⟨l, hl, hmargin⟩ := h₁
    obtain ⟨m, hm, hmargin'⟩ := h₂
    rw [contentLines_of_lines_append hlines (List.cons_ne_nil _ _) (List.mem_append_left _ hl)
      hmargin, unixLineList_cons _ (lines_ne_nil t₂), List.map_cons,
      ← contentLines_of_atMargin hm hmargin']
    rfl
  have hfollows := (Scan.follows_start hout).run (contentLines t₂)
  have hrun : Scan.start.run (contentLines (t₁ ++ "\n\n".toList ++ t₂)) =
      ((Scan.start.run (contentLines t₁)).step []).run (contentLines t₂) := by
    rw [hcontent, Scan.run_append, Scan.run_map_innerLine h₁ hout, Scan.run_cons]
  rw [extract_tags, extract_tags, extract_tags, extract_examples, extract_examples,
    extract_examples, hrun]
  exact ⟨hfollows.closeTag.tags, hfollows.blocks⟩

/-- The first text ends in an open tag and a carriage return, and both have code and a platform in
two cases of its letters. -/
theorem extract_append_blankLine_tag :
    let t₁ := "Text.\n```js\n@type a\n```\n  @platform ios\n@default 1\n 2\r".toList
    let t₂ := "  {@platform iOS, web} ~~~\nb\r\n~~~\n@default 3\n@type c".toList
    ((∃ l ∈ lines t₁, AtMargin l) ∧ (∃ l ∈ lines t₂, AtMargin l) ∧
      (Scan.start.run (contentLines t₁)).Outside) ∧
    (extract (t₁ ++ "\n\n".toList ++ t₂)).tags =
        (extract t₁).tags.followedBy (extract t₂).tags ∧
      (extract (t₁ ++ "\n\n".toList ++ t₂)).description.examples.map Example.block =
        (extract t₁).description.examples.map Example.block ++
          (extract t₂).description.examples.map Example.block := by
  intro t₁ t₂
  have h₁ : ∃ l ∈ lines t₁, AtMargin l := ⟨"Text.".toList, by decide +kernel, by decide +kernel⟩
  have h₂ : ∃ l ∈ lines t₂, AtMargin l := ⟨"~~~".toList, by decide +kernel, by decide +kernel⟩
  have hout : (Scan.start.run (contentLines t₁)).Outside := by
    apply Scan.outside_of_tag
      (t := ⟨.default, "1 2".toList, [], ["@default 1".toList, " 2".toList]⟩)
    decide +kernel
  exact ⟨⟨h₁, h₂, hout⟩, extract_append_blankLine h₁ h₂ hout⟩

end ComponentPages
