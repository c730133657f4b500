import ComponentPages.Proofs.Settled

/-!
# Reading a settled description

The lines of a settled description are read one after another, and what has been found so far is
known at every line.

- **`Scan.Holds`** — what a scan has found where only settled lines were read.
- **`Scan.Holds.step`**, **`Scan.Holds.run`** — a line that stays, and any number of them.
- **`Scan.Holds.run_block`**, **`Scan.Holds.run_examples`** — a closed code block, and examples.
- **`Description.Settled.extract_joined`** — a settled description is read back from its text.
-/

namespace ComponentPages

namespace Scan

/-! ## Lines of prose -/

/-- What a scan outside code blocks has found where no tag was recorded; an open tag counts as the
prose that it will become. -/
structure Holds (s : Scan) (prose : List Text) (opening? : Option Text)
    (examples : List Example) : Prop where
  outside : s.Outside
  gathered : s.closeTag.prose = prose
  untagged : s.closeTag.tags = .empty
  opened : s.opening? = opening?
  found : s.examples = examples
  bare : ∀ t, s.mode = .tag t → ∃ l ∈ prose.getLast?, BareTagLine l

theorem holds_start : start.Holds [] none [] where
  outside f hf := by cases hf
  gathered := rfl
  untagged := rfl
  opened := rfl
  found := rfl
  bare t ht := by cases ht

variable {s : Scan} {p : List Text} {o : Option Text} {es : List Example}

/-- In the prose nothing waits to be closed. -/
theorem Holds.of_prose (hmode : s.mode = .prose) (hprose : s.prose = p) (htags : s.tags = .empty)
    (ho : s.opening? = o) (hes : s.examples = es) : s.Holds p o es where
  outside := outside_of_prose hmode
  gathered := by rw [closeTag_of_prose hmode, hprose]
  untagged := by rw [closeTag_of_prose hmode, htags]
  opened := ho
  found := hes
  bare t ht := by rw [hmode] at ht; cases ht

/-- A line of prose is read as it stands. -/
theorem reading_of_proseLine {l : Text} (hl : ProseLine l) : s.reading l = Line.whole l := by
  cases hm : s.mode with
  | prose => rw [reading_of_prose hm, Line.ofText_eq_whole hl.directiveAt?]
  | tag t => rw [reading_of_tag hm]
  | fence f => rw [reading, hm]; exact Line.ofText_eq_whole hl.directiveAt?

/-- An empty line is added to the prose, unless there is one already. -/
theorem Holds.step_nil (h : s.Holds p o es) :
    (s.step []).Holds (if p.getLast? = some [] then p else p ++ [[]]) o es := by
  rw [step_of_blank h.outside (kind_reading_of_blank s rfl)]
  apply Holds.of_prose
  · rw [addBlank_mode, closeTag_mode h.outside]
  · rw [addBlank_prose, h.gathered]
  · rw [addBlank_tags, h.untagged]
  · rw [addBlank_opening?, closeTag_opening?, h.opened]
  · rw [addBlank_examples, closeTag_examples, h.found]

/-- A line of prose that may follow is added to the prose. -/
theorem Holds.step_proseLine (h : s.Holds p o es) {l : Text} (hl : ProseLine l)
    (hfollow : ∀ a ∈ p.getLast?, MayFollow a l) : (s.step l).Holds (p ++ [l]) o es := by
  have hreading := reading_of_proseLine (s := s) hl
  have hfree : DirectiveFree (trimEnd l) := by rw [hl.keepsEnd]; exact hl.free
  cases hb : blockTag? (trim l) with
  | some found =>
    obtain ⟨name, value⟩ := found
    have hkind : (s.reading l).kind = .tag name value := by
      rw [hreading, Line.kind_eq_tag_iff, Line.whole_rest, hb]
    rw [step_of_unknownTag h.outside hkind (hl.noTag name value hb)]
    obtain ⟨hprose, htags⟩ := addProse_of_free
      { s.closeTag with notices := s.closeTag.notices ++ [.unknownTag name] } hfree
    apply Holds.of_prose
    · exact closeTag_mode h.outside
    · rw [hprose, hl.keepsEnd]; exact congrArg (· ++ [l]) h.gathered
    · rw [htags]; exact h.untagged
    · exact (closeTag_opening? s).trans h.opened
    · exact (closeTag_examples s).trans h.found
  | none =>
    cases hm : s.mode with
    | fence f => exact absurd hm (h.outside f)
    | tag t =>
      -- the line would go on with the tag, but then it could not follow it
      obtain ⟨a, ha, hbare⟩ := h.bare t hm
      rcases (hfollow a ha).2 hbare with hnil | ⟨found, hfound⟩
      · exact absurd hnil hl.ne_nil
      · rw [hb] at hfound; cases hfound
    | prose =>
      have hkind : (Line.ofText l).kind = .plain := by
        rw [reading_of_prose hm] at hreading
        rw [hreading, Line.kind_eq_plain_iff]
        refine ⟨hl.noFence, hb, ?_⟩
        by_contra hblank
        rw [Bool.not_eq_false] at hblank
        exact hl.ne_nil ((plainEnd_of_trimEnd hl.keepsEnd).notBlank hblank)
      rw [step_of_plain hm hkind]
      obtain ⟨hprose, htags⟩ := addProse_of_free s hfree
      have hclose := closeTag_of_prose hm
      apply Holds.of_prose
      · exact hm
      · rw [hprose, hl.keepsEnd, ← h.gathered, hclose]
      · rw [htags, ← h.untagged, hclose]
      · exact h.opened
      · exact h.found

/-- A bare tag that may follow is opened, and counts as the prose that it will become. -/
theorem Holds.step_bareTagLine (h : s.Holds p o es) {l : Text} (hl : BareTagLine l)
    (hfollow : ∀ a ∈ p.getLast?, MayFollow a l) : (s.step l).Holds (p ++ [l]) o es := by
  obtain ⟨name, key, hkind, hkey⟩ := hl.isTag
  have hread : (s.reading l).kind = .tag name [] := by
    cases hm : s.mode with
    | fence f => exact absurd hm (h.outside f)
    | prose => rw [reading_of_prose hm, hkind]
    | tag t =>
      -- after another bare tag no directive can stand in front of this one
      obtain ⟨a, ha, hbare⟩ := h.bare t hm
      rcases (hfollow a ha).2 hbare with hnil | ⟨found, hfound⟩
      · rw [hnil, Line.kind_ofText_of_blank rfl] at hkind
        cases hkind
      · rw [reading_of_tag hm, ← Line.ofText_eq_whole (directiveAt?_of_blockTag? hfound), hkind]
  rw [step_of_tag h.outside hread hkey]
  have hclose := closeTag_of_blank
    (s := { s.closeTag with mode := .tag ⟨key, [], (s.reading l).directives, [trimEnd l]⟩ })
    (t := ⟨key, [], (s.reading l).directives, [trimEnd l]⟩) rfl rfl
  constructor
  · intro f hf; cases hf
  · rw [hclose, hl.keepsEnd]; exact congrArg (· ++ [l]) h.gathered
  · rw [hclose]; exact h.untagged
  · exact (closeTag_opening? s).trans h.opened
  · exact (closeTag_examples s).trans h.found
  · exact fun t ht => ⟨l, by simp, hl⟩

/-- **A line that stays is added to the prose.** -/
theorem Holds.step (h : s.Holds p o es) {l : Text} (hl : StaysInProse l)
    (hfollow : ∀ a ∈ p.getLast?, MayFollow a l) : (s.step l).Holds (p ++ [l]) o es := by
  rcases hl with rfl | hl | hl
  · have hlast : p.getLast? ≠ some [] := fun hp => (hfollow [] hp).1 rfl rfl
    have hstep := h.step_nil
    rwa [if_neg hlast] at hstep
  · exact h.step_proseLine hl hfollow
  · exact h.step_bareTagLine hl hfollow

/-- **Settled lines are added to the prose.** -/
theorem Holds.run {ls : List Text} (h : s.Holds p o es) (hls : SettledLines ls)
    (hfollow : ∀ a ∈ p.getLast?, ∀ b ∈ ls.head?, MayFollow a b) :
    (s.run ls).Holds (p ++ ls) o es := by
  induction ls generalizing s p with
  | nil => rwa [run_nil, List.append_nil]
  | cons l ls ih =>
    obtain ⟨hfirst, hrest⟩ := List.isChain_cons.1 hls.follow
    have hstep := h.step (hls.stays l (List.mem_cons_self ..)) fun a ha => hfollow a ha l rfl
    rw [run_cons, ← List.singleton_append, ← List.append_assoc]
    refine ih hstep hls.of_cons fun a ha => ?_
    rw [List.getLast?_append, List.getLast?_singleton, Option.some_or] at ha
    cases ha
    exact hfirst

/-! ## Code blocks -/

/-- An opening line opens its block. -/
theorem Holds.step_opening (h : s.Holds p o es) {opening : FenceOpening} {l : Text}
    (hl : OpeningLine opening l) :
    (s.step l).mode = .fence ⟨opening, l, []⟩ ∧ (s.step l).prose = p ∧
      (s.step l).tags = .empty ∧ (s.step l).opening? = o ∧ (s.step l).examples = es := by
  have hopens : fenceOpening? (trim l) = some opening := by rw [hl.trimmed, hl.opens]
  have hwhole := Line.ofText_eq_whole (directiveAt?_of_fenceOpening? hopens)
  have hreading : s.reading l = Line.whole l := by
    unfold reading
    split
    · rfl
    · exact hwhole
  have hkind : (s.reading l).kind = .fence opening := by
    rw [hreading, Line.kind_eq_fence_iff, Line.whole_rest, hopens]
  have hids : (stripDirectives (Line.whole l).directives).2 = [] := by
    rw [Line.whole_directives, stripDirectives_of_free directiveFree_nil]
  rw [step_of_opening h.outside hkind, hreading, Line.whole_rest, hl.trimmed, hids,
    TagSet.addPlatforms_nil]
  exact ⟨rfl, h.gathered, h.untagged, (closeTag_opening? s).trans h.opened,
    (closeTag_examples s).trans h.found⟩

/-- A block without an end leaves the scan inside it. -/
theorem Holds.run_unclosed (h : s.Holds p o es) {opening : FenceOpening} {first : Text}
    {body : List Text} (hfirst : OpeningLine opening first)
    (hbody : ∀ l ∈ body, CodeLine opening l) :
    (s.run (first :: body)).mode = .fence ⟨opening, first, body⟩ ∧
      (s.run (first :: body)).prose = p ∧ (s.run (first :: body)).tags = .empty ∧
      (s.run (first :: body)).opening? = o ∧ (s.run (first :: body)).examples = es := by
  obtain ⟨hmode, hrest⟩ := h.step_opening hfirst
  rw [run_cons, run_code hmode fun l hl => (hbody l hl).open_]
  exact ⟨rfl, hrest⟩

/-- **A closed block becomes an example**, and the prose before it its intro or the opening of the
description. -/
theorem Holds.run_block (h : s.Holds p o es) {e : Example} {opening : FenceOpening} {first : Text}
    {body : List Text} {closing : Text} (he : SettledBlock e opening first body closing)
    (hintro : e.intro = if o.isSome then proseText p else []) :
    (s.run (lines e.raw)).Holds [] (some (o.getD (proseText p))) (es ++ [e]) := by
  obtain ⟨hmode, hprose, htags, ho, hes⟩ := h.run_unclosed he.opens he.stays
  have hexample : exampleOf (s.run (first :: body)) ⟨opening, first, body⟩ closing = e := by
    rw [exampleOf, hprose, ho, ← hintro, he.trimmed, ← he.language, ← he.raw, ← he.code]
  rw [he.lines_raw, run_append, run_cons, run_nil, step_of_fence hmode, fenceLine]
  dsimp only
  rw [if_pos he.closes]
  apply Holds.of_prose
  · rfl
  · rfl
  · exact htags
  · rw [ho, hprose]
  · rw [hes]; exact congrArg (fun e => es ++ [e]) hexample

/-! ## Sections -/

@[simp] theorem proseText_nil : proseText [] = [] := rfl

/-- A blank line at the end of prose does not show. -/
theorem proseText_concat_nil (p : List Text) : proseText (p ++ [[]]) = proseText p := by
  by_cases hp : p = []
  · rw [hp]; rfl
  · rw [proseText, joinLines_append hp (by simp), joinLines_singleton, trim_eq_trimStart_trimEnd,
      trimEnd_append_of_blank _ (by rfl), ← trim_eq_trimStart_trimEnd, proseText]

/-- A blank line at the beginning of prose does not show. -/
theorem proseText_nil_cons (p : List Text) : proseText ([] :: p) = proseText p := by
  by_cases hp : p = []
  · rw [hp]; rfl
  · rw [proseText, joinLines_cons [] hp, List.nil_append, trim, ← List.singleton_append,
      trimStart_append_of_blank (by rfl), proseText, trim]

/-- The prose of the lines of a trimmed text is the text. -/
theorem proseText_lines {q : Text} (h : trim q = q) : proseText (lines q) = q := by
  rw [proseText, joinLines_lines, h]

/-- The line between two sections does not show in the prose. -/
theorem Holds.step_separator (h : s.Holds p o es) :
    ∃ p', (s.step []).Holds p' o es ∧ proseText p' = proseText p := by
  refine ⟨_, h.step_nil, ?_⟩
  split
  · rfl
  · exact proseText_concat_nil p

/-- The first line of a section of prose may follow an empty line. -/
theorem mayFollow_nil_first {q : Text} (htrim : trim q = q) (hne : q ≠ []) :
    ∀ b ∈ (lines q).head?, MayFollow [] b := by
  obtain ⟨c, l, ls, hls, -⟩ := lines_of_trim htrim hne
  rw [hls]
  intro b hb
  cases hb
  exact ⟨fun _ => List.cons_ne_nil _ _, fun hbare => absurd hbare not_bareTagLine_nil⟩

/-- **The sections of an example** after other sections: its intro, if it has one, and its block. -/
theorem Holds.run_example {text : Text} (h : s.Holds [] (some text) es) {e : Example}
    (he : SettledExample e) :
    (s.run (e.sections.flatMap fun q => [] :: lines q)).Holds [] (some text) (es ++ [e]) := by
  obtain ⟨opening, first, body, closing, hblock⟩ := he.block
  rw [Example.sections, List.flatMap_append, List.flatMap_singleton, run_append, run_cons]
  by_cases hintro : e.intro = []
  · rw [hintro, sectionOf_nil, List.flatMap_nil, run_nil]
    obtain ⟨p, hsep, hp⟩ := h.step_separator
    refine hsep.run_block hblock ?_
    rw [hintro, hp]
    rfl
  · have hlines : (s.run ([] :: lines e.intro)).Holds ([[]] ++ lines e.intro) (some text) es := by
      refine h.step_nil.run he.intro.settled fun a ha b hb => ?_
      cases ha
      exact mayFollow_nil_first he.intro.trimmed hintro b hb
    rw [sectionOf_of_ne_nil hintro, List.flatMap_singleton]
    obtain ⟨p, hsep, hp⟩ := hlines.step_separator
    refine hsep.run_block hblock ?_
    rw [hp, List.singleton_append, proseText_nil_cons, proseText_lines he.intro.trimmed]
    rfl

/-- The sections of any number of examples are read as these examples. -/
theorem Holds.run_examples {text : Text} (h : s.Holds [] (some text) es) {more : List Example}
    (hmore : ∀ e ∈ more, SettledExample e) :
    (s.run ((more.flatMap Example.sections).flatMap fun q => [] :: lines q)).Holds
      [] (some text) (es ++ more) := by
  induction more generalizing s es with
  | nil => rwa [List.flatMap_nil, List.flatMap_nil, run_nil, List.append_nil]
  | cons e more ih =>
    have hfirst := h.run_example (hmore e (List.mem_cons_self ..))
    have hrest := ih hfirst fun x hx => hmore x (List.mem_cons_of_mem _ hx)
    rw [List.flatMap_cons, List.flatMap_append, run_append]
    rwa [List.append_assoc, List.singleton_append] at hrest

/-- **The last section**: what is left at the end of the text is its prose, with or without a code
block that has no end. -/
theorem Holds.finish_run {q : Text} (h : s.Holds p o es) (hq : SettledEnd q)
    (hfollow : ∀ a ∈ p.getLast?, ∀ b ∈ (lines q).head?, MayFollow a b) :
    (s.run (lines q)).finish.prose = p ++ lines q ∧ (s.run (lines q)).finish.tags = .empty ∧
      (s.run (lines q)).finish.opening? = o ∧ (s.run (lines q)).finish.examples = es := by
  rcases hq.settled with hls | ⟨ls, opening, first, body, hlines, hls, hfirst, hbody⟩
  · have hrun := h.run hls hfollow
    rw [finish_of_outside hrun.outside]
    exact ⟨hrun.gathered, hrun.untagged, (closeTag_opening? _).trans hrun.opened,
      (closeTag_examples _).trans hrun.found⟩
  · have hrun := h.run hls fun a ha b hb =>
      hfollow a ha b (by rw [hlines, List.head?_append, hb]; rfl)
    obtain ⟨hmode, hprose, htags, ho, hes⟩ := hrun.run_unclosed hfirst hbody
    rw [hlines, run_append, finish_of_fence hmode]
    exact ⟨by rw [hprose, List.append_assoc], htags, ho, hes⟩

/-- **The footer** after the last example, and the end of the text. -/
theorem Holds.finish_footer {text footer : Text} (h : s.Holds [] (some text) es)
    (hfooter : SettledEnd footer) :
    ((s.run ((sectionOf footer).flatMap fun q => [] :: lines q)).finish.description =
        ⟨text, es, footer⟩) ∧
      (s.run ((sectionOf footer).flatMap fun q => [] :: lines q)).finish.tags = .empty := by
  by_cases hnil : footer = []
  · rw [hnil, sectionOf_nil, List.flatMap_nil, run_nil, finish_of_outside h.outside, description,
      closeTag_opening?, h.opened, closeTag_examples, h.found, h.gathered]
    exact ⟨rfl, h.untagged⟩
  · obtain ⟨hprose, htags, ho, hes⟩ := h.step_nil.finish_run hfooter fun a ha b hb => by
      cases ha
      exact mayFollow_nil_first hfooter.trimmed hnil b hb
    rw [sectionOf_of_ne_nil hnil, List.flatMap_singleton, run_cons, description, ho, hes, hprose]
    refine ⟨?_, htags⟩
    rw [if_neg (by simp), List.nil_append, List.singleton_append, proseText_nil_cons,
      proseText_lines hfooter.trimmed]

end Scan

/-! ## The text of a settled description -/

/-- Where no line has blanks or a carriage return to lose, the lines of a trimmed text are read as
they are. -/
theorem contentLines_of_plainEnd {s : Text} (htrim : trim s = s)
    (h : ∀ l ∈ lines s, PlainEnd l) : contentLines s = lines s := by
  rw [contentLines_of_trim htrim, unixLineList_eq_self fun l hl => (h l hl).noReturn]
  refine (List.map_congr_left fun l hl => ?_).trans (List.map_id _)
  rw [outdentLine_zero]
  split
  · next hblank => exact ((h l hl).notBlank hblank).symm
  · rfl

/-- Trimmed sections with blank lines between them are trimmed. -/
theorem trim_joinSections {ps : List Text} (h : ∀ p ∈ ps, trim p = p ∧ p ≠ []) :
    trim (joinSections ps) = joinSections ps := by
  have hnot {p : Text} (hp : trim p = p ∧ p ≠ []) : isBlankText p = false := by
    by_contra hblank
    rw [Bool.not_eq_false, ← trim_eq_nil_iff, hp.1] at hblank
    exact hp.2 hblank
  induction ps with
  | nil => rfl
  | cons p ps ih =>
    have hp := h p (List.mem_cons_self ..)
    have hps := ih fun q hq => h q (List.mem_cons_of_mem _ hq)
    cases ps with
    | nil => rw [joinSections, joinWith_singleton, hp.1]
    | cons q qs =>
      have hq := h q (List.mem_cons_of_mem _ (List.mem_cons_self ..))
      have hrest : isBlankText (joinSections (q :: qs)) = false := by
        have hpart : isBlankText q = true → isBlankText (joinSections (q :: qs)) = false := by
          rw [hnot hq]; intro hfalse; cases hfalse
        cases qs with
        | nil => rw [joinSections, joinWith_singleton, hnot hq]
        | cons r rs =>
          rw [joinSections, joinWith_cons_cons, isBlankText_append, isBlankText_append, hnot hq]
          rfl
      have hjoin : joinSections (p :: q :: qs) =
          (p ++ ['\n']) ++ '\n' :: joinSections (q :: qs) := by
        rw [joinSections, joinWith_cons_cons, joinSections]
        simp
      have hfirst : isBlankText (p ++ ['\n']) = false := by
        rw [isBlankText_append, hnot hp, Bool.false_and]
      rw [hjoin, trim_eq_self_iff]
      constructor
      · rw [trimStart_append hfirst, trimStart_append (hnot hp), (trim_eq_self_iff.1 hp.1).1]
      · rw [trimEnd_append_cons _ _ hrest, (trim_eq_self_iff.1 hps).2]

/-- A section of its own is the text, which is not empty. -/
theorem mem_sectionOf {s p : Text} : p ∈ sectionOf s ↔ p = s ∧ s ≠ [] := by
  cases s with
  | nil => simp
  | cons c s => simp

namespace Description

variable {d : Description}

/-- All sections of a settled description are trimmed and not empty, and their lines have nothing to
lose. -/
theorem Settled.sections (h : d.Settled) :
    ∀ p ∈ d.sections, (trim p = p ∧ p ≠ []) ∧ ∀ l ∈ lines p, PlainEnd l := by
  have hend {s : Text} (hs : SettledEnd s) (hne : s ≠ []) :
      (trim s = s ∧ s ≠ []) ∧ ∀ l ∈ lines s, PlainEnd l := ⟨⟨hs.trimmed, hne⟩, hs.plainEnd⟩
  intro p hp
  rw [Description.sections, List.mem_append, List.mem_append, mem_sectionOf, mem_sectionOf,
    List.mem_flatMap] at hp
  by_cases hes : d.examples = []
  · obtain ⟨htext, hfooter⟩ := h.whole hes
    rcases hp with (⟨rfl, hne⟩ | ⟨e, he, -⟩) | ⟨rfl, hne⟩
    · exact hend htext hne
    · rw [hes] at he; cases he
    · exact absurd hfooter hne
  · obtain ⟨htext, hfooter⟩ := h.parts hes
    rcases hp with (⟨rfl, hne⟩ | ⟨e, he, hpe⟩) | ⟨rfl, hne⟩
    · exact hend htext.atEnd hne
    · obtain ⟨opening, first, body, closing, hblock⟩ := (h.examples e he).block
      rw [Example.sections, List.mem_append, mem_sectionOf, List.mem_singleton] at hpe
      rcases hpe with ⟨rfl, hne⟩ | rfl
      · exact hend (h.examples e he).intro.atEnd hne
      · refine ⟨⟨hblock.trim_raw, fun hnil => ?_⟩, hblock.plainEnd⟩
        have hlines := hblock.lines_raw
        rw [hnil, lines_nil, List.cons_append] at hlines
        exact absurd (List.cons.inj hlines).2.symm (by simp)
    · exact hend hfooter hne

/-- The lines of a settled description are read as they are. -/
theorem Settled.contentLines_joined (h : d.Settled) : contentLines d.joined = lines d.joined := by
  refine contentLines_of_plainEnd (trim_joinSections fun p hp => (h.sections p hp).1) ?_
  intro l hl
  rw [Description.joined] at hl
  cases hsections : d.sections with
  | nil =>
    rw [hsections] at hl
    rw [List.mem_singleton.1 hl]
    exact plainEnd_nil
  | cons p ps =>
    have hplain := h.sections
    rw [hsections] at hplain
    rw [hsections, lines_joinSections_cons, List.mem_append, List.mem_flatMap] at hl
    rcases hl with hl | ⟨q, hq, hl⟩
    · exact (hplain p (List.mem_cons_self ..)).2 l hl
    · rcases List.mem_cons.1 hl with rfl | hl
      · exact plainEnd_nil
      · exact (hplain q (List.mem_cons_of_mem _ hq)).2 l hl

/-- A settled description without examples is read back from its text. -/
theorem Settled.finish_whole (h : d.Settled) (hes : d.examples = []) :
    (Scan.start.run (lines d.joined)).finish.description = d ∧
      (Scan.start.run (lines d.joined)).finish.tags = .empty := by
  obtain ⟨htext, hfooter⟩ := h.whole hes
  have hjoined : d.joined = d.text := by
    rw [joined, Description.sections, hes, hfooter, List.flatMap_nil, sectionOf_nil,
      List.append_nil, List.append_nil]
    cases htext : d.text with
    | nil => rfl
    | cons c s => rw [sectionOf_cons, joinSections, joinWith_singleton]
  obtain ⟨hprose, htags, ho, hfound⟩ :=
    Scan.holds_start.finish_run htext fun a ha => by cases ha
  rw [hjoined, Scan.description, ho, hfound, hprose, List.nil_append]
  refine ⟨?_, htags⟩
  dsimp only
  rw [Scan.proseText_lines htext.trimmed, ← hes, ← hfooter]

/-- A settled description with examples is read back from its text. -/
theorem Settled.finish_parts (h : d.Settled) {e : Example} {es : List Example}
    (hes : d.examples = e :: es) :
    (Scan.start.run (lines d.joined)).finish.description = d ∧
      (Scan.start.run (lines d.joined)).finish.tags = .empty := by
  obtain ⟨htext, hfooter⟩ := h.parts (by rw [hes]; exact List.cons_ne_nil _ _)
  have hall := h.examples
  rw [hes] at hall
  have hintro : e.intro = [] := h.firstIntro e (by rw [hes]; rfl)
  obtain ⟨opening, first, body, closing, hblock⟩ := (hall e (List.mem_cons_self ..)).block
  -- all but the lines up to the end of the first block
  have htail {s : Scan} (hs : s.Holds [] (some d.text) [e]) :
      (s.run ((es.flatMap Example.sections ++ sectionOf d.footer).flatMap
          fun q => [] :: lines q)).finish.description = d ∧
        (s.run ((es.flatMap Example.sections ++ sectionOf d.footer).flatMap
          fun q => [] :: lines q)).finish.tags = .empty := by
    have hrun := hs.run_examples fun x hx => hall x (List.mem_cons_of_mem _ hx)
    obtain ⟨hdescription, htags⟩ := hrun.finish_footer hfooter
    rw [List.flatMap_append, Scan.run_append]
    refine ⟨hdescription.trans ?_, htags⟩
    rw [List.singleton_append, ← hes]
  have hsections : d.sections =
      sectionOf d.text ++ (e.raw :: (es.flatMap Example.sections ++ sectionOf d.footer)) := by
    rw [Description.sections, hes, List.flatMap_cons, Example.sections, hintro, sectionOf_nil]
    simp
  rw [joined, hsections]
  by_cases hnil : d.text = []
  · have hrun := Scan.holds_start.run_block hblock (by rw [hintro]; rfl)
    rw [Scan.proseText_nil, Option.getD_none, ← hnil, List.nil_append] at hrun
    rw [hnil, sectionOf_nil, List.nil_append, lines_joinSections_cons, Scan.run_append]
    exact htail hrun
  · have hprose := Scan.holds_start.run htext.settled fun a ha => by cases ha
    obtain ⟨p, hsep, hp⟩ := hprose.step_separator
    have hrun := hsep.run_block hblock (by rw [hintro]; rfl)
    rw [hp, List.nil_append, Scan.proseText_lines htext.trimmed, Option.getD_none,
      List.nil_append] at hrun
    rw [sectionOf_of_ne_nil hnil, List.singleton_append, lines_joinSections_cons,
      List.flatMap_cons, Scan.run_append, Scan.run_append, Scan.run_cons]
    exact htail hrun

/-- **A settled description is read back from its text**, and no tag is found. -/
theorem Settled.extract_joined (h : d.Settled) :
    (extract d.joined).description = d ∧ (extract d.joined).tags = .empty := by
  simp only [extract, h.contentLines_joined]
  cases hes : d.examples with
  | nil => exact h.finish_whole hes
  | cons e es => exact h.finish_parts hes

end Description

end ComponentPages
