import ComponentPages.Proofs.SettledScan

/-!
# What is shown of a text

Two facts about every text, whatever its tags and code blocks are: what is shown has no blanks at
its ends, and it holds no character more often than the text does, line feeds apart.

- **`Scan.Trimmed`** — the finished parts of a scan have no blanks at their ends.
- **`trim_cleanText`** — neither has the whole.
- **`Scan.held`** — all that a scan may still show.
- **`count_cleanText_le`** — nothing is made up.
-/

namespace ComponentPages

/-! ## Opening lines -/

/-- The end of a text without blanks at its own end has none. -/
theorem trimEnd_eq_self_of_isSuffix {s t : Text} (h : t <:+ s) (hs : trimEnd s = s) :
    trimEnd t = t := by
  refine (List.rdropWhile_eq_self_iff (p := isBlank)).2 fun hne => ?_
  have hlast : s.getLast? = some (t.getLast hne) := by
    obtain ⟨before, rfl⟩ := h
    rw [List.getLast?_append_of_ne_nil before hne, List.getLast?_eq_some_getLast hne]
  rw [isBlank_getLast_of_trimEnd hs hlast]
  exact Bool.false_ne_true

namespace Scan

/-- What a line is without its directives is the end of the line. -/
theorem reading_rest_isSuffix (s : Scan) (l : Text) : (s.reading l).rest <:+ trim l := by
  unfold reading
  split
  · exact List.suffix_refl _
  · exact Line.ofText_rest_suffix l

/-- A line that opens a code block is kept without its directives and the blanks around it. -/
theorem openingLine_of_reading {s : Scan} {l : Text} {opening : FenceOpening} (hnl : '\n' ∉ l)
    (hkind : (s.reading l).kind = .fence opening) : OpeningLine opening (s.reading l).rest := by
  have hsuffix := s.reading_rest_isSuffix l
  rw [Line.kind_eq_fence_iff] at hkind
  refine ⟨trim_eq_self_iff.2 ⟨?_, trimEnd_eq_self_of_isSuffix hsuffix (trimEnd_trim l)⟩, hkind,
    fun hmem => hnl ((trim_isInfix l).subset (hsuffix.subset hmem))⟩
  cases hrest : (s.reading l).rest with
  | nil => rfl
  | cons c rest =>
    rw [hrest] at hkind
    exact trimStart_cons_of_not_blank
      (isBlank_of_isFenceMarker (isFenceMarker_of_fenceOpening? hkind)) rest

/-! ## Trimmed parts -/

/-- The finished parts have no blanks at their ends, and neither has the first line of an open code
block. -/
structure Trimmed (s : Scan) : Prop where
  opening : ∀ text ∈ s.opening?, trim text = text
  examples : ∀ e ∈ s.examples, trim e.intro = e.intro ∧ trim e.raw = e.raw ∧ e.raw ≠ []
  fence : ∀ f, s.mode = .fence f → OpeningLine f.opening f.firstLine

theorem trimmed_start : start.Trimmed where
  opening text htext := by cases htext
  examples e he := by cases he
  fence f hf := by cases hf

/-- Prose that is put together is trimmed. -/
@[simp] theorem trim_proseText (p : List Text) : trim (proseText p) = proseText p := trim_trim _

/-- Outside code blocks it is the finished parts that matter. -/
theorem Trimmed.of_outside {s s' : Scan} (h : s.Trimmed) (hopening : s'.opening? = s.opening?)
    (hexamples : s'.examples = s.examples) (hout : s'.Outside) : s'.Trimmed where
  opening := by rw [hopening]; exact h.opening
  examples := by rw [hexamples]; exact h.examples
  fence f hf := absurd hf (hout f)

/-- The example that a closed code block becomes is trimmed. -/
theorem Trimmed.exampleOf {s : Scan} (h : s.Trimmed) {f : OpenFence} {l : Text}
    (hmode : s.mode = .fence f) (hclose : f.opening.closedBy l = true) :
    trim (s.exampleOf f l).intro = (s.exampleOf f l).intro ∧
      trim (s.exampleOf f l).raw = (s.exampleOf f l).raw ∧ (s.exampleOf f l).raw ≠ [] := by
  have hfirst := h.fence f hmode
  have hclosing : isBlankText (trim l) = false := by
    rw [isBlankText_trim]; exact not_blank_of_closedBy hfirst.opens hclose
  have hraw : trim (s.exampleOf f l).raw = (s.exampleOf f l).raw :=
    trim_joinLines_block hfirst.trimmed hfirst.not_blank (trim_trim l) hclosing
  refine ⟨?_, hraw, ?_⟩
  · dsimp only [Scan.exampleOf]
    split
    · exact trim_proseText _
    · rfl
  · dsimp only [Scan.exampleOf]
    rw [joinLines_append (by simp) (by simp)]
    simp

/-- **A line leaves the parts trimmed.** -/
theorem Trimmed.step {s : Scan} (h : s.Trimmed) {l : Text} (hnl : '\n' ∉ l) :
    (s.step l).Trimmed := by
  have hstep := s.step_spec l
  generalize s.step l = s' at hstep ⊢
  cases hstep with
  | code f hmode hopen =>
    refine ⟨h.opening, h.examples, fun f' hf' => ?_⟩
    cases hf'
    exact h.fence f hmode
  | close f hmode hclose =>
    refine ⟨fun text htext => ?_, fun e he => ?_, fun f' hf' => by cases hf'⟩
    · cases htext
      cases hopening : s.opening? with
      | none => exact trim_proseText _
      | some text => exact h.opening text hopening
    · rcases List.mem_append.1 he with he | he
      · exact h.examples e he
      · rw [List.mem_singleton.1 he]
        exact h.exampleOf hmode hclose
  | fence opening hout hkind =>
    refine ⟨?_, ?_, fun f hf => ?_⟩
    · rw [closeTag_opening?]; exact h.opening
    · rw [closeTag_examples]; exact h.examples
    · cases hf
      exact openingLine_of_reading hnl hkind
  | tag key name value hout hkind hkey =>
    exact h.of_outside (closeTag_opening? s) (closeTag_examples s) fun f hf => by cases hf
  | unknownTag name value hout hkind hkey =>
    exact h.of_outside (closeTag_opening? s) (closeTag_examples s)
      (outside_of_prose (closeTag_mode hout))
  | blank hout hkind =>
    refine h.of_outside (by simp) (by simp) (outside_of_prose ?_)
    rw [addBlank_mode, closeTag_mode hout]
  | continued t hmode hkind => exact h.of_outside rfl rfl (outside_of_tag rfl)
  | prose hmode hkind => exact h.of_outside rfl rfl (outside_of_prose hmode)

/-- **Any number of lines leave the parts trimmed.** -/
theorem Trimmed.run {s : Scan} (h : s.Trimmed) {ls : List Text} (hnl : ∀ l ∈ ls, '\n' ∉ l) :
    (s.run ls).Trimmed := by
  induction ls generalizing s with
  | nil => exact h
  | cons l ls ih =>
    exact ih (h.step (hnl l (List.mem_cons_self ..))) fun m hm => hnl m (List.mem_cons_of_mem _ hm)

/-- After the end nothing is open. -/
theorem outside_finish (s : Scan) : s.finish.Outside := by
  rcases s.outside_or_fence with hout | ⟨f, hmode⟩
  · intro f hf
    rw [finish_of_outside hout, closeTag_mode hout] at hf
    cases hf
  · rw [finish_of_fence hmode]
    exact fun f' hf' => by cases hf'

/-- **The end of the text leaves the parts trimmed.** -/
theorem Trimmed.finish {s : Scan} (h : s.Trimmed) : s.finish.Trimmed :=
  h.of_outside (finish_opening? s) (finish_examples s) s.outside_finish

end Scan

/-- No line that is read holds a line feed. -/
theorem newline_not_mem_of_mem_contentLines {s l : Text} (h : l ∈ contentLines s) : '\n' ∉ l :=
  newline_not_mem_of_mem_lines h

/-- The parts of a description that a scan has read are trimmed. -/
theorem Scan.Trimmed.description {s : Scan} (h : s.Trimmed) :
    trim s.description.text = s.description.text ∧
      (∀ e ∈ s.description.examples,
        trim e.intro = e.intro ∧ trim e.raw = e.raw ∧ e.raw ≠ []) ∧
      trim s.description.footer = s.description.footer := by
  unfold Scan.description
  split
  · next text htext => exact ⟨h.opening text htext, h.examples, Scan.trim_proseText _⟩
  · exact ⟨Scan.trim_proseText _, h.examples, rfl⟩

/-- The parts of the description of a text are trimmed, and no block is empty. -/
theorem trim_description (t : Text) :
    trim (extract t).description.text = (extract t).description.text ∧
      (∀ e ∈ (extract t).description.examples,
        trim e.intro = e.intro ∧ trim e.raw = e.raw ∧ e.raw ≠ []) ∧
      trim (extract t).description.footer = (extract t).description.footer := by
  have hrun : (Scan.start.run (contentLines t)).Trimmed :=
    Scan.trimmed_start.run fun l hl => newline_not_mem_of_mem_contentLines hl
  exact hrun.finish.description

/-- **What is shown has no blanks at its ends.** -/
theorem trim_cleanText (t : Text) : trim (extract t).cleanText = (extract t).cleanText := by
  obtain ⟨htext, hexamples, hfooter⟩ := trim_description t
  refine trim_joinSections fun p hp => ?_
  have hsection {q : Text} (hq : trim q = q) (hp : p ∈ sectionOf q) : trim p = p ∧ p ≠ [] := by
    obtain ⟨rfl, hne⟩ := mem_sectionOf.1 hp
    exact ⟨hq, hne⟩
  rcases List.mem_append.1 hp with hp | hp
  · rcases List.mem_append.1 hp with hp | hp
    · exact hsection htext hp
    · obtain ⟨e, he, hp⟩ := List.mem_flatMap.1 hp
      obtain ⟨hintro, hraw⟩ := hexamples e he
      rcases List.mem_append.1 hp with hp | hp
      · exact hsection hintro hp
      · rw [List.mem_singleton.1 hp]; exact hraw
  · exact hsection hfooter hp

/-! ## Nothing is made up -/

section Count

variable {c : Char}

/-- Lines that are put together hold what they hold, line feeds apart. -/
theorem count_joinLines (hc : c ≠ '\n') (ls : List Text) :
    (joinLines ls).count c = ls.flatten.count c := by
  induction ls with
  | nil => rfl
  | cons l ls ih =>
    by_cases hls : ls = []
    · rw [hls, joinLines_singleton, List.flatten_singleton]
    · rw [joinLines_cons l hls, List.flatten_cons, List.count_append, List.count_append,
        List.count_cons_of_ne hc.symm, ih]

/-- Sections that are put together hold what they hold, line feeds apart. -/
theorem count_joinSections (hc : c ≠ '\n') (ps : List Text) :
    (joinSections ps).count c = ps.flatten.count c := by
  induction ps with
  | nil => rfl
  | cons p ps ih =>
    cases ps with
    | nil => rw [joinSections, joinWith_singleton, List.flatten_singleton]
    | cons q ps =>
      have hsep : ['\n', '\n'].count c = 0 :=
        List.count_eq_zero.2 fun hmem => hc (by simpa using hmem)
      rw [joinSections] at ih ⊢
      rw [joinWith_cons_cons, List.flatten_cons, List.count_append, List.count_append, hsep, ih,
        List.count_append, Nat.add_zero]

/-- A text as a section of its own holds what it holds. -/
@[simp] theorem flatten_sectionOf (s : Text) : (sectionOf s).flatten = s := by
  cases s with
  | nil => rfl
  | cons c s => rw [sectionOf_cons, List.flatten_singleton]

theorem count_trim_le (s : Text) : (trim s).count c ≤ s.count c :=
  (trim_isInfix s).sublist.count_le c

theorem count_trimEnd_le (s : Text) : (trimEnd s).count c ≤ s.count c :=
  (trimEnd_isPrefix s).sublist.count_le c

/-- Prose that is put together holds no more than its lines. -/
theorem count_proseText_le (hc : c ≠ '\n') (p : List Text) :
    (Scan.proseText p).count c ≤ p.flatten.count c :=
  (count_trim_le _).trans (count_joinLines hc p).le

/-- The lines that are read of a text hold no more than the text with uniform line ends. -/
theorem count_contentLines_le (hc : c ≠ '\n') (t : Text) :
    (contentLines t).flatten.count c ≤ (unixLines t).count c := by
  have hlines := count_joinLines hc (lines (unixLines t))
  rw [joinLines_lines] at hlines
  rw [hlines, contentLines_eq, outdentLines]
  generalize commonIndent (lines (unixLines t)) = n
  induction lines (unixLines t) with
  | nil => exact Nat.le_refl _
  | cons l ls ih =>
    have hl : (outdentLine n l).count c ≤ l.count c := by
      unfold outdentLine
      split
      · exact Nat.zero_le _
      · exact (List.drop_sublist n l).count_le c
    rw [List.map_cons, List.flatten_cons, List.flatten_cons, List.count_append, List.count_append]
    omega

end Count

/-- The lines of an open tag or code block: they are shown if nothing comes of it. -/
def Mode.held : Mode → List Text
  | .prose => []
  | .tag t => t.rawLines
  | .fence f => f.firstLine :: f.body

namespace Scan

/-- All that a scan may still show. -/
def held (s : Scan) : Text :=
  s.opening?.getD [] ++ s.examples.flatMap (fun e => e.intro ++ e.raw) ++ s.prose.flatten ++
    s.mode.held.flatten

variable {c : Char}

/-- A character is held as often as in the opening, the examples, the prose and what is open
together. -/
theorem count_held (s : Scan) :
    s.held.count c = (s.opening?.getD []).count c +
      (s.examples.flatMap fun e => e.intro ++ e.raw).count c + s.prose.flatten.count c +
        s.mode.held.flatten.count c := by
  rw [held, List.count_append, List.count_append, List.count_append]

/-- Closing a tag makes nothing up. -/
theorem count_held_closeTag_le (s : Scan) : s.closeTag.held.count c ≤ s.held.count c := by
  cases hmode : s.mode with
  | prose => rw [closeTag_of_prose hmode]
  | fence f => rw [closeTag_of_ne fun t ht => by rw [hmode] at ht; cases ht]
  | tag t =>
    cases hv : isBlankText t.value with
    | true =>
      rw [closeTag_of_blank hmode hv, count_held, count_held, hmode]
      dsimp only [Mode.held]
      rw [List.flatten_append, List.count_append, List.flatten_nil, List.count_nil]
      omega
    | false =>
      rw [closeTag_of_value hmode hv, count_held, count_held]
      dsimp only [Mode.held]
      rw [List.flatten_nil, List.count_nil]
      omega

/-- What is opened where no tag is open is held besides all else. -/
theorem count_held_opened {s : Scan} (hout : s.Outside) (tags : TagSet) (m : Mode) :
    { s.closeTag with tags := tags, mode := m }.held.count c =
      s.closeTag.held.count c + m.held.flatten.count c := by
  rw [count_held, count_held, closeTag_mode hout]
  dsimp only [Mode.held]
  rw [List.flatten_nil, List.count_nil, Nat.add_zero]

/-- A line of prose adds no more than the line. -/
theorem count_held_addProse_le (s : Scan) (l : Text) :
    (s.addProse l).held.count c ≤ s.held.count c + l.count c := by
  have hline : (trimEnd (stripDirectives (trimEnd l)).1).count c ≤ l.count c :=
    (count_trimEnd_le _).trans
      (((stripDirectives_sublist _).count_le c).trans (count_trimEnd_le l))
  rw [count_held, count_held, addProse_prose, addProse_opening?, addProse_examples, addProse_mode]
  split
  · omega
  · rw [List.flatten_append, List.count_append, List.flatten_singleton]
    omega

/-- A blank line adds nothing. -/
theorem count_held_addBlank (s : Scan) : s.addBlank.held.count c = s.held.count c := by
  rw [count_held, count_held, addBlank_prose, addBlank_opening?, addBlank_examples, addBlank_mode]
  split
  · rfl
  · rw [List.flatten_append, List.count_append, List.flatten_singleton, List.count_nil,
      Nat.add_zero]

/-- The example of a closed code block holds no more than the prose before it, the block and the
closing line. -/
theorem count_exampleOf_le (hc : c ≠ '\n') (s : Scan) (f : OpenFence) (l : Text) :
    (s.opening?.getD (proseText s.prose)).count c + (s.exampleOf f l).intro.count c +
        (s.exampleOf f l).raw.count c ≤
      (s.opening?.getD []).count c + s.prose.flatten.count c +
        (f.firstLine :: f.body).flatten.count c + l.count c := by
  have hprose := count_proseText_le hc s.prose
  have hl := count_trim_le (c := c) l
  dsimp only [exampleOf]
  rw [count_joinLines hc, List.flatten_append, List.count_append, List.flatten_singleton]
  cases s.opening? with
  | none =>
    dsimp only [Option.getD, Option.isSome]
    rw [if_neg Bool.false_ne_true, List.count_nil]
    omega
  | some text =>
    dsimp only [Option.getD, Option.isSome]
    rw [if_pos rfl]
    omega

/-- **A line adds no more than the line.** -/
theorem count_held_step_le (hc : c ≠ '\n') (s : Scan) (l : Text) :
    (s.step l).held.count c ≤ s.held.count c + l.count c := by
  have hclose := count_held_closeTag_le (c := c) s
  have hstep := s.step_spec l
  generalize s.step l = s' at hstep ⊢
  cases hstep with
  | code f hmode hopen =>
    rw [count_held, count_held, hmode]
    dsimp only [Mode.held]
    rw [← List.cons_append, List.flatten_append, List.count_append, List.flatten_singleton]
    omega
  | close f hmode hclosed =>
    have hexample := count_exampleOf_le hc s f l
    rw [count_held, count_held, hmode]
    dsimp only [Mode.held]
    rw [List.flatMap_append, List.count_append, List.flatMap_singleton, List.count_append,
      List.flatten_nil, List.count_nil, Option.getD_some]
    omega
  | fence opening hout hkind =>
    have hrest : (s.reading l).rest.count c ≤ l.count c :=
      ((s.reading_rest_isSuffix l).sublist.count_le c).trans (count_trim_le l)
    rw [count_held_opened hout]
    dsimp only [Mode.held]
    rw [List.flatten_singleton]
    omega
  | tag key name value hout hkind hkey =>
    have hl := count_trimEnd_le (c := c) l
    rw [count_held_opened hout s.closeTag.tags]
    dsimp only [Mode.held]
    rw [List.flatten_singleton]
    omega
  | unknownTag name value hout hkind hkey =>
    have hprose := count_held_addProse_le (c := c)
      { s.closeTag with notices := s.closeTag.notices ++ [.unknownTag name] } l
    exact hprose.trans (Nat.add_le_add_right hclose _)
  | blank hout hkind =>
    rw [count_held_addBlank]
    exact hclose.trans (Nat.le_add_right _ _)
  | continued t hmode hkind =>
    have hl := count_trimEnd_le (c := c) l
    rw [count_held, count_held, hmode]
    dsimp only [Mode.held]
    rw [List.flatten_append, List.count_append, List.flatten_singleton]
    omega
  | prose hmode hkind => exact count_held_addProse_le s l

/-- **Any number of lines add no more than they hold.** -/
theorem count_held_run_le (hc : c ≠ '\n') (s : Scan) (ls : List Text) :
    (s.run ls).held.count c ≤ s.held.count c + ls.flatten.count c := by
  induction ls generalizing s with
  | nil => exact Nat.le_refl _
  | cons l ls ih =>
    have hstep := count_held_step_le hc s l
    have hrest := ih (s.step l)
    rw [run_cons, List.flatten_cons, List.count_append]
    omega

/-- The end of the text makes nothing up. -/
theorem count_held_finish_le (s : Scan) : s.finish.held.count c ≤ s.held.count c := by
  rcases s.outside_or_fence with hout | ⟨f, hmode⟩
  · rw [finish_of_outside hout]
    exact count_held_closeTag_le s
  · rw [finish_of_fence hmode, count_held, count_held, hmode]
    dsimp only [Mode.held]
    rw [List.flatten_append, List.count_append, List.flatten_nil, List.count_nil]
    omega

/-- A description holds no more than the scan that read it. -/
theorem count_joined_description_le (hc : c ≠ '\n') (s : Scan) :
    s.description.joined.count c ≤ s.held.count c := by
  have hprose := count_proseText_le hc s.prose
  have hexamples (es : List Example) : (es.flatMap Example.sections).flatten.count c =
      (es.flatMap fun e => e.intro ++ e.raw).count c := by
    induction es with
    | nil => rfl
    | cons e es ih =>
      rw [List.flatMap_cons, List.flatten_append, List.flatMap_cons, List.count_append, ih,
        List.count_append, Example.sections, List.flatten_append, flatten_sectionOf,
        List.flatten_singleton]
  rw [Description.joined, count_joinSections hc, Description.sections, List.flatten_append,
    List.flatten_append, flatten_sectionOf, flatten_sectionOf, List.count_append,
    List.count_append, hexamples, count_held, description]
  cases s.opening? with
  | none =>
    dsimp only [Option.getD]
    rw [List.count_nil]
    omega
  | some text =>
    dsimp only [Option.getD]
    omega

end Scan

/-- **Nothing is made up**: no character is shown more often than the text holds it, line feeds
apart. -/
theorem count_cleanText_le {c : Char} (hc : c ≠ '\n') (t : Text) :
    (extract t).cleanText.count c ≤ (unixLines t).count c := by
  have hrun := Scan.count_held_run_le hc Scan.start (contentLines t)
  have hstart : Scan.start.held.count c = 0 := rfl
  calc (extract t).cleanText.count c
      ≤ (Scan.start.run (contentLines t)).finish.held.count c :=
        Scan.count_joined_description_le hc _
    _ ≤ (Scan.start.run (contentLines t)).held.count c := Scan.count_held_finish_le _
    _ ≤ (contentLines t).flatten.count c := by rwa [hstart, Nat.zero_add] at hrun
    _ ≤ (unixLines t).count c := count_contentLines_le hc t

end ComponentPages
