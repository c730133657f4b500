import ComponentPages.Proofs.Scanning

/-!
# Code is opaque

The lines of a code block reach the example of this block and nothing else: neither the tags nor the
prose, and none of the examples before and after it.

- **`Scan.withExamples`**, **`Scan.run_withExamples`** — no line looks at the examples found before.
- **`Scan.outline`**, **`Scan.outline_run_map_innerLine`** — what is left of a scan without its code
  depends neither on the code nor on the blanks at the ends of lines.
- **`Scan.run_block`** — a code block is read from inside to its closing line.
- **`extract_exchangeCode`** — the whole text with other lines in one of its code blocks.
-/

namespace ComponentPages

namespace Scan

variable {s s' : Scan}

/-! ## Examples that were found -/

/-- The scan with other examples found. -/
def withExamples (s : Scan) (es : List Example) : Scan := { s with examples := es }

/-- The example that a line completes, if it closes a code block. -/
def completed (s : Scan) (l : Text) : List Example :=
  match s.mode with
  | .fence f => if f.opening.closedBy l then [s.exampleOf f l] else []
  | _ => []

theorem completed_of_outside (h : s.Outside) (l : Text) : s.completed l = [] := by
  unfold completed
  split
  · next f hmode => exact absurd hmode (h f)
  · rfl

theorem closeTag_withExamples (s : Scan) (es : List Example) :
    (s.withExamples es).closeTag = s.closeTag.withExamples es := by
  unfold closeTag withExamples
  dsimp only
  split
  · split <;> rfl
  · rfl

theorem addBlank_withExamples (s : Scan) (es : List Example) :
    (s.withExamples es).addBlank = s.addBlank.withExamples es := by
  unfold addBlank withExamples
  dsimp only
  split <;> rfl

/-- **A line adds an example to those found**, or none, and does not look at them. -/
theorem step_withExamples (s : Scan) (es : List Example) (l : Text) :
    (s.withExamples es).step l = (s.step l).withExamples (es ++ s.completed l) := by
  rcases s.outside_or_fence with hout | ⟨f, hmode⟩
  · have hout' : (s.withExamples es).Outside := hout
    have hread : (s.withExamples es).reading l = s.reading l := rfl
    have hclose := closeTag_withExamples s es
    rw [completed_of_outside hout, List.append_nil]
    cases hk : (s.reading l).kind with
    | blank =>
      rw [step_of_blank hout hk, step_of_blank hout' (hread ▸ hk), hclose, addBlank_withExamples]
    | fence opening =>
      rw [step_of_opening hout hk, step_of_opening hout' (hread ▸ hk), hclose]
      rfl
    | tag name value =>
      cases hkey : TagKey.ofName? name with
      | some key =>
        rw [step_of_tag hout hk hkey, step_of_tag hout' (hread ▸ hk) hkey, hclose]
        rfl
      | none =>
        rw [step_of_unknownTag hout hk hkey, step_of_unknownTag hout' (hread ▸ hk) hkey, hclose]
        rfl
    | plain =>
      cases hmode : s.mode with
      | fence f => exact absurd hmode (hout f)
      | prose =>
        rw [reading_of_prose hmode] at hk
        rw [step_of_plain hmode hk, step_of_plain (s := s.withExamples es) hmode hk]
        rfl
      | tag t =>
        rw [reading_of_tag hmode] at hk
        rw [step_of_continued hmode hk, step_of_continued (s := s.withExamples es) hmode hk]
        rfl
  · rw [step_of_fence hmode, step_of_fence (s := s.withExamples es) hmode, completed, hmode]
    unfold fenceLine
    dsimp only
    split
    · rfl
    · rw [List.append_nil]
      rfl

/-- The examples after a line are those before it and the one that the line completes. -/
theorem examples_step (s : Scan) (l : Text) : (s.step l).examples = s.examples ++ s.completed l :=
  congrArg Scan.examples (step_withExamples s s.examples l)

/-- **Lines add the same examples to whatever was found.** -/
theorem run_withExamples (s : Scan) (ls : List Text) :
    ∃ new, ∀ es, (s.withExamples es).run ls = (s.run ls).withExamples (es ++ new) := by
  induction ls generalizing s with
  | nil => exact ⟨[], fun es => by rw [run_nil, run_nil, List.append_nil]⟩
  | cons l ls ih =>
    obtain ⟨new, hnew⟩ := ih (s.step l)
    refine ⟨s.completed l ++ new, fun es => ?_⟩
    rw [run_cons, run_cons, step_withExamples, hnew, List.append_assoc]

theorem finish_withExamples (s : Scan) (es : List Example) :
    (s.withExamples es).finish = s.finish.withExamples es := by
  rcases s.outside_or_fence with hout | ⟨f, hmode⟩
  · rw [finish_of_outside hout, finish_of_outside (s := s.withExamples es) hout,
      closeTag_withExamples]
  · rw [finish_of_fence hmode, finish_of_fence (s := s.withExamples es) hmode]
    rfl

/-- The examples of a description have no part in its prose. -/
theorem description_withExamples (s : Scan) (es : List Example) :
    (s.withExamples es).description = { s.description with examples := es } := by
  unfold description withExamples
  dsimp only
  split <;> rfl

end Scan

/-! ## What is left without code -/

/-- A mode without the lines of an open code block. -/
def Mode.outline : Mode → Mode
  | .fence f => .fence { f with body := [] }
  | mode => mode

/-- An example without its code. -/
def Example.outline (e : Example) : Example := { e with raw := [], code := [] }

namespace Scan

variable {s s' : Scan}

/-- A scan without the code that it has read. -/
def outline (s : Scan) : Scan :=
  { s with mode := s.mode.outline, examples := s.examples.map Example.outline }

/-- Outside code blocks there is code in the examples alone. -/
theorem outline_of_outside (h : s.Outside) :
    s.outline = s.withExamples (s.examples.map Example.outline) := by
  have hmode : s.mode.outline = s.mode := by
    cases hmode : s.mode with
    | fence f => exact absurd hmode (h f)
    | prose => rfl
    | tag t => rfl
  rw [outline, hmode, withExamples]

theorem mode_outline_of_fence {f : OpenFence} (h : s.mode = .fence f) :
    s.outline.mode = .fence { f with body := [] } := by
  unfold outline
  rw [h]
  rfl

/-- **The code that was read before a line does not matter.** -/
theorem outline_step (s : Scan) (l : Text) : (s.outline.step l).outline = (s.step l).outline := by
  rcases s.outside_or_fence with hout | ⟨f, hmode⟩
  · have hexamples : (s.step l).examples = s.examples := by
      rw [examples_step, completed_of_outside hout, List.append_nil]
    rw [outline_of_outside hout, step_withExamples, completed_of_outside hout, List.append_nil,
      outline, outline, hexamples, withExamples, List.map_map]
    rfl
  · rw [step_of_fence hmode, step_of_fence (mode_outline_of_fence hmode)]
    unfold fenceLine
    dsimp only
    split
    · simp only [outline, List.map_append, List.map_map]
      rfl
    · simp only [outline, List.map_map]
      rfl

/-- The blanks at the end of a line do not matter but for code. -/
theorem outline_step_congr {l l' : Text} (h : trimEnd l = trimEnd l') :
    (s.step l).outline = (s.step l').outline := by
  by_cases hcode : ∀ f, s.mode = .fence f → f.opening.closedBy l = true
  · rw [step_congr h hcode]
  · obtain ⟨f, hmode, hopen⟩ : ∃ f, s.mode = .fence f ∧ ¬f.opening.closedBy l = true := by
      simpa using hcode
    have hopen' : ¬f.opening.closedBy l' = true := by rwa [← f.opening.closedBy_congr h]
    rw [step_of_fence hmode, step_of_fence hmode, fenceLine, fenceLine, if_neg hopen,
      if_neg hopen']
    rfl

/-- **Scans that differ in code do so after the same lines**, whether the line ends are uniform or
not. -/
theorem outline_run_map_innerLine (h : s.outline = s'.outline) (ls : List Text) :
    (s.run (ls.map innerLine)).outline = (s'.run ls).outline := by
  induction ls generalizing s s' with
  | nil => exact h
  | cons l ls ih =>
    refine ih ?_
    calc (s.step (innerLine l)).outline
        = (s.step l).outline := outline_step_congr (trimEnd_innerLine l)
      _ = (s.outline.step l).outline := (outline_step s l).symm
      _ = (s'.outline.step l).outline := by rw [h]
      _ = (s'.step l).outline := outline_step s' l

/-- Where one of two scans that differ in code is inside a code block, the other is inside a block
of the same opening. -/
theorem exists_fence_of_outline {f : OpenFence} (h : s.outline = s'.outline)
    (hmode : s'.mode = .fence f) : ∃ g, s.mode = .fence g ∧ g.opening = f.opening := by
  have houtline : s.mode.outline = s'.mode.outline := congrArg Scan.mode h
  rw [hmode] at houtline
  cases hg : s.mode with
  | fence g =>
    rw [hg] at houtline
    cases g
    cases houtline
    exact ⟨_, rfl, rfl⟩
  | prose => rw [hg] at houtline; cases houtline
  | tag t => rw [hg] at houtline; cases houtline

theorem length_examples_of_outline (h : s.outline = s'.outline) :
    s.examples.length = s'.examples.length := by
  simpa [outline] using congrArg (fun r => r.examples.length) h

/-! ## A code block with its end -/

/-- The scan after an open code block has ended, its example apart. -/
def afterBlock (s : Scan) : Scan :=
  { s with prose := [], opening? := some (s.opening?.getD (proseText s.prose)), mode := .prose }

/-- **A code block from inside to its end** leaves an example and nothing else. -/
theorem run_block {f : OpenFence} (hmode : s.mode = .fence f) {ls : List Text} {l : Text}
    (hls : ∀ m ∈ ls, f.opening.closedBy m = false) (hl : f.opening.closedBy l = true) :
    s.run (ls ++ [l]) = s.afterBlock.withExamples
      (s.examples ++ [s.exampleOf { f with body := f.body ++ ls } l]) := by
  rw [run_append, run_code hmode hls, run_cons, run_nil, step_of_fence rfl, fenceLine, if_pos hl]
  rfl

end Scan

/-! ## The whole text -/

section Text

variable {P Q : List Text} {q : Text} {f : OpenFence}

/-- The lines that are read of a text with a code block: only those of the block depend on it. -/
theorem exists_contentLines_block (hP : ∀ l ∈ P ++ q :: Q, '\n' ∉ l)
    (hmargin : ∃ l ∈ P ++ q :: Q, AtMargin l) :
    ∃ k rest, trimEnd k = trimEnd q ∧ ∀ B : List Text, (∀ l ∈ B, '\n' ∉ l) →
      contentLines (joinLines (P ++ B ++ q :: Q)) =
        P.map innerLine ++ (B.map innerLine ++ [k]) ++ rest := by
  obtain ⟨l, hl, hmargin⟩ := hmargin
  obtain ⟨k, hk, hunix⟩ := exists_unixLineList_cons q Q
  refine ⟨outdentLine 0 k, (unixLineList Q).map (outdentLine 0), ?_, fun B hB => ?_⟩
  · rw [trimEnd_outdentLine_zero, hk]
  · have hlines : lines (joinLines (P ++ B ++ q :: Q)) = P ++ B ++ q :: Q := by
      refine lines_joinLines (by simp) fun m hm => ?_
      simp only [List.mem_append] at hm hP
      rcases hm with (hm | hm) | hm
      · exact hP m (.inl hm)
      · exact hB m hm
      · exact hP m (.inr hm)
    have hmem : l ∈ P ++ B ++ q :: Q := by
      simp only [List.mem_append] at hl ⊢
      exact hl.imp_left .inl
    rw [contentLines_of_lines_append hlines (List.cons_ne_nil _ _) hmem hmargin, hunix]
    simp

/-- **What a text with a code block gives**: the lines of the block are in one example, and
everything else is the same for all blocks that could stand there. -/
theorem exists_extract_block (hP : ∀ l ∈ P ++ q :: Q, '\n' ∉ l)
    (hmargin : ∃ l ∈ P ++ q :: Q, AtMargin l) (hopen : (Scan.start.run P).mode = .fence f)
    (hq : f.opening.closedBy q = true) :
    ∃ (x : Extracted) (before after : List Example) (e : Example) (body : List Text)
        (raw : List Text → Text),
      before.length = (Scan.start.run P).examples.length ∧
      ∀ B : List Text, (∀ l ∈ B, '\n' ∉ l) → (∀ l ∈ B, f.opening.closedBy l = false) →
        extract (joinLines (P ++ B ++ q :: Q)) =
          { x with description := { x.description with
            examples := before ++
              { e with
                raw := raw B
                code := joinLines (body ++ B.map innerLine) } :: after } } := by
  obtain ⟨k, rest, hk, hcontent⟩ := exists_contentLines_block hP hmargin
  -- the same block is open after the lines as they are read
  have houtline := Scan.outline_run_map_innerLine (rfl : Scan.start.outline = _) P
  obtain ⟨g, hg, hopening⟩ := Scan.exists_fence_of_outline houtline hopen
  generalize hr : Scan.start.run (P.map innerLine) = r at houtline hg
  obtain ⟨new, hnew⟩ := Scan.run_withExamples r.afterBlock rest
  let last := (r.afterBlock.run rest).finish
  refine ⟨⟨last.description, last.tags, last.notices⟩, r.examples, new, r.exampleOf g k, g.body,
    fun B => (r.exampleOf { g with body := g.body ++ B.map innerLine } k).raw,
    Scan.length_examples_of_outline houtline, fun B hB hBopen => ?_⟩
  have hbody : ∀ m ∈ B.map innerLine, g.opening.closedBy m = false := by
    intro m hm
    obtain ⟨l, hl, rfl⟩ := List.mem_map.1 hm
    rw [hopening, f.opening.closedBy_congr (trimEnd_innerLine l), hBopen l hl]
  have hend : g.opening.closedBy k = true := by
    rw [hopening, f.opening.closedBy_congr hk, hq]
  have hrun : Scan.start.run (contentLines (joinLines (P ++ B ++ q :: Q))) =
      (r.afterBlock.run rest).withExamples (r.examples ++
        [r.exampleOf { g with body := g.body ++ B.map innerLine } k] ++ new) := by
    rw [hcontent B hB, Scan.run_append, Scan.run_append, hr, Scan.run_block hg hbody hend, hnew]
  rw [extract, hrun, Scan.finish_withExamples, Scan.description_withExamples, List.append_assoc]
  rfl

/-- **Code is opaque**: the lines of a closed code block may be exchanged for others that do not
close it. The tags, the notices, the text and the footer stay, and so do all examples but the one
of this block, which keeps its language and its intro and has the other lines as its code. -/
theorem extract_exchangeCode {B B' : List Text} (hlines : ∀ l ∈ P ++ B ++ B' ++ q :: Q, '\n' ∉ l)
    (hmargin : ∃ l ∈ P ++ q :: Q, AtMargin l) (hopen : (Scan.start.run P).mode = .fence f)
    (hB : ∀ l ∈ B, f.opening.closedBy l = false) (hB' : ∀ l ∈ B', f.opening.closedBy l = false)
    (hq : f.opening.closedBy q = true) :
    let x := extract (joinLines (P ++ B ++ q :: Q))
    let x' := extract (joinLines (P ++ B' ++ q :: Q))
    x'.tags = x.tags ∧ x'.notices = x.notices ∧ x'.description.text = x.description.text ∧
      x'.description.footer = x.description.footer ∧
      ∃ before e e' after body, before.length = (Scan.start.run P).examples.length ∧
        x.description.examples = before ++ e :: after ∧
        x'.description.examples = before ++ e' :: after ∧
        e'.language = e.language ∧ e'.intro = e.intro ∧
        e.code = joinLines (body ++ B.map innerLine) ∧
        e'.code = joinLines (body ++ B'.map innerLine) := by
  have hP : ∀ l ∈ P ++ q :: Q, '\n' ∉ l := fun l hl =>
    hlines l (by simp only [List.mem_append] at hl ⊢; tauto)
  obtain ⟨x, before, after, e, body, raw, hlength, hextract⟩ :=
    exists_extract_block hP hmargin hopen hq
  intro y y'
  have hy := hextract B (fun l hl => hlines l (by simp [hl])) hB
  have hy' := hextract B' (fun l hl => hlines l (by simp [hl])) hB'
  subst y y'
  rw [hy, hy']
  exact ⟨rfl, rfl, rfl, rfl, before, _, _, after, body, hlength, rfl, rfl, rfl, rfl, rfl, rfl⟩

/-- The code of the second block of a text may be exchanged for tags, directives, shorter fences and
fences of the other marker. -/
theorem extract_exchangeCode_markup :
    let P := ["  Text.", "~~~", "a", "~~~", "@default 0", "  ````js \x7b", " b"].map String.toList
    let B := ["@type c", "```", "{@platform ios}", " ", "~~~", "  d\r"].map String.toList
    let B' := ["@default 1", "~~~~"].map String.toList
    let q := " ````` \r".toList
    let Q := ["More.", "~~~", "@type e"].map String.toList
    let f : OpenFence := ⟨⟨backtick, 4, "js \x7b".toList⟩, "````js \x7b".toList, [" b".toList]⟩
    let x := extract (joinLines (P ++ B ++ q :: Q))
    let x' := extract (joinLines (P ++ B' ++ q :: Q))
    ((∀ l ∈ P ++ B ++ B' ++ q :: Q, '\n' ∉ l) ∧ (∃ l ∈ P ++ q :: Q, AtMargin l) ∧
      (Scan.start.run P).mode = .fence f ∧ (∀ l ∈ B, f.opening.closedBy l = false) ∧
      (∀ l ∈ B', f.opening.closedBy l = false) ∧ f.opening.closedBy q = true) ∧
    x'.tags = x.tags ∧ x'.notices = x.notices ∧ x'.description.text = x.description.text ∧
      x'.description.footer = x.description.footer ∧
      ∃ before e e' after body, before.length = (Scan.start.run P).examples.length ∧
        x.description.examples = before ++ e :: after ∧
        x'.description.examples = before ++ e' :: after ∧
        e'.language = e.language ∧ e'.intro = e.intro ∧
        e.code = joinLines (body ++ B.map innerLine) ∧
        e'.code = joinLines (body ++ B'.map innerLine) := by
  intro P B B' q Q f x x'
  have hlines : ∀ l ∈ P ++ B ++ B' ++ q :: Q, '\n' ∉ l := by decide +kernel
  have hmargin : ∃ l ∈ P ++ q :: Q, AtMargin l := by decide +kernel
  have hopen : (Scan.start.run P).mode = .fence f := by decide +kernel
  have hB : ∀ l ∈ B, f.opening.closedBy l = false := by decide +kernel
  have hB' : ∀ l ∈ B', f.opening.closedBy l = false := by decide +kernel
  have hq : f.opening.closedBy q = true := by decide +kernel
  exact ⟨⟨hlines, hmargin, hopen, hB, hB', hq⟩,
    extract_exchangeCode hlines hmargin hopen hB hB' hq⟩

end Text

end ComponentPages
