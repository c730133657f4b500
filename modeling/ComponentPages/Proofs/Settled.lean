import ComponentPages.Proofs.Scanning
import Mathlib.Data.List.Chain

/-!
# Settled descriptions

A description is settled where the text that its parts make up is read back as these parts, with no
tag found on the way. This is said line by line, without reading anything.

- **`ProseLine`**, **`BareTagLine`**, **`MayFollow`** — the lines that stay in prose, and which of
  them can stand after one another.
- **`SettledProse`**, **`SettledExample`**, **`SettledEnd`** — the parts: prose, a closed code
  block, and prose that a code block without an end may follow.
- **`Description.Settled`** — the whole.
-/

namespace ComponentPages

/-! ## Lines that stay -/

/-- A line of prose: it holds no directive and is neither a fence nor a tag that is recorded. -/
structure ProseLine (l : Text) : Prop where
  keepsEnd : trimEnd l = l
  ne_nil : l ≠ []
  free : DirectiveFree l
  noFence : fenceOpening? (trim l) = none
  noTag : ∀ name value, blockTag? (trim l) = some (name, value) → TagKey.ofName? name = none

/-- A recorded tag without a value, perhaps with directives in front of it. -/
structure BareTagLine (l : Text) : Prop where
  keepsEnd : trimEnd l = l
  isTag : ∃ name key, (Line.ofText l).kind = .tag name [] ∧ TagKey.ofName? name = some key

/-- A line that stays in prose as it is: an empty one, a line of prose, or a tag without a value. -/
def StaysInProse (l : Text) : Prop := l = [] ∨ ProseLine l ∨ BareTagLine l

/-- A line that is a block tag of any name, with no directive in front of it. -/
def IsTagLine (l : Text) : Prop := ∃ found, blockTag? (trim l) = some found

/-- Which lines can follow one another: no two empty lines, and after a tag without a value only
what cannot become its value. -/
def MayFollow (a b : Text) : Prop := (a = [] → b ≠ []) ∧ (BareTagLine a → b = [] ∨ IsTagLine b)

/-- Lines that stay in prose together. -/
structure SettledLines (ls : List Text) : Prop where
  oneLine : ∀ l ∈ ls, '\n' ∉ l
  stays : ∀ l ∈ ls, StaysInProse l
  follow : ls.IsChain MayFollow

/-- A line that opens a code block, without blanks around it. -/
structure OpeningLine (opening : FenceOpening) (l : Text) : Prop where
  trimmed : trim l = l
  opens : fenceOpening? l = some opening
  noNewline : '\n' ∉ l

/-- A line that stays in the code block of an opening. -/
structure CodeLine (opening : FenceOpening) (l : Text) : Prop where
  noNewline : '\n' ∉ l
  noReturn : l.getLast? ≠ some '\r'
  notBlank : isBlankText l = true → l = []
  open_ : opening.closedBy l = false

/-- No directive stands in front of a line of prose. -/
theorem ProseLine.directiveAt? {l : Text} (h : ProseLine l) : directiveAt? (trim l) = none :=
  (h.free.of_isSuffix (trim_suffix_of_trimEnd h.keepsEnd)).directiveAt?

/-- No line of prose is a recorded tag. -/
theorem ProseLine.not_bareTagLine {l : Text} (h : ProseLine l) : ¬BareTagLine l := by
  intro hbare
  obtain ⟨name, key, hkind, hkey⟩ := hbare.isTag
  rw [Line.ofText_eq_whole h.directiveAt?, Line.kind_eq_tag_iff, Line.whole_rest] at hkind
  rw [h.noTag name [] hkind] at hkey
  cases hkey

/-- No empty line is a recorded tag. -/
theorem not_bareTagLine_nil : ¬BareTagLine [] := by
  intro hbare
  obtain ⟨name, key, hkind, -⟩ := hbare.isTag
  rw [Line.kind_ofText_of_blank rfl] at hkind
  cases hkind

/-! ## Settled parts -/

/-- Prose that is read back as it is. -/
structure SettledProse (s : Text) : Prop where
  trimmed : trim s = s
  settled : SettledLines (lines s)

/-- Lines that stay in prose at the end of a text, where a code block without an end may follow. -/
def SettledTail (ls : List Text) : Prop :=
  SettledLines ls ∨
    ∃ prose opening first body, ls = prose ++ first :: body ∧ SettledLines prose ∧
      OpeningLine opening first ∧ ∀ l ∈ body, CodeLine opening l

/-- Prose at the end of a text. -/
structure SettledEnd (s : Text) : Prop where
  trimmed : trim s = s
  settled : SettledTail (lines s)

/-- Prose without an open code block may stand at the end. -/
theorem SettledProse.atEnd {s : Text} (h : SettledProse s) : SettledEnd s :=
  ⟨h.trimmed, .inl h.settled⟩

/-- An opening line, the lines of its block and the line that closes it make up an example. -/
structure SettledBlock (e : Example) (opening : FenceOpening) (first : Text) (body : List Text)
    (closing : Text) : Prop where
  opens : OpeningLine opening first
  stays : ∀ l ∈ body, CodeLine opening l
  trimmed : trim closing = closing
  closes : opening.closedBy closing = true
  language : e.language = opening.language
  raw : e.raw = joinLines (first :: body ++ [closing])
  code : e.code = joinLines body

/-- An example whose block is read back as it is. -/
structure SettledExample (e : Example) : Prop where
  intro : SettledProse e.intro
  block : ∃ opening first body closing, SettledBlock e opening first body closing

/-- **A settled description**: its parts are settled, the first example has no intro of its own, and
without examples there is no footer. -/
structure Description.Settled (d : Description) : Prop where
  whole : d.examples = [] → SettledEnd d.text ∧ d.footer = []
  parts : d.examples ≠ [] → SettledProse d.text ∧ SettledEnd d.footer
  examples : ∀ e ∈ d.examples, SettledExample e
  firstIntro : ∀ e ∈ d.examples.head?, e.intro = []

/-! ## Groups of settled lines -/

theorem settledLines_nil : SettledLines [] := ⟨by simp, by simp, .nil⟩

/-- The lines after the first are settled where all are. -/
theorem SettledLines.of_cons {l : Text} {ls : List Text} (h : SettledLines (l :: ls)) :
    SettledLines ls where
  oneLine m hm := h.oneLine m (List.mem_cons_of_mem _ hm)
  stays m hm := h.stays m (List.mem_cons_of_mem _ hm)
  follow := (List.isChain_cons.1 h.follow).2

/-- The lines before the last are settled where all are. -/
theorem SettledLines.of_concat {l : Text} {ls : List Text} (h : SettledLines (ls ++ [l])) :
    SettledLines ls where
  oneLine m hm := h.oneLine m (List.mem_append_left _ hm)
  stays m hm := h.stays m (List.mem_append_left _ hm)
  follow := (List.isChain_append.1 h.follow).1

/-- Settled lines are still so with one more line that may follow. -/
theorem SettledLines.concat {l : Text} {ls : List Text} (h : SettledLines ls) (hnl : '\n' ∉ l)
    (hl : StaysInProse l) (hfollow : ∀ a ∈ ls.getLast?, MayFollow a l) :
    SettledLines (ls ++ [l]) where
  oneLine m hm := by
    rcases List.mem_append.1 hm with hm | hm
    · exact h.oneLine m hm
    · rw [List.mem_singleton.1 hm]; exact hnl
  stays m hm := by
    rcases List.mem_append.1 hm with hm | hm
    · exact h.stays m hm
    · rw [List.mem_singleton.1 hm]; exact hl
  follow := by
    refine List.isChain_append.2 ⟨h.follow, .singleton l, fun a ha b hb => ?_⟩
    cases hb
    exact hfollow a ha

/-- An empty line by itself is settled. -/
theorem settledLines_singleton_nil : SettledLines [[]] :=
  settledLines_nil.concat (by simp) (.inl rfl) fun a ha => by cases ha

/-! ## Lines of settled parts -/

/-- What is done to a line before it is read changes nothing. -/
structure PlainEnd (l : Text) : Prop where
  noReturn : l.getLast? ≠ some '\r'
  notBlank : isBlankText l = true → l = []

theorem plainEnd_nil : PlainEnd [] := ⟨by simp, fun _ => rfl⟩

/-- A line without blanks at its end has a plain end. -/
theorem plainEnd_of_trimEnd {l : Text} (h : trimEnd l = l) : PlainEnd l where
  noReturn hr := by cases isBlank_getLast_of_trimEnd h hr
  notBlank hb := by rw [← h, trimEnd_eq_nil_iff.2 hb]

theorem CodeLine.plainEnd {opening : FenceOpening} {l : Text} (h : CodeLine opening l) :
    PlainEnd l :=
  ⟨h.noReturn, h.notBlank⟩

theorem OpeningLine.plainEnd {opening : FenceOpening} {l : Text} (h : OpeningLine opening l) :
    PlainEnd l :=
  plainEnd_of_trimEnd (trim_eq_self_iff.1 h.trimmed).2

/-- A line that stays keeps its end. -/
theorem StaysInProse.keepsEnd {l : Text} (h : StaysInProse l) : trimEnd l = l := by
  rcases h with rfl | h | h
  · rfl
  · exact h.keepsEnd
  · exact h.keepsEnd

theorem StaysInProse.plainEnd {l : Text} (h : StaysInProse l) : PlainEnd l :=
  plainEnd_of_trimEnd h.keepsEnd

theorem SettledEnd.plainEnd {s : Text} (h : SettledEnd s) : ∀ l ∈ lines s, PlainEnd l := by
  rcases h.settled with hls | ⟨prose, opening, first, body, hls, hprose, hfirst, hbody⟩
  · exact fun l hl => (hls.stays l hl).plainEnd
  · intro l hl
    rw [hls, List.mem_append] at hl
    rcases hl with hl | hl
    · exact (hprose.stays l hl).plainEnd
    · rcases List.mem_cons.1 hl with rfl | hl
      · exact hfirst.plainEnd
      · exact (hbody l hl).plainEnd

/-- A line that closes a block holds nothing but the marker. -/
theorem eq_marker_of_closedBy {opening : FenceOpening} {l : Text}
    (h : opening.closedBy l = true) : ∀ c ∈ trim l, c = opening.marker := by
  rw [FenceOpening.closedBy, Bool.and_eq_true] at h
  simpa using h.2

section Block

variable {e : Example} {opening : FenceOpening} {first : Text} {body : List Text} {closing : Text}

/-- The closing line is one line. -/
theorem SettledBlock.newline_not_mem (h : SettledBlock e opening first body closing) :
    '\n' ∉ closing := by
  intro hnl
  rw [← h.trimmed] at hnl
  have hmarker := (markers_of_fenceOpening? h.opens.opens).1
  rw [← eq_marker_of_closedBy h.closes _ hnl] at hmarker
  cases hmarker

/-- The lines of a settled block are the opening line, the lines of code and the closing line. -/
theorem SettledBlock.lines_raw (h : SettledBlock e opening first body closing) :
    lines e.raw = first :: body ++ [closing] := by
  rw [h.raw]
  refine lines_joinLines (by simp) fun l hl => ?_
  rcases List.mem_append.1 hl with hl | hl
  · rcases List.mem_cons.1 hl with rfl | hl
    · exact h.opens.noNewline
    · exact (h.stays l hl).noNewline
  · rw [List.mem_singleton.1 hl]
    exact h.newline_not_mem

theorem SettledBlock.plainEnd (h : SettledBlock e opening first body closing) :
    ∀ l ∈ lines e.raw, PlainEnd l := by
  intro l hl
  rw [h.lines_raw] at hl
  rcases List.mem_append.1 hl with hl | hl
  · rcases List.mem_cons.1 hl with rfl | hl
    · exact h.opens.plainEnd
    · exact (h.stays l hl).plainEnd
  · rw [List.mem_singleton.1 hl]
    exact plainEnd_of_trimEnd (trim_eq_self_iff.1 h.trimmed).2

/-- No opening line is blank. -/
theorem OpeningLine.not_blank {l : Text} (h : OpeningLine opening l) : isBlankText l = false := by
  by_contra hb
  rw [Bool.not_eq_false, ← trim_eq_nil_iff, h.trimmed] at hb
  have hopens := h.opens
  rw [hb] at hopens
  cases hopens

/-- No closing line is blank. -/
theorem not_blank_of_closedBy {l : Text} (hopens : fenceOpening? first = some opening)
    (h : opening.closedBy l = true) : isBlankText l = false := by
  have hwidth := (markers_of_fenceOpening? hopens).2.1
  rw [FenceOpening.closedBy, Bool.and_eq_true, decide_eq_true_eq] at h
  by_contra hblank
  rw [Bool.not_eq_false, ← trim_eq_nil_iff] at hblank
  have hlen := h.1
  rw [hblank, List.length_nil] at hlen
  omega

/-- Lines are trimmed together where the first and the last of them are. -/
theorem trim_joinLines_block (hfirst : trim first = first) (hfirst' : isBlankText first = false)
    (hclosing : trim closing = closing) (hclosing' : isBlankText closing = false) :
    trim (joinLines (first :: body ++ [closing])) = joinLines (first :: body ++ [closing]) := by
  obtain ⟨hstart, hblank⟩ : trimStart (joinLines (first :: body)) = joinLines (first :: body) ∧
      isBlankText (joinLines (first :: body)) = false := by
    by_cases hbody : body = []
    · rw [hbody, joinLines_singleton]
      exact ⟨(trim_eq_self_iff.1 hfirst).1, hfirst'⟩
    · rw [joinLines_cons first hbody, trimStart_append hfirst', (trim_eq_self_iff.1 hfirst).1,
        isBlankText_append, hfirst', Bool.false_and]
      exact ⟨rfl, rfl⟩
  rw [joinLines_append (by simp) (by simp), joinLines_singleton, trim_eq_self_iff,
    trimStart_append hblank, hstart, trimEnd_append_cons _ _ hclosing',
    (trim_eq_self_iff.1 hclosing).2]
  exact ⟨rfl, rfl⟩

/-- A block is trimmed: its first and last lines are. -/
theorem SettledBlock.trim_raw (h : SettledBlock e opening first body closing) :
    trim e.raw = e.raw := by
  rw [h.raw]
  exact trim_joinLines_block h.opens.trimmed h.opens.not_blank h.trimmed
    (not_blank_of_closedBy h.opens.opens h.closes)

end Block

end ComponentPages
