import ComponentPages.Proofs.Finishing
import ComponentPages.Proofs.Tidy

/-!
# Code blocks from line to line

A reader of a text needs one rule to know which lines are code: outside code blocks a line may open
one, and inside one a line may close it. Empty lines make no difference to it, so neither does the
last pass over a page.

- **`fenceStep`**, **`fenceAfter`** — the reader.
- **`fenceAfter_block`** — a whole code block leaves nothing open.
- **`fullLines`**, **`fenceAfter_filter`** — the lines that matter.
- **`ClosesFences`**, **`closesFences_joinSections`** — a text after which no code block is open.
-/

namespace ComponentPages

/-! ## The reader -/

/-- The code block that is open after a line, given the one that is open before it. -/
def fenceStep (before : Option FenceOpening) (line : Text) : Option FenceOpening :=
  match before with
  | none => fenceOpening? (trim line)
  | some opening => if opening.closedBy line then none else some opening

/-- The code block that is open after some lines. -/
def fenceAfter (before : Option FenceOpening) (ls : List Text) : Option FenceOpening :=
  ls.foldl fenceStep before

@[simp] theorem fenceAfter_nil (before : Option FenceOpening) : fenceAfter before [] = before := rfl

@[simp] theorem fenceAfter_cons (before : Option FenceOpening) (l : Text) (ls : List Text) :
    fenceAfter before (l :: ls) = fenceAfter (fenceStep before l) ls := rfl

theorem fenceAfter_append (before : Option FenceOpening) (ls ms : List Text) :
    fenceAfter before (ls ++ ms) = fenceAfter (fenceAfter before ls) ms :=
  List.foldl_append ..

/-- The line opens no code block. -/
def OpensNone (l : Text) : Prop := fenceOpening? (trim l) = none

instance (l : Text) : Decidable (OpensNone l) := inferInstanceAs (Decidable (_ = _))

/-- An empty line opens nothing. -/
theorem opensNone_nil : OpensNone [] := rfl

/-- The blanks around a line do not matter. -/
theorem OpensNone.congr {l m : Text} (h : OpensNone l) (hlm : trim m = trim l) : OpensNone m := by
  unfold OpensNone
  rw [hlm]
  exact h

/-- A line that begins with something else than a marker or a blank opens nothing. -/
theorem opensNone_cons {c : Char} (hblank : isBlank c = false) (hmarker : isFenceMarker c = false)
    (l : Text) : OpensNone (c :: l) := by
  have htrim : trim (c :: l) = c :: trimEnd l := by
    rw [trim, trimStart_cons_of_not_blank hblank, trimEnd_cons_of_not_blank hblank]
  unfold OpensNone
  rw [htrim]
  by_contra hopens
  obtain ⟨opening, hopening⟩ := Option.ne_none_iff_exists'.1 hopens
  rw [isFenceMarker_of_fenceOpening? hopening] at hmarker
  cases hmarker

/-- Whether a text begins with something else than a marker or a blank. -/
def beginsPlain (s : Text) : Bool :=
  match s with
  | [] => false
  | c :: _ => !isBlank c && !isFenceMarker c

/-- A line that begins with no marker and no blank opens nothing, whatever follows. -/
theorem opensNone_append {s : Text} (h : beginsPlain s = true) (t : Text) : OpensNone (s ++ t) := by
  cases s with
  | nil => cases h
  | cons c s =>
    rw [beginsPlain, Bool.and_eq_true, Bool.not_eq_true', Bool.not_eq_true'] at h
    exact opensNone_cons h.1 h.2 (s ++ t)

/-- Lines that open nothing leave nothing open. -/
theorem fenceAfter_of_opensNone {ls : List Text} (h : ∀ l ∈ ls, OpensNone l) :
    fenceAfter none ls = none := by
  induction ls with
  | nil => rfl
  | cons l ls ih =>
    have hl : fenceStep none l = none := h l (List.mem_cons_self ..)
    rw [fenceAfter_cons, hl]
    exact ih fun m hm => h m (List.mem_cons_of_mem _ hm)

/-- A line with something else than markers and blanks closes no code block. -/
theorem not_closedBy_of_mem {opening : FenceOpening} {l : Text} {c : Char} (h : c ∈ l)
    (hblank : isBlank c = false) (hmarker : c ≠ opening.marker) : opening.closedBy l = false := by
  by_contra hcloses
  rw [Bool.not_eq_false] at hcloses
  exact hmarker (eq_marker_of_closedBy hcloses c (mem_trim h hblank))

/-- **A whole code block** leaves nothing open. -/
theorem fenceAfter_block {opening : FenceOpening} {first closing : Text} {body : List Text}
    (hopens : fenceOpening? (trim first) = some opening)
    (hbody : ∀ l ∈ body, opening.closedBy l = false) (hcloses : opening.closedBy closing = true) :
    fenceAfter none (first :: body ++ [closing]) = none := by
  have hfirst : fenceStep none first = some opening := hopens
  have hinside : fenceAfter (some opening) body = some opening := by
    clear hcloses
    induction body with
    | nil => rfl
    | cons l body ih =>
      have hl : fenceStep (some opening) l = some opening :=
        if_neg (by rw [hbody l (List.mem_cons_self ..)]; exact Bool.false_ne_true)
      rw [fenceAfter_cons, hl]
      exact ih fun m hm => hbody m (List.mem_cons_of_mem _ hm)
  rw [List.cons_append, fenceAfter_cons, hfirst, fenceAfter_append, hinside]
  exact if_pos hcloses

/-! ## Empty lines -/

/-- The lines of a text that are not empty. -/
def fullLines (s : Text) : List Text := (lines s).filter fun l => !l.isEmpty

@[simp] theorem fullLines_nil : fullLines [] = [] := rfl

/-- The lines of two texts with a line feed between them are those of the first and those of the
second. -/
theorem fullLines_append_newline (s t : Text) :
    fullLines (s ++ '\n' :: t) = fullLines s ++ fullLines t := by
  rw [fullLines, lines_append_newline, List.filter_append, fullLines, fullLines]

/-- A line feed in front makes no difference. -/
theorem fullLines_newline_cons (s : Text) : fullLines ('\n' :: s) = fullLines s :=
  fullLines_append_newline [] s

/-- The lines of sections with blank lines between them are those of all sections. -/
theorem fullLines_joinSections (ps : List Text) :
    fullLines (joinSections ps) = ps.flatMap fullLines := by
  cases ps with
  | nil => rfl
  | cons p ps =>
    rw [fullLines, lines_joinSections_cons, List.filter_append, List.filter_flatMap,
      List.flatMap_cons]
    exact congrArg (fullLines p ++ ·)
      (List.flatMap_congr fun q _ => List.filter_cons_of_neg (by simp))

/-- **Where runs of line feeds are shortened, empty lines alone are lost.** -/
theorem fullLines_collapseFrom (run : Nat) (s : Text) :
    fullLines (collapseFrom run s) = fullLines s := by
  suffices h : ∀ ls : List Text, ls ≠ [] → (∀ l ∈ ls, '\n' ∉ l) → ∀ run,
      fullLines (collapseFrom run (joinLines ls)) = fullLines (joinLines ls) by
    have hs := h (lines s) (lines_ne_nil s) (fun l hl => newline_not_mem_of_mem_lines hl) run
    rwa [joinLines_lines] at hs
  intro ls hne hnl
  induction ls with
  | nil => exact absurd rfl hne
  | cons l ls ih =>
    intro run
    have hl : '\n' ∉ l := hnl l (List.mem_cons_self ..)
    by_cases hls : ls = []
    · rw [hls, joinLines_singleton, collapseFrom_of_not_mem hl]
    · have hrest := ih hls fun m hm => hnl m (List.mem_cons_of_mem _ hm)
      rw [joinLines_cons l hls]
      by_cases hnil : l = []
      · rw [hnil, List.nil_append, fullLines_newline_cons]
        rcases Nat.lt_or_ge run 2 with hlt | hge
        · rw [collapseFrom_newline_of_lt hlt, fullLines_newline_cons, hrest]
        · rw [collapseFrom_newline_of_le hge, hrest]
      · have hline := collapseFrom_append_line hl hnil run [] ('\n' :: joinLines ls)
        rw [List.nil_append, collapseFrom, List.nil_append,
          collapseFrom_newline_of_lt (by decide)] at hline
        rw [hline, fullLines_append_newline, fullLines_append_newline, hrest]

/-- An opening line has its marker three times. -/
theorem width_pos_of_fenceOpening? {s : Text} {opening : FenceOpening}
    (h : fenceOpening? s = some opening) : 0 < opening.width :=
  Nat.lt_of_lt_of_le (by decide) (markers_of_fenceOpening? h).2.1

/-- An empty line closes no code block. -/
theorem fenceStep_empty {before : Option FenceOpening} (h : ∀ o ∈ before, 0 < o.width) :
    fenceStep before [] = before := by
  cases before with
  | none => rfl
  | some opening =>
    refine if_neg fun hcloses => ?_
    rw [FenceOpening.closedBy, Bool.and_eq_true, decide_eq_true_eq] at hcloses
    exact absurd (h _ rfl) (Nat.not_lt.2 hcloses.1)

/-- What is open after a line has a marker. -/
theorem width_pos_of_fenceStep {before : Option FenceOpening} (h : ∀ o ∈ before, 0 < o.width)
    (l : Text) : ∀ o ∈ fenceStep before l, 0 < o.width := by
  intro o ho
  cases before with
  | none => exact width_pos_of_fenceOpening? ho
  | some opening =>
    unfold fenceStep at ho
    dsimp only at ho
    split at ho
    · cases ho
    · cases ho
      exact h _ rfl

/-- **Empty lines make no difference to the reader.** -/
theorem fenceAfter_filter (ls : List Text) :
    fenceAfter none (ls.filter fun l => !l.isEmpty) = fenceAfter none ls := by
  suffices h : ∀ before : Option FenceOpening, (∀ o ∈ before, 0 < o.width) →
      fenceAfter before (ls.filter fun l => !l.isEmpty) = fenceAfter before ls from
    h none fun o ho => by cases ho
  induction ls with
  | nil => exact fun before _ => rfl
  | cons l ls ih =>
    intro before hbefore
    have hstep := ih (fenceStep before l) (width_pos_of_fenceStep hbefore l)
    cases l with
    | nil =>
      rw [fenceStep_empty hbefore] at hstep
      rw [List.filter_cons_of_neg (by simp), fenceAfter_cons, fenceStep_empty hbefore, hstep]
    | cons c l =>
      rw [List.filter_cons_of_pos (by simp), fenceAfter_cons, fenceAfter_cons, hstep]

/-! ## Texts that close their code blocks -/

/-- No code block is open after the text where none is open before it. -/
def ClosesFences (s : Text) : Prop := fenceAfter none (lines s) = none

instance (s : Text) : Decidable (ClosesFences s) := inferInstanceAs (Decidable (_ = _))

/-- The lines that are not empty decide. -/
theorem closesFences_iff_fullLines {s : Text} :
    ClosesFences s ↔ fenceAfter none (fullLines s) = none := by
  rw [ClosesFences, fullLines, fenceAfter_filter]

theorem closesFences_nil : ClosesFences [] := rfl

/-- A text none of whose lines opens a code block. -/
theorem closesFences_of_opensNone {s : Text} (h : ∀ l ∈ lines s, OpensNone l) : ClosesFences s :=
  fenceAfter_of_opensNone h

/-- A text of one line that opens nothing closes its code blocks. -/
theorem closesFences_of_line {l : Text} (hnl : '\n' ∉ l) (h : OpensNone l) : ClosesFences l := by
  refine closesFences_of_opensNone fun m hm => ?_
  rw [lines, splitOn_of_not_mem hnl, List.mem_singleton] at hm
  rwa [hm]

/-- No code block is open after texts each of which closes its code blocks. -/
theorem fenceAfter_flatMap_fullLines {ps : List Text} (h : ∀ p ∈ ps, ClosesFences p) :
    fenceAfter none (ps.flatMap fullLines) = none := by
  induction ps with
  | nil => rfl
  | cons p ps ih =>
    rw [List.flatMap_cons, fenceAfter_append,
      closesFences_iff_fullLines.1 (h p (List.mem_cons_self ..))]
    exact ih fun q hq => h q (List.mem_cons_of_mem _ hq)

/-- Sections with blank lines between them close their code blocks where each of them does. -/
theorem closesFences_joinSections {ps : List Text} (h : ∀ p ∈ ps, ClosesFences p) :
    ClosesFences (joinSections ps) := by
  rw [closesFences_iff_fullLines, fullLines_joinSections]
  exact fenceAfter_flatMap_fullLines h

/-- A line that is neither two lines nor an opening line. -/
structure IdleLine (l : Text) : Prop where
  oneLine : '\n' ∉ l
  opensNone : OpensNone l

/-- An empty line is idle. -/
theorem idleLine_nil : IdleLine [] := ⟨List.not_mem_nil, opensNone_nil⟩

/-- Lines that open nothing still do not when the blanks at the end of the text are dropped. -/
theorem opensNone_lines_trimEnd {s : Text} (h : ∀ l ∈ lines s, OpensNone l) :
    ∀ l ∈ lines (trimEnd s), OpensNone l := by
  have hlines := lines_trimEnd_joinLines (P := fun ls => ∀ l ∈ ls, OpensNone l) (lines_ne_nil s)
    (fun l hl => newline_not_mem_of_mem_lines hl) h ?_ ?_
  · rwa [joinLines_lines] at hlines
  · intro ms l hms m hm
    rcases List.mem_append.1 hm with hm | hm
    · exact hms m (List.mem_append_left _ hm)
    · rw [List.mem_singleton.1 hm]
      exact (hms l (by simp)).congr (trim_trimEnd l)
  · exact fun ms l _ hms m hm => hms m (List.mem_append_left _ hm)

/-- Idle lines of prose put together. -/
theorem closesFences_proseText {ls : List Text} (h : ∀ l ∈ ls, IdleLine l) :
    ClosesFences (Scan.proseText ls) := by
  by_cases hne : ls = []
  · rw [hne]
    exact closesFences_nil
  refine closesFences_of_opensNone (lines_proseText (P := fun ls => ∀ l ∈ ls, OpensNone l) hne
    (fun l hl => (h l hl).oneLine) (fun l hl => (h l hl).opensNone) ?_ ?_ ?_ ?_)
  · intro l ms hms m hm
    rcases List.mem_cons.1 hm with rfl | hm
    · exact (hms l (List.mem_cons_self ..)).congr (trim_trimStart l)
    · exact hms m (List.mem_cons_of_mem _ hm)
  · exact fun l ms _ hms m hm => hms m (List.mem_cons_of_mem _ hm)
  · intro ms l hms m hm
    rcases List.mem_append.1 hm with hm | hm
    · exact hms m (List.mem_append_left _ hm)
    · rw [List.mem_singleton.1 hm]
      exact (hms l (by simp)).congr (trim_trimEnd l)
  · exact fun ms l _ hms m hm => hms m (List.mem_append_left _ hm)

end ComponentPages
