import ComponentPages.Description.Extract
import ComponentPages.Proofs.Trimming

/-!
# Lines of a text

How the lines of a text behave where texts are put together, where line ends are made uniform, and
where the common indentation is taken away.

- **`lines_append_newline`**, **`joinLines_lines`** — lines of parts, and lines put together.
- **`unixLineList`**, **`lines_unixLines`** — a carriage return is dropped at the end of every line
  but the last.
- **`AtMargin`**, **`contentLines_of_lines_append`** — a line at the margin leaves all lines where
  they are; **`contentLines_of_trim`** — a trimmed text has one.
-/

namespace ComponentPages

/-! ## Parts and lines -/

@[simp] theorem lines_nil : lines [] = [[]] := rfl

/-- A line feed ends an empty first line. -/
theorem lines_newline_cons (s : Text) : lines ('\n' :: s) = [] :: lines s := by
  rw [lines, splitOn, if_pos rfl, lines]

/-- Any other character goes into the first line. -/
theorem lines_cons_of_ne {c : Char} (hc : c ≠ '\n') {s l : Text} {ls : List Text}
    (hs : lines s = l :: ls) : lines (c :: s) = (c :: l) :: ls := by
  rw [lines] at hs
  rw [lines, splitOn, if_neg hc, hs]

/-- The lines of a text that begins with a line. -/
theorem exists_lines_eq_cons (s : Text) : ∃ l ls, lines s = l :: ls :=
  List.exists_cons_of_ne_nil (lines_ne_nil s)

/-- No line holds a line feed. -/
theorem newline_not_mem_of_mem_lines {s l : Text} (h : l ∈ lines s) : '\n' ∉ l :=
  not_mem_of_mem_splitOn h

/-- The lines of two texts with a line feed between them are those of the first and those of the
second. -/
theorem lines_append_newline (s t : Text) : lines (s ++ '\n' :: t) = lines s ++ lines t :=
  splitOn_append_separator '\n' s t

@[simp] theorem joinLines_singleton (l : Text) : joinLines [l] = l := joinWith_singleton _ _

/-- The first line, a line feed, and the others put together. -/
theorem joinLines_cons (l : Text) {ls : List Text} (h : ls ≠ []) :
    joinLines (l :: ls) = l ++ '\n' :: joinLines ls := by
  obtain ⟨m, ms, rfl⟩ := List.exists_cons_of_ne_nil h
  rw [joinLines, joinWith_cons_cons, List.append_assoc, List.singleton_append, joinLines]

/-- Lines of two groups put together. -/
theorem joinLines_append {ls ms : List Text} (hls : ls ≠ []) (hms : ms ≠ []) :
    joinLines (ls ++ ms) = joinLines ls ++ '\n' :: joinLines ms := by
  induction ls with
  | nil => exact absurd rfl hls
  | cons l ls ih =>
    cases ls with
    | nil => rw [List.singleton_append, joinLines_cons l hms, joinLines_singleton]
    | cons k ks =>
      rw [List.cons_append, joinLines_cons l (by simp), ih (by simp),
        joinLines_cons l (by simp), List.append_assoc, List.cons_append]

/-- The lines of a text put together are the text. -/
@[simp] theorem joinLines_lines (s : Text) : joinLines (lines s) = s := by
  induction s with
  | nil => rfl
  | cons c s ih =>
    by_cases hc : c = '\n'
    · rw [hc, lines_newline_cons, joinLines_cons _ (lines_ne_nil s), ih, List.nil_append]
    · obtain ⟨l, ls, hls⟩ := exists_lines_eq_cons s
      rw [lines_cons_of_ne hc hls]
      rw [hls] at ih
      cases ls with
      | nil => rw [joinLines_singleton] at ih ⊢; rw [ih]
      | cons k ks =>
        rw [joinLines_cons l (by simp)] at ih
        rw [joinLines_cons _ (by simp), List.cons_append, ih]

/-- A text that does not hold the character between two texts is part of one of them. -/
theorem infix_append_cons {p s t : Text} {c : Char} (hc : c ∉ p) (h : p <:+: s ++ c :: t) :
    p <:+: s ∨ p <:+: t := by
  obtain ⟨before, after, heq⟩ := h
  rw [List.append_assoc, List.append_eq_append_iff] at heq
  rcases heq with ⟨more, rfl, hmore⟩ | ⟨more, rfl, hmore⟩
  · rcases List.append_eq_append_iff.1 hmore with ⟨rest, rfl, -⟩ | ⟨rest, rfl, hrest⟩
    · exact .inl ⟨before, rest, by simp⟩
    · -- what reaches beyond the first text would hold the character
      cases rest with
      | nil => exact .inl ⟨before, [], by simp⟩
      | cons d rest =>
        obtain ⟨rfl, -⟩ := List.cons.inj hrest
        exact absurd (by simp) hc
  · cases more with
    | nil =>
      obtain _ | ⟨d, p⟩ := p
      · exact .inl (List.nil_infix)
      · obtain ⟨rfl, -⟩ := List.cons.inj hmore
        exact absurd (List.mem_cons_self ..) hc
    | cons d more =>
      obtain ⟨-, rfl⟩ := List.cons.inj hmore
      exact .inr ⟨more, after, by simp⟩

/-- A part is a part of all of them put together. -/
theorem infix_joinWith_of_mem {sep p : Text} {parts : List Text} (h : p ∈ parts) :
    p <:+: joinWith sep parts := by
  induction parts with
  | nil => cases h
  | cons q parts ih =>
    cases parts with
    | nil =>
      have hq : p = q := List.mem_singleton.1 h
      simp [hq, joinWith_singleton]
    | cons r parts =>
      rw [joinWith_cons_cons]
      rcases List.mem_cons.1 h with rfl | h
      · exact ⟨[], sep ++ joinWith sep (r :: parts), by simp⟩
      · exact (ih h).trans (List.suffix_append _ _).isInfix

/-- A character that is neither in the parts nor between them is not in the whole. -/
theorem not_mem_joinWith {c : Char} {sep : Text} (hsep : c ∉ sep) {parts : List Text}
    (h : ∀ p ∈ parts, c ∉ p) : c ∉ joinWith sep parts := by
  induction parts with
  | nil => exact List.not_mem_nil
  | cons p parts ih =>
    have hp := h p (List.mem_cons_self ..)
    cases parts with
    | nil => rwa [joinWith_singleton]
    | cons q parts =>
      have hrest := ih fun r hr => h r (List.mem_cons_of_mem _ hr)
      rw [joinWith_cons_cons, List.mem_append, List.mem_append, not_or, not_or]
      exact ⟨⟨hp, hsep⟩, hrest⟩

/-- A line is a part of the text. -/
theorem infix_of_mem_lines {s l : Text} (h : l ∈ lines s) : l <:+: s := by
  have hjoin : l <:+: joinLines (lines s) := infix_joinWith_of_mem h
  rwa [joinLines_lines] at hjoin

/-- A text that is not empty is a section of its own. -/
theorem sectionOf_of_ne_nil {q : Text} (h : q ≠ []) : sectionOf q = [q] := by
  obtain ⟨c, rest, rfl⟩ := List.exists_cons_of_ne_nil h
  exact sectionOf_cons c rest

/-- A section that comes before others is followed by a blank line. -/
theorem joinSections_cons (p : Text) {ps : List Text} (h : ps ≠ []) :
    joinSections (p :: ps) = p ++ '\n' :: '\n' :: joinSections ps := by
  obtain ⟨q, qs, rfl⟩ := List.exists_cons_of_ne_nil h
  rw [joinSections, joinWith_cons_cons, List.append_assoc, joinSections]
  rfl

@[simp] theorem joinSections_singleton (p : Text) : joinSections [p] = p := joinWith_singleton _ _

/-- Sections that come before others are followed by a blank line. -/
theorem joinSections_append {ps qs : List Text} (hps : ps ≠ []) (hqs : qs ≠ []) :
    joinSections (ps ++ qs) = joinSections ps ++ '\n' :: '\n' :: joinSections qs := by
  induction ps with
  | nil => exact absurd rfl hps
  | cons p ps ih =>
    by_cases hne : ps = []
    · rw [hne, List.singleton_append, joinSections_cons p hqs, joinSections_singleton]
    · rw [List.cons_append, joinSections_cons p (by simp [hqs]), ih hne, joinSections_cons p hne,
        List.append_assoc, List.cons_append, List.cons_append]

/-- The lines of sections are those of the first one, and those of each other one after an empty
line. -/
theorem lines_joinSections_cons (p : Text) (ps : List Text) :
    lines (joinSections (p :: ps)) = lines p ++ ps.flatMap fun q => [] :: lines q := by
  induction ps generalizing p with
  | nil => rw [joinSections_singleton, List.flatMap_nil, List.append_nil]
  | cons q ps ih =>
    rw [joinSections_cons p (List.cons_ne_nil q ps), lines_append_newline, lines_newline_cons,
      ih q, List.flatMap_cons, List.cons_append]

/-! ## Uniform line ends -/

/-- A line without the carriage return at its end. -/
def dropReturn (l : Text) : Text := if l.getLast? = some '\r' then l.dropLast else l

/-- Lines without the carriage returns that a line feed follows: the last line keeps its own. -/
def unixLineList : List Text → List Text
  | [] => []
  | [l] => [l]
  | l :: m :: ms => dropReturn l :: unixLineList (m :: ms)

@[simp] theorem dropReturn_nil : dropReturn [] = [] := rfl

/-- A line that does not end in a carriage return stays. -/
theorem dropReturn_of_ne {l : Text} (h : l.getLast? ≠ some '\r') : dropReturn l = l := if_neg h

/-- The first character of a line is safe where more follows, and where it is no carriage return. -/
theorem dropReturn_cons {c : Char} {l : Text} (h : l ≠ [] ∨ c ≠ '\r') :
    dropReturn (c :: l) = c :: dropReturn l := by
  cases l with
  | nil => simp [dropReturn, h.resolve_left (by simp)]
  | cons d l =>
    unfold dropReturn
    rw [List.getLast?_cons_cons]
    split
    · rw [List.dropLast_cons_of_ne_nil (by simp)]
    · rfl

/-- What is dropped of a line is its end. -/
theorem dropReturn_isPrefix (l : Text) : dropReturn l <+: l := by
  unfold dropReturn
  split
  · exact List.dropLast_prefix l
  · exact List.prefix_refl l

theorem unixLineList_cons (l : Text) {ls : List Text} (h : ls ≠ []) :
    unixLineList (l :: ls) = dropReturn l :: unixLineList ls := by
  obtain ⟨m, ms, rfl⟩ := List.exists_cons_of_ne_nil h
  rfl

/-- Where more lines follow, every line loses the carriage return at its end. -/
theorem unixLineList_append (ls : List Text) {ms : List Text} (h : ms ≠ []) :
    unixLineList (ls ++ ms) = ls.map dropReturn ++ unixLineList ms := by
  induction ls with
  | nil => rfl
  | cons l ls ih =>
    rw [List.cons_append, unixLineList_cons l (by simp [h]), ih, List.map_cons, List.cons_append]

/-- A carriage return at the end is a blank, and is trimmed in any case. -/
theorem trimEnd_dropReturn (l : Text) : trimEnd (dropReturn l) = trimEnd l := by
  unfold dropReturn
  split
  · next h =>
    obtain ⟨init, rfl⟩ := List.getLast?_eq_some_iff.1 h
    rw [List.dropLast_concat, trimEnd_append_of_blank init (by rfl)]
  · rfl

theorem trim_dropReturn (l : Text) : trim (dropReturn l) = trim l := by
  rw [← trim_trimEnd, trimEnd_dropReturn, trim_trimEnd]

@[simp] theorem isBlankText_dropReturn (l : Text) : isBlankText (dropReturn l) = isBlankText l := by
  rw [← isBlankText_trim, trim_dropReturn, isBlankText_trim]

/-- Each line is there with a uniform end, perhaps without a carriage return. -/
theorem mem_unixLineList_of_mem {ls : List Text} {l : Text} (h : l ∈ ls) :
    l ∈ unixLineList ls ∨ dropReturn l ∈ unixLineList ls := by
  obtain ⟨before, after, rfl⟩ := List.append_of_mem h
  rw [unixLineList_append before (List.cons_ne_nil l after)]
  by_cases hafter : after = []
  · exact .inl (by simp [hafter, unixLineList])
  · exact .inr (by simp [unixLineList_cons l hafter])

/-- Each line with a uniform end is a line, perhaps without a carriage return. -/
theorem exists_of_getElem?_unixLineList {ls : List Text} {i : Nat} {m : Text}
    (h : (unixLineList ls)[i]? = some m) : ∃ l, ls[i]? = some l ∧ (m = l ∨ m = dropReturn l) := by
  induction ls generalizing i with
  | nil => cases h
  | cons l ls ih =>
    by_cases hls : ls = []
    · rw [hls] at h ⊢
      exact ⟨m, h, .inl rfl⟩
    · rw [unixLineList_cons _ hls] at h
      cases i with
      | zero =>
        cases h
        exact ⟨l, rfl, .inr rfl⟩
      | succ i =>
        rw [List.getElem?_cons_succ] at h ⊢
        exact ih h

/-- Where no line ends in a carriage return, all lines stay. -/
theorem unixLineList_eq_self {ls : List Text} (h : ∀ l ∈ ls, l.getLast? ≠ some '\r') :
    unixLineList ls = ls := by
  induction ls with
  | nil => rfl
  | cons l ls ih =>
    have hls := ih fun m hm => h m (List.mem_cons_of_mem _ hm)
    by_cases hne : ls = []
    · rw [hne]; rfl
    · rw [unixLineList_cons l hne, hls, dropReturn_of_ne (h l (List.mem_cons_self ..))]

/-- The lines of a text with uniform line ends. -/
theorem lines_unixLines (s : Text) : lines (unixLines s) = unixLineList (lines s) := by
  fun_induction unixLines s with
  | case1 rest ih =>
    -- the carriage return is a line of its own, and is dropped
    rw [lines_newline_cons, ih,
      lines_cons_of_ne (c := '\r') (by decide) (lines_newline_cons rest),
      unixLineList_cons _ (lines_ne_nil rest)]
    rfl
  | case2 c rest hpair ih =>
    obtain ⟨l, ls, hls⟩ := exists_lines_eq_cons rest
    by_cases hc : c = '\n'
    · rw [hc, lines_newline_cons, lines_newline_cons, ih,
        unixLineList_cons _ (lines_ne_nil rest), dropReturn_nil]
    · rw [hls] at ih
      rw [lines_cons_of_ne hc hls]
      by_cases hne : ls = []
      · rw [hne] at ih ⊢
        exact lines_cons_of_ne hc ih
      · have hsafe : l ≠ [] ∨ c ≠ '\r' := by
          -- an empty first line with more lines after it is a line feed, which no return precedes
          by_contra hnot
          rw [not_or, not_not, not_not] at hnot
          obtain ⟨rfl, rfl⟩ := hnot
          have hrest : rest = '\n' :: joinLines ls := by
            rw [← joinLines_lines rest, hls, joinLines_cons _ hne, List.nil_append]
          exact hpair (joinLines ls) rfl hrest
        rw [unixLineList_cons l hne] at ih
        rw [lines_cons_of_ne hc ih, unixLineList_cons _ hne, dropReturn_cons hsafe]
  | case3 => rfl

/-! ## Indentation -/

/-- The common indentation is the least that a line which is not blank has. -/
theorem commonIndent_eq_iff {ls : List Text} (h : ∃ l ∈ ls, isBlankText l = false) {n : Nat} :
    commonIndent ls = n ↔ (∃ l ∈ ls, isBlankText l = false ∧ indentWidth l = n) ∧
      ∀ l ∈ ls, isBlankText l = false → n ≤ indentWidth l := by
  have hwidths : ((ls.filter fun l => !isBlankText l).map indentWidth).min? = some n ↔
      (∃ l ∈ ls, isBlankText l = false ∧ indentWidth l = n) ∧
        ∀ l ∈ ls, isBlankText l = false → n ≤ indentWidth l := by
    rw [List.min?_eq_some_iff, List.forall_mem_map]
    simp [and_assoc]
  rw [← hwidths, commonIndent]
  cases hmin : ((ls.filter fun l => !isBlankText l).map indentWidth).min? with
  | none =>
    obtain ⟨l, hl, hblank⟩ := h
    rw [List.min?_eq_none_iff, List.map_eq_nil_iff, List.filter_eq_nil_iff] at hmin
    exact absurd (by rw [hblank]; rfl) (hmin l hl)
  | some m => rw [Option.getD_some, Option.some_inj]

/-- Where a line that is not blank is not indented, nothing is common to all lines. -/
theorem commonIndent_eq_zero {ls : List Text} {l : Text} (hl : l ∈ ls)
    (hblank : isBlankText l = false) (hwidth : indentWidth l = 0) : commonIndent ls = 0 :=
  (commonIndent_eq_iff ⟨l, hl, hblank⟩).2 ⟨⟨l, hl, hblank, hwidth⟩, fun _ _ _ => Nat.zero_le _⟩

/-- No line that is not blank is indented less than all lines are. -/
theorem commonIndent_le {ls : List Text} {l : Text} (hl : l ∈ ls) (hblank : isBlankText l = false) :
    commonIndent ls ≤ indentWidth l :=
  ((commonIndent_eq_iff ⟨l, hl, hblank⟩).1 rfl).2 l hl hblank

/-- A line begins with as many spaces and tabs as its indentation is wide. -/
theorem all_isIndent_take {n : Nat} {l : Text} (h : n ≤ indentWidth l) :
    (l.take n).all isIndent = true := by
  have htake : l.take n <+: l.takeWhile isIndent :=
    List.prefix_of_prefix_length_le (List.take_prefix n l) (List.takeWhile_prefix _)
      ((List.length_take_le n l).trans h)
  exact List.all_eq_true.2 fun c hc => List.mem_takeWhile_imp (htake.subset hc)

/-- What is taken away of a line as its indentation is blank. -/
theorem isBlankText_take {n : Nat} {l : Text} (h : n ≤ indentWidth l) :
    isBlankText (l.take n) = true :=
  isBlankText_of_all_isIndent (all_isIndent_take h)

/-- Taking the common indentation away makes no line blank. -/
theorem isBlankText_outdentLine {ls : List Text} {l : Text} (hl : l ∈ ls) :
    isBlankText (outdentLine (commonIndent ls) l) = isBlankText l := by
  unfold outdentLine
  cases hblank : isBlankText l with
  | true => rfl
  | false =>
    have htake := isBlankText_take (commonIndent_le hl hblank)
    have happend := isBlankText_append (l.take (commonIndent ls)) (l.drop (commonIndent ls))
    rw [List.take_append_drop, hblank, htake, Bool.true_and] at happend
    exact happend.symm

/-- The lines that are read of a text, told by its own lines. -/
theorem contentLines_eq_outdentLines (s : Text) :
    contentLines s = outdentLines (unixLineList (lines s)) := by
  rw [contentLines_eq, lines_unixLines]

/-- Taking the common indentation away leaves the trimmed line as it is. -/
theorem trim_outdentLine {ls : List Text} {l : Text} (hl : l ∈ ls) :
    trim (outdentLine (commonIndent ls) l) = trim l := by
  unfold outdentLine
  split
  · next hblank => rw [trim_eq_nil_iff.2 hblank, trim_nil]
  · next hblank =>
    have htake := isBlankText_take (commonIndent_le hl (by simpa using hblank))
    conv_rhs => rw [← List.take_append_drop (commonIndent ls) l]
    rw [trim, trim, trimStart_append_of_blank htake]

/-- **Each line that is read is a part of a line**, and the same once it is trimmed. -/
theorem exists_of_mem_contentLines {t l : Text} (h : l ∈ contentLines t) :
    ∃ k ∈ lines t, trim l = trim k ∧ l <:+: k := by
  rw [contentLines_eq_outdentLines, outdentLines, List.mem_map] at h
  obtain ⟨m, hm, rfl⟩ := h
  have htrim := trim_outdentLine hm
  have hwithin : outdentLine (commonIndent (unixLineList (lines t))) m <:+: m := by
    unfold outdentLine
    split
    · exact List.nil_infix
    · exact (List.drop_suffix _ m).isInfix
  obtain ⟨i, hi⟩ := List.mem_iff_getElem?.1 hm
  obtain ⟨k, hk, rfl | rfl⟩ := exists_of_getElem?_unixLineList hi
  · exact ⟨m, List.mem_of_getElem? hk, htrim, hwithin⟩
  · exact ⟨k, List.mem_of_getElem? hk, by rw [htrim, trim_dropReturn],
      hwithin.trans (dropReturn_isPrefix k).isInfix⟩

/-- A blank line that is read is empty. -/
theorem eq_nil_of_mem_contentLines {t l : Text} (h : l ∈ contentLines t)
    (hblank : isBlankText l = true) : l = [] := by
  rw [contentLines_eq, outdentLines, List.mem_map] at h
  obtain ⟨m, hm, rfl⟩ := h
  rw [isBlankText_outdentLine hm] at hblank
  exact if_pos hblank

/-- Without common indentation the blank lines alone change. -/
theorem outdentLine_zero (l : Text) : outdentLine 0 l = if isBlankText l then [] else l := rfl

/-- What is not blank is no indentation. -/
theorem isIndent_eq_false {c : Char} (h : isBlank c = false) : isIndent c = false := by
  by_contra hindent
  rw [Bool.not_eq_false] at hindent
  rw [isBlank_of_isIndent hindent] at h
  cases h

/-- The first character of a line is no indentation if it is not blank. -/
theorem indentWidth_cons_of_not_blank {c : Char} (h : isBlank c = false) (l : Text) :
    indentWidth (c :: l) = 0 := by
  simp [indentWidth, isIndent_eq_false h]

/-- A line at the margin: it is not blank, and begins with no space or tab. -/
structure AtMargin (l : Text) : Prop where
  notBlank : isBlankText l = false
  notIndented : indentWidth l = 0

instance (l : Text) : Decidable (AtMargin l) :=
  decidable_of_iff (isBlankText l = false ∧ indentWidth l = 0)
    ⟨fun h => ⟨h.1, h.2⟩, fun h => ⟨h.notBlank, h.notIndented⟩⟩

theorem atMargin_cons {c : Char} (h : isBlank c = false) (l : Text) : AtMargin (c :: l) :=
  ⟨by rw [isBlankText_cons, h, Bool.false_and], indentWidth_cons_of_not_blank h l⟩

/-- A line is indented no less than its beginning is. -/
theorem indentWidth_le_of_isPrefix {l k : Text} (h : l <+: k) : indentWidth l ≤ indentWidth k := by
  obtain ⟨rest, rfl⟩ := h
  unfold indentWidth
  rw [List.takeWhile_append]
  split
  · rw [List.length_append]
    exact (List.takeWhile_prefix _).length_le.trans (Nat.le_add_right _ _)
  · exact Nat.le_refl _

/-- A line at the margin is there without the carriage return at its end too. -/
theorem AtMargin.dropReturn {l : Text} (h : AtMargin l) : AtMargin (dropReturn l) := by
  refine ⟨by rw [isBlankText_dropReturn, h.notBlank], Nat.le_zero.1 ?_⟩
  exact h.notIndented ▸ indentWidth_le_of_isPrefix (dropReturn_isPrefix l)

/-- Where a line is at the margin, nothing is common to all lines but the line ends. -/
theorem contentLines_of_atMargin {t l : Text} (hl : l ∈ lines t) (h : AtMargin l) :
    contentLines t = (unixLineList (lines t)).map (outdentLine 0) := by
  rw [contentLines_eq_outdentLines, outdentLines]
  rcases mem_unixLineList_of_mem hl with hmem | hmem
  · rw [commonIndent_eq_zero hmem h.notBlank h.notIndented]
  · rw [commonIndent_eq_zero hmem h.dropReturn.notBlank h.dropReturn.notIndented]

/-- A line as it is read where nothing is common to all lines and another one follows it. -/
def innerLine (l : Text) : Text := outdentLine 0 (dropReturn l)

/-- Only blanks at the end of the line may be gone. -/
theorem trimEnd_outdentLine_zero (l : Text) : trimEnd (outdentLine 0 l) = trimEnd l := by
  rw [outdentLine_zero]
  split
  · next hblank => rw [trimEnd_eq_nil_iff.2 hblank, trimEnd_nil]
  · rfl

@[simp] theorem trimEnd_innerLine (l : Text) : trimEnd (innerLine l) = trimEnd l := by
  rw [innerLine, trimEnd_outdentLine_zero, trimEnd_dropReturn]

/-- The first of the lines with uniform ends is the first line, up to blanks at its end. -/
theorem exists_unixLineList_cons (l : Text) (ls : List Text) :
    ∃ k, trimEnd k = trimEnd l ∧ unixLineList (l :: ls) = k :: unixLineList ls := by
  by_cases h : ls = []
  · exact ⟨l, rfl, by rw [h]; rfl⟩
  · exact ⟨dropReturn l, trimEnd_dropReturn l, unixLineList_cons l h⟩

/-- **The lines that are read of two groups of lines**, one of them at the margin. -/
theorem contentLines_of_lines_append {t l : Text} {ls ms : List Text} (ht : lines t = ls ++ ms)
    (hms : ms ≠ []) (hl : l ∈ ls ++ ms) (h : AtMargin l) :
    contentLines t = ls.map innerLine ++ (unixLineList ms).map (outdentLine 0) := by
  rw [contentLines_of_atMargin (ht ▸ hl) h, ht, unixLineList_append ls hms, List.map_append,
    List.map_map]
  rfl

/-- The first line of a trimmed text begins with its first character. -/
theorem lines_of_trim {s : Text} (h : trim s = s) (hne : s ≠ []) :
    ∃ c l ls, lines s = (c :: l) :: ls ∧ isBlank c = false := by
  obtain ⟨c, rest, rfl, hc⟩ := (eq_nil_or_cons_of_trim h).resolve_left hne
  obtain ⟨l, ls, hls⟩ := exists_lines_eq_cons rest
  exact ⟨c, l, ls, lines_cons_of_ne (by rintro rfl; cases hc) hls, hc⟩

/-- A trimmed text has no common indentation: its first line begins with a character that is not
blank. -/
theorem contentLines_of_trim {s : Text} (h : trim s = s) :
    contentLines s = (unixLineList (lines s)).map (outdentLine 0) := by
  by_cases hnil : s = []
  · rw [hnil]; rfl
  · obtain ⟨c, l, ls, hls, hc⟩ := lines_of_trim h hnil
    exact contentLines_of_atMargin (hls ▸ List.mem_cons_self ..) (atMargin_cons hc l)

end ComponentPages
