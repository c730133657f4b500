import ComponentPages.Proofs.Directives
import ComponentPages.Proofs.Lines

/-!
# A directive in front of a line

A directive and a space are put in front of what a line holds. Nothing about the lines that are read
of the text changes but this one: neither where lines end nor what they are indented by.

- **`leadWith`** — the line with the directive.
- **`withDirective`** — the text with the directive in front of one of its lines.
- **`contentLines_withDirective`** — the lines that are read of it.
-/

namespace ComponentPages

/-- The line with a directive and a space in front of its first character that is not blank. -/
def leadWith (d l : Text) : Text := l.takeWhile isBlank ++ (d ++ ' ' :: l.dropWhile isBlank)

/-- The text with a directive in front of line `i`. -/
def withDirective (d : Text) (i : Nat) (t : Text) : Text :=
  joinLines ((lines t).modify i (leadWith d))

section Line

variable {d list : Text} {blanks : Text} {c : Char}

/-- The blanks in front of the line stay where they are. -/
theorem leadWith_append (hblanks : isBlankText blanks = true) (hc : isBlank c = false)
    (d rest : Text) : leadWith d (blanks ++ c :: rest) = blanks ++ (d ++ ' ' :: c :: rest) := by
  have hall : ∀ b ∈ blanks, isBlank b = true := by simpa [isBlankText] using hblanks
  have hstop : ¬isBlank c = true := by rw [hc]; exact Bool.false_ne_true
  rw [leadWith, List.takeWhile_append_of_pos hall, List.takeWhile_cons_of_neg hstop,
    List.dropWhile_append_of_pos hall, List.dropWhile_cons_of_neg hstop, List.append_nil]

/-- A directive begins with a brace. -/
theorem exists_cons_of_directiveAt? {found : Text × Text} (hd : directiveAt? d = some found) :
    ∃ rest, d = '\x7b' :: rest := by
  cases d with
  | nil => cases hd
  | cons c rest =>
    by_cases hc : c = '\x7b'
    · exact ⟨rest, by rw [hc]⟩
    · rw [directiveAt?_cons_of_ne hc] at hd
      cases hd

/-- The line is not blank. -/
theorem isBlankText_leadWith (hd : directiveAt? d = some (list, [])) (l : Text) :
    isBlankText (leadWith d l) = false := by
  obtain ⟨rest, rfl⟩ := exists_cons_of_directiveAt? hd
  rw [leadWith, isBlankText_append, isBlankText_append, isBlankText_cons,
    show isBlank '\x7b' = false from rfl, Bool.false_and, Bool.false_and, Bool.and_false]

/-- Trimmed, the line is the directive and the trimmed line. -/
theorem trim_leadWith (hd : directiveAt? d = some (list, [])) {l : Text}
    (hl : isBlankText l = false) : trim (leadWith d l) = d ++ ' ' :: trim l := by
  obtain ⟨blanks, c, rest, rfl, hblanks, hc⟩ := exists_first_of_not_blank hl
  obtain ⟨tail, htail⟩ := exists_cons_of_directiveAt? hd
  have hrest : isBlankText (c :: rest) = false := by rw [isBlankText_cons, hc, Bool.false_and]
  have hstart : trimStart (d ++ ' ' :: c :: rest) = d ++ ' ' :: c :: rest := by
    rw [htail]; exact trimStart_cons_of_not_blank rfl _
  rw [leadWith_append hblanks hc, trim, trimStart_append_of_blank hblanks, hstart,
    trimEnd_append_cons _ _ hrest, trim, trimStart_append_of_blank hblanks,
    trimStart_cons_of_not_blank hc]

/-- The end of a line is found behind whatever stands in front of it. -/
theorem dropReturn_append (s : Text) {t : Text} (ht : t ≠ []) :
    dropReturn (s ++ t) = s ++ dropReturn t := by
  unfold dropReturn
  rw [List.getLast?_append_of_ne_nil s ht]
  split
  · rw [List.dropLast_append_of_ne_nil ht]
  · rfl

theorem dropReturn_leadWith {l : Text} (hl : isBlankText l = false) (d : Text) :
    dropReturn (leadWith d l) = leadWith d (dropReturn l) := by
  obtain ⟨blanks, c, rest, rfl, hblanks, hc⟩ := exists_first_of_not_blank hl
  have hret : c ≠ '\r' := by rintro rfl; cases hc
  have hgroup : blanks ++ (d ++ ' ' :: c :: rest) = (blanks ++ d ++ [' ']) ++ c :: rest := by simp
  rw [leadWith_append hblanks hc, hgroup, dropReturn_append _ (List.cons_ne_nil _ _),
    dropReturn_append _ (List.cons_ne_nil _ _), dropReturn_cons (.inr hret),
    leadWith_append hblanks hc]
  simp

/-- A character that is no indentation ends the indentation of a line. -/
theorem indentWidth_append_cons (blanks : Text) (hc : isIndent c = false) (rest : Text) :
    indentWidth (blanks ++ c :: rest) = indentWidth blanks := by
  unfold indentWidth
  induction blanks with
  | nil =>
    rw [List.nil_append, List.takeWhile_cons_of_neg (by rw [hc]; exact Bool.false_ne_true),
      List.takeWhile_nil]
  | cons b blanks ih =>
    rw [List.cons_append]
    by_cases hb : isIndent b = true
    · rw [List.takeWhile_cons_of_pos hb, List.takeWhile_cons_of_pos hb, List.length_cons,
        List.length_cons, ih]
    · rw [List.takeWhile_cons_of_neg hb, List.takeWhile_cons_of_neg hb]

theorem indentWidth_leadWith (hd : directiveAt? d = some (list, [])) {l : Text}
    (hl : isBlankText l = false) : indentWidth (leadWith d l) = indentWidth l := by
  obtain ⟨blanks, c, rest, rfl, hblanks, hc⟩ := exists_first_of_not_blank hl
  obtain ⟨tail, rfl⟩ := exists_cons_of_directiveAt? hd
  rw [leadWith_append hblanks hc, List.cons_append, indentWidth_append_cons _ rfl,
    indentWidth_append_cons _ (isIndent_eq_false hc)]

theorem outdentLine_leadWith (hd : directiveAt? d = some (list, [])) {l : Text}
    (hl : isBlankText l = false) {n : Nat} (hn : n ≤ indentWidth l) :
    outdentLine n (leadWith d l) = leadWith d (outdentLine n l) := by
  have hlead := isBlankText_leadWith hd l
  obtain ⟨blanks, c, rest, rfl, hblanks, hc⟩ := exists_first_of_not_blank hl
  have hlen : n ≤ blanks.length := by
    rw [indentWidth_append_cons _ (isIndent_eq_false hc)] at hn
    exact hn.trans (List.takeWhile_prefix _).length_le
  have hdrop : isBlankText (blanks.drop n) = true :=
    List.all_eq_true.2 fun b hb => List.all_eq_true.1 hblanks b (List.mem_of_mem_drop hb)
  rw [outdentLine, outdentLine, hlead, hl, if_neg Bool.false_ne_true, if_neg Bool.false_ne_true,
    leadWith_append hblanks hc, List.drop_append_of_le_length hlen,
    List.drop_append_of_le_length hlen, leadWith_append hdrop hc]

end Line

section Lines

variable {d list : Text} {ls : List Text} {i : Nat}

/-- Line ends are made uniform before or after the directive is put in. -/
theorem unixLineList_modify (h : ∀ l, ls[i]? = some l → isBlankText l = false) (d : Text) :
    unixLineList (ls.modify i (leadWith d)) = (unixLineList ls).modify i (leadWith d) := by
  induction ls generalizing i with
  | nil => simp [unixLineList]
  | cons l ls ih =>
    by_cases hls : ls = []
    · rw [hls]
      cases i with
      | zero => rfl
      | succ i => simp [unixLineList]
    · cases i with
      | zero =>
        rw [List.modify_zero_cons, unixLineList_cons _ hls, unixLineList_cons _ hls,
          List.modify_zero_cons, dropReturn_leadWith (h l rfl)]
      | succ i =>
        have hmodify : ls.modify i (leadWith d) ≠ [] := by simpa using hls
        rw [List.modify_succ_cons, unixLineList_cons _ hmodify, unixLineList_cons _ hls,
          List.modify_succ_cons, ih fun m hm => h m (by simpa using hm)]

/-- The directive does not change what is common to all lines. -/
theorem commonIndent_modify (hd : directiveAt? d = some (list, []))
    (h : ∀ l, ls[i]? = some l → isBlankText l = false) :
    commonIndent (ls.modify i (leadWith d)) = commonIndent ls := by
  have hwidths : ((ls.modify i (leadWith d)).filter fun l => !isBlankText l).map indentWidth =
      (ls.filter fun l => !isBlankText l).map indentWidth := by
    induction ls generalizing i with
    | nil => simp
    | cons l ls ih =>
      cases i with
      | zero =>
        have hl := h l rfl
        rw [List.modify_zero_cons, List.filter_cons_of_pos (by rw [isBlankText_leadWith hd]; rfl),
          List.filter_cons_of_pos (by rw [hl]; rfl), List.map_cons, List.map_cons,
          indentWidth_leadWith hd hl]
      | succ i =>
        have hrest := ih (i := i) fun m hm => h m (by simpa using hm)
        rw [List.modify_succ_cons, List.filter_cons, List.filter_cons]
        split
        · rw [List.map_cons, List.map_cons, hrest]
        · exact hrest
  rw [commonIndent, hwidths, commonIndent]

/-- Indentation is taken away before or after the directive is put in. -/
theorem outdentLines_modify (hd : directiveAt? d = some (list, []))
    (h : ∀ l, ls[i]? = some l → isBlankText l = false) :
    outdentLines (ls.modify i (leadWith d)) = (outdentLines ls).modify i (leadWith d) := by
  rw [outdentLines, outdentLines, commonIndent_modify hd h]
  refine List.ext_getElem? fun j => ?_
  rw [List.getElem?_map]
  by_cases hij : i = j
  · rw [← hij, List.getElem?_modify_eq, List.getElem?_modify_eq, List.getElem?_map]
    cases hl : ls[i]? with
    | none => rfl
    | some l =>
      have hblank := h l hl
      have hle := commonIndent_le (List.mem_of_getElem? hl) hblank
      exact congrArg some (outdentLine_leadWith hd hblank hle)
  · rw [List.getElem?_modify_ne _ _ hij, List.getElem?_modify_ne _ _ hij, List.getElem?_map]

/-- **The lines that are read of the text with a directive** are those of the text, with the
directive in front of the same line. -/
theorem contentLines_withDirective (hd : directiveAt? d = some (list, [])) (hnl : '\n' ∉ d)
    {t l : Text} (hl : (contentLines t)[i]? = some l) (hblank : isBlankText l = false) :
    contentLines (withDirective d i t) = (contentLines t).modify i (leadWith d) := by
  rw [contentLines_eq_outdentLines, outdentLines, List.getElem?_map, Option.map_eq_some_iff] at hl
  obtain ⟨m, hm, rfl⟩ := hl
  rw [isBlankText_outdentLine (List.mem_of_getElem? hm)] at hblank
  obtain ⟨k, hk, hkm⟩ := exists_of_getElem?_unixLineList hm
  have hkblank : isBlankText k = false := by
    rcases hkm with rfl | rfl
    · exact hblank
    · rwa [← isBlankText_trim, ← trim_dropReturn, isBlankText_trim]
  have honly {n : Text} {ns : List Text} (hn : ns[i]? = some n) (hnblank : isBlankText n = false) :
      ∀ l, ns[i]? = some l → isBlankText l = false := by
    intro l hl
    rw [hn] at hl
    cases hl
    exact hnblank
  have hlines : lines (withDirective d i t) = (lines t).modify i (leadWith d) := by
    refine lines_joinLines (by simpa using lines_ne_nil t) fun l hl => ?_
    obtain ⟨j, hj⟩ := List.mem_iff_getElem?.1 hl
    by_cases hij : i = j
    · rw [← hij, List.getElem?_modify_eq] at hj
      obtain ⟨n, hn, rfl⟩ := Option.map_eq_some_iff.1 hj
      have hnmem := newline_not_mem_of_mem_lines (List.mem_of_getElem? hn)
      rw [leadWith, List.mem_append, List.mem_append, List.mem_cons]
      rintro (h | h | h | h)
      · exact hnmem ((List.takeWhile_prefix _).subset h)
      · exact hnl h
      · cases h
      · exact hnmem ((List.dropWhile_suffix _).subset h)
    · rw [List.getElem?_modify_ne _ _ hij] at hj
      exact newline_not_mem_of_mem_lines (List.mem_of_getElem? hj)
  rw [contentLines_eq_outdentLines, contentLines_eq_outdentLines, hlines,
    unixLineList_modify (honly hk hkblank), outdentLines_modify hd (honly hm hblank)]

end Lines

end ComponentPages
