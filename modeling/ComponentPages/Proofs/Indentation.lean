import ComponentPages.Proofs.BytePositions
import ComponentPages.Proofs.Lines
import ComponentPages.Proofs.Results

/-!
# Texts without their common indentation

Every line keeps its place, and those that are not blank lose the same number of spaces and tabs.
That number is the greatest possible, so one of these lines is at the margin afterwards, and there
is nothing left to take away.

- **`Outdented`** — a line before and after; **`outdented_iff`** says that this is the line without
  its first characters, where it is indented that far.
- **`Unindented`** — a text before and after; **`unindented_iff`** says that every text has one text
  without its common indentation, the one that `unindent` makes of it.
- **`unindentAlong?`** — the lines as slices from a byte position on; **`unindentAlong?_eq`** says
  that no slice is refused.
- **`unindent_lineByLine`** — the text line by line, and that it is unindented once and for all.
-/

namespace ComponentPages

/-! ## A line before and after -/

/-- A line before and after `n` characters of indentation are taken away. -/
inductive Outdented (n : Nat) : Text → Text → Prop
  /-- A blank line becomes empty. -/
  | blank {l : Text} (hl : isBlankText l = true) : Outdented n l []
  /-- Any other line loses `n` characters in front, each of them a space or a tab. -/
  | indented {indent l : Text} (hindent : indent.all isIndent = true) (hlength : indent.length = n)
    (hl : isBlankText l = false) : Outdented n (indent ++ l) l

section Line

variable {n : Nat} {l k : Text}

/-- What indents a line adds to its indentation. -/
theorem indentWidth_append {indent : Text} (h : indent.all isIndent = true) (l : Text) :
    indentWidth (indent ++ l) = indent.length + indentWidth l := by
  rw [indentWidth, List.takeWhile_append_of_pos (List.all_eq_true.1 h), List.length_append,
    indentWidth]

/-- Whether a line is blank does not depend on its indentation. -/
theorem isBlankText_indent_append {indent : Text} (h : indent.all isIndent = true) (l : Text) :
    isBlankText (indent ++ l) = isBlankText l := by
  rw [isBlankText_append, isBlankText_of_all_isIndent h, Bool.true_and]

namespace Outdented

/-- A line is blank without some of its indentation exactly where it was blank before. -/
theorem isBlankText_eq (h : Outdented n l k) : isBlankText k = isBlankText l := by
  cases h with
  | blank hl => exact hl.symm
  | indented hindent hlength hl => exact (isBlankText_indent_append hindent k).symm

/-- A line that is not blank loses as much of its indentation as is taken away. -/
theorem indentWidth_eq (h : Outdented n l k) (hl : isBlankText l = false) :
    indentWidth l = n + indentWidth k := by
  cases h with
  | blank hblank => rw [hblank] at hl; cases hl
  | indented hindent hlength _ => rw [indentWidth_append hindent, hlength]

/-- With nothing more to take away, the line stays as it is. -/
theorem self (h : Outdented n l k) : Outdented 0 k k := by
  cases h with
  | blank hl => exact .blank rfl
  | indented hindent hlength hl =>
    show Outdented 0 ([] ++ k) k
    exact .indented rfl rfl hl

end Outdented

/-- **A line without its first characters**, where it is indented that far. -/
theorem outdented_iff :
    Outdented n l k ↔ (isBlankText l = false → n ≤ indentWidth l) ∧ outdentLine n l = k := by
  constructor
  · intro h
    refine ⟨fun hl => h.indentWidth_eq hl ▸ Nat.le_add_right n _, ?_⟩
    cases h with
    | blank hl => exact if_pos hl
    | indented hindent hlength hl =>
      rw [outdentLine, isBlankText_indent_append hindent, hl, if_neg Bool.false_ne_true, ← hlength,
        List.drop_left]
  · rintro ⟨hwidth, rfl⟩
    cases hl : isBlankText l with
    | true =>
      rw [outdentLine, if_pos hl]
      exact .blank hl
    | false =>
      -- the line is put together from what goes and what stays
      have hindent := all_isIndent_take (hwidth hl)
      have hlength : (l.take n).length = n :=
        List.length_take_of_le ((hwidth hl).trans (List.takeWhile_prefix _).length_le)
      have hrest : isBlankText (l.drop n) = false := by
        rw [← isBlankText_indent_append hindent, List.take_append_drop, hl]
      have h := Outdented.indented hindent hlength hrest
      rw [List.take_append_drop] at h
      rwa [outdentLine, hl, if_neg Bool.false_ne_true]

end Line

/-! ## A text before and after -/

/-- A text before and after its common indentation is taken away: the same number of characters from
all lines, and so many that a line is at the margin, if one is not blank. -/
structure Unindented (s t : Text) : Prop where
  outdented : ∃ n, List.Forall₂ (Outdented n) (lines s) (lines t)
  margin : ∀ l ∈ lines s, isBlankText l = false → ∃ k ∈ lines t, AtMargin k

/-- Lines have lost `n` characters exactly where they are indented that far and are outdented. -/
theorem forall₂_outdented_iff {n : Nat} {ls ks : List Text} :
    List.Forall₂ (Outdented n) ls ks ↔
      (∀ l ∈ ls, isBlankText l = false → n ≤ indentWidth l) ∧ ls.map (outdentLine n) = ks := by
  have hrel : Outdented n =
      fun l k => (isBlankText l = false → n ≤ indentWidth l) ∧ outdentLine n l = k := by
    funext l k
    exact propext outdented_iff
  rw [hrel, List.forall₂_and_left, ← List.forall₂_map_left_iff, List.forall₂_eq_eq_eq]

/-- Each line that has lost indentation comes from a line before. -/
theorem exists_outdented_of_mem {n : Nat} {ls ks : List Text} {k : Text}
    (h : List.Forall₂ (Outdented n) ls ks) (hk : k ∈ ks) : ∃ l ∈ ls, Outdented n l k := by
  obtain ⟨hwidth, rfl⟩ := forall₂_outdented_iff.1 h
  obtain ⟨l, hl, rfl⟩ := List.mem_map.1 hk
  exact ⟨l, hl, outdented_iff.2 ⟨hwidth l hl, rfl⟩⟩

/-- Unindenting a text takes its common indentation away. -/
theorem unindented_unindent (s : Text) : Unindented s (unindent s) := by
  have hlines : List.Forall₂ (Outdented (commonIndent (lines s))) (lines s)
      (lines (unindent s)) := by
    rw [lines_unindent, forall₂_outdented_iff]
    exact ⟨fun _ => commonIndent_le, rfl⟩
  refine ⟨⟨_, hlines⟩, fun l hl hblank => ?_⟩
  -- a line that is indented the least is at the margin afterwards
  obtain ⟨⟨m, hm, hmblank, hwidth⟩, -⟩ := (commonIndent_eq_iff ⟨l, hl, hblank⟩).1 rfl
  have hmem : outdentLine (commonIndent (lines s)) m ∈ lines (unindent s) := by
    rw [lines_unindent]
    exact List.mem_map_of_mem hm
  have hout : Outdented (commonIndent (lines s)) m (outdentLine (commonIndent (lines s)) m) :=
    outdented_iff.2 ⟨commonIndent_le hm, rfl⟩
  refine ⟨_, hmem, ⟨hout.isBlankText_eq.trans hmblank, ?_⟩⟩
  have hrest := hout.indentWidth_eq hmblank
  omega

namespace Unindented

variable {s t : Text}

/-- No more and no less can be taken away: the line at the margin tells how much it was. -/
theorem eq_unindent (h : Unindented s t) : t = unindent s := by
  obtain ⟨⟨n, hlines⟩, hmargin⟩ := h
  obtain ⟨hwidth, hmap⟩ := forall₂_outdented_iff.1 hlines
  have hsame : ∀ l ∈ lines s, outdentLine n l = outdentLine (commonIndent (lines s)) l := by
    intro l hl
    cases hblank : isBlankText l with
    | true => rw [outdentLine, outdentLine, if_pos hblank, if_pos hblank]
    | false =>
      obtain ⟨k, hk, hkmargin⟩ := hmargin l hl hblank
      obtain ⟨m, hm, hout⟩ := exists_outdented_of_mem hlines hk
      have hmblank : isBlankText m = false := hout.isBlankText_eq ▸ hkmargin.notBlank
      have hmwidth : indentWidth m = n := by
        rw [hout.indentWidth_eq hmblank, hkmargin.notIndented, Nat.add_zero]
      rw [(commonIndent_eq_iff ⟨l, hl, hblank⟩).2 ⟨⟨m, hm, hmblank, hmwidth⟩, hwidth⟩]
  rw [unindent, outdentLines, ← List.map_congr_left hsame, hmap, joinLines_lines]

/-- A text without its common indentation has none to take away. -/
theorem self (h : Unindented s t) : Unindented t t := by
  obtain ⟨⟨n, hlines⟩, hmargin⟩ := h
  refine ⟨⟨0, List.forall₂_same.2 fun k hk => ?_⟩, fun k hk hblank => ?_⟩
  · obtain ⟨l, -, hout⟩ := exists_outdented_of_mem hlines hk
    exact hout.self
  · obtain ⟨l, hl, hout⟩ := exists_outdented_of_mem hlines hk
    exact hmargin l hl (hout.isBlankText_eq ▸ hblank)

end Unindented

/-- **There is one text without the common indentation.** -/
theorem unindented_iff {s t : Text} : Unindented s t ↔ t = unindent s :=
  ⟨Unindented.eq_unindent, fun h => h ▸ unindented_unindent s⟩

/-! ## Slices of the lines -/

/-- The bytes of a line that come before its first character which is no space or tab. -/
def indentBytes (l : Text) : Nat := utf8Length l - utf8Length (l.dropWhile isIndent)

/-- The least number of bytes before the first character that is no space or tab, over the lines
that are not blank; zero if all are. -/
def commonIndentBytes (ls : List Text) : Nat :=
  (((ls.filter fun l => !isBlankText l).map indentBytes).min?).getD 0

/-- A line from a byte position on, empty if it is blank. There is no answer where the slice is out
of bounds or begins inside a character. -/
def outdentSlice? (n : Nat) (l : Text) : Option Text :=
  if isBlankText l then some [] else byteSlice? l n (utf8Length l)

/-- The text without the common indentation of its lines by byte positions, if no slice is
refused. -/
def unindentAlong? (s : Text) : Option Text := do
  let slices ← (lines s).mapM (outdentSlice? (commonIndentBytes (lines s)))
  return joinLines slices

/-- Spaces and tabs take one byte each. -/
theorem utf8Length_of_all_isIndent {s : Text} (h : s.all isIndent = true) :
    utf8Length s = s.length := by
  induction s with
  | nil => rfl
  | cons c s ih =>
    rw [List.all_cons, Bool.and_eq_true] at h
    have hsize : c.utf8Size = 1 := by
      have hc := h.1
      simp only [isIndent, Bool.or_eq_true, beq_iff_eq] at hc
      rcases hc with rfl | rfl <;> rfl
    rw [utf8Length_cons, hsize, ih h.2, List.length_cons, Nat.add_comm]

/-- The indentation of a line has as many bytes as characters. -/
theorem indentBytes_eq (l : Text) : indentBytes l = indentWidth l := by
  have hlength : utf8Length l = indentWidth l + utf8Length (l.dropWhile isIndent) := by
    rw [indentWidth, ← utf8Length_of_all_isIndent List.all_takeWhile, ← utf8Length_append,
      List.takeWhile_append_dropWhile]
  rw [indentBytes, hlength, Nat.add_sub_cancel]

theorem commonIndentBytes_eq (ls : List Text) : commonIndentBytes ls = commonIndent ls := by
  rw [commonIndentBytes, funext indentBytes_eq, commonIndent]

/-- The slice is what the line is afterwards. -/
theorem Outdented.slice_eq {n : Nat} {l k : Text} (h : Outdented n l k) :
    outdentSlice? n l = some k := by
  cases h with
  | blank hl => exact if_pos hl
  | @indented indent _ hindent hlength hl =>
    have hslice := byteSlice?_append indent k []
    rw [List.append_nil, utf8Length_of_all_isIndent hindent, hlength] at hslice
    rw [outdentSlice?, isBlankText_indent_append hindent, hl, if_neg Bool.false_ne_true, hslice]

/-- **No slice is refused**, and the slices are the lines of the text afterwards. -/
theorem unindentAlong?_eq (s : Text) : unindentAlong? s = some (unindent s) := by
  have hslices : (lines s).mapM (outdentSlice? (commonIndent (lines s))) =
      some (outdentLines (lines s)) := by
    have hmap := mapM_eq_some_map (f := id) fun l (hl : l ∈ lines s) =>
      (outdented_iff.2 ⟨commonIndent_le hl, rfl⟩).slice_eq
    rwa [List.map_id] at hmap
  rw [unindentAlong?, commonIndentBytes_eq, hslices]
  rfl

/-! ## Line by line -/

/-- **The text line by line.** There are as many lines as before. The blank ones are empty, and the
others have lost the same number of spaces and tabs and nothing else, so many that one of them is at
the margin; the text is the only one that is made of the lines in this way. Done again it changes
nothing. In bytes too, no line is cut behind its end or inside a character. -/
theorem unindent_lineByLine (s : Text) :
    (lines (unindent s)).length = (lines s).length ∧
    (∀ t, Unindented s t ↔ t = unindent s) ∧
    unindent (unindent s) = unindent s ∧
    unindentAlong? s = some (unindent s) := by
  have hunindented := unindented_unindent s
  obtain ⟨n, hlines⟩ := hunindented.outdented
  exact ⟨hlines.length_eq.symm, fun t => unindented_iff, hunindented.self.eq_unindent.symm,
    unindentAlong?_eq s⟩

/-- A tab counts as a space does, and other blanks indent no line. -/
example : unindent " \t é\n\u3000 \t\n\t\t\u3000x\n   ".toList = " é\n\n\u3000x\n".toList := by
  decide

end ComponentPages
