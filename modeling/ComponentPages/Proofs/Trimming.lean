import ComponentPages.Text.Basic
import Mathlib.Data.List.DropRight
import Mathlib.Data.List.TakeWhile

/-!
# Blanks at the ends of a text

Trimming takes blanks away at the two ends of a text and nothing else.

- **`trimStart_append`**, **`trimEnd_append`** — only the outer of two parts is trimmed, unless it
  is blank.
- **`trim_eq_trimStart_trimEnd`** — the two ends are trimmed independently.
- **`trim_eq_self_iff`** — a trimmed text is one that is trimmed at each end.
-/

namespace ComponentPages

/-! ## Blank texts -/

@[simp] theorem isBlankText_nil : isBlankText [] = true := rfl

@[simp] theorem isBlankText_cons (c : Char) (s : Text) :
    isBlankText (c :: s) = (isBlank c && isBlankText s) := rfl

/-- Two texts put together are blank where both are. -/
@[simp] theorem isBlankText_append (s t : Text) :
    isBlankText (s ++ t) = (isBlankText s && isBlankText t) := by
  simp [isBlankText]

/-- Blankness does not depend on the order of the characters. -/
@[simp] theorem isBlankText_reverse (s : Text) : isBlankText s.reverse = isBlankText s := by
  simp [isBlankText]

/-- Whatever indents only is blank. -/
theorem isBlankText_of_all_isIndent {s : Text} (h : s.all isIndent = true) : isBlankText s = true :=
  List.all_eq_true.2 fun c hc => isBlank_of_isIndent (List.all_eq_true.1 h c hc)

/-- A text that is not blank is a run of blanks, a first character that is none, and a rest. -/
theorem exists_first_of_not_blank {s : Text} (h : isBlankText s = false) :
    ∃ blanks c rest, s = blanks ++ c :: rest ∧ isBlankText blanks = true ∧ isBlank c = false := by
  induction s with
  | nil => cases h
  | cons d s ih =>
    by_cases hd : isBlank d = true
    · rw [isBlankText_cons, hd, Bool.true_and] at h
      obtain ⟨blanks, c, rest, rfl, hblanks, hc⟩ := ih h
      exact ⟨d :: blanks, c, rest, rfl, by simp [hd, hblanks], hc⟩
    · exact ⟨[], d, s, rfl, rfl, by simpa using hd⟩

/-! ## The beginning -/

/-- Nothing is left of a text without its leading blanks exactly where it is blank. -/
theorem trimStart_eq_nil_iff {s : Text} : trimStart s = [] ↔ isBlankText s = true := by
  simp [trimStart, isBlankText, List.dropWhile_eq_nil_iff]

/-- Blanks in front of a text are dropped. -/
theorem trimStart_append_of_blank {s : Text} (h : isBlankText s = true) (t : Text) :
    trimStart (s ++ t) = trimStart t := by
  rw [trimStart, List.dropWhile_append_of_pos (by simpa [isBlankText] using h), trimStart]

/-- A first character that is not blank stops the trimming. -/
theorem trimStart_cons_of_not_blank {c : Char} (h : isBlank c = false) (s : Text) :
    trimStart (c :: s) = c :: s := by
  simp [trimStart, h]

/-- What follows a part that is not blank is left alone. -/
theorem trimStart_append {s : Text} (h : isBlankText s = false) (t : Text) :
    trimStart (s ++ t) = trimStart s ++ t := by
  obtain ⟨blanks, c, rest, rfl, hblanks, hc⟩ := exists_first_of_not_blank h
  rw [List.append_assoc, trimStart_append_of_blank hblanks, trimStart_append_of_blank hblanks,
    List.cons_append, trimStart_cons_of_not_blank hc, trimStart_cons_of_not_blank hc,
    List.cons_append]

@[simp] theorem trimStart_trimStart (s : Text) : trimStart (trimStart s) = trimStart s := by
  cases hs : isBlankText s with
  | true => rw [trimStart_eq_nil_iff.2 hs]; rfl
  | false =>
    obtain ⟨blanks, c, rest, rfl, hblanks, hc⟩ := exists_first_of_not_blank hs
    rw [trimStart_append_of_blank hblanks, trimStart_cons_of_not_blank hc,
      trimStart_cons_of_not_blank hc]

/-- What is left of a text without its leading blanks is its end. -/
theorem trimStart_suffix (s : Text) : trimStart s <:+ s := List.dropWhile_suffix _

/-- A text that keeps its beginning does not begin with a blank. -/
theorem isBlank_of_trimStart_cons {c : Char} {s : Text} (h : trimStart (c :: s) = c :: s) :
    isBlank c = false := by
  by_contra hc
  rw [Bool.not_eq_false] at hc
  have hdrop : trimStart (c :: s) = trimStart s :=
    trimStart_append_of_blank (s := [c]) (by simp [hc]) s
  have hlen := (trimStart_suffix s).length_le
  rw [← hdrop, h, List.length_cons] at hlen
  omega

/-- A beginning of a text without leading blanks has none. -/
theorem trimStart_eq_self_of_isPrefix {s t : Text} (h : t <+: s) (hs : trimStart s = s) :
    trimStart t = t := by
  cases t with
  | nil => rfl
  | cons c t =>
    obtain ⟨rest, rfl⟩ := h
    exact trimStart_cons_of_not_blank (isBlank_of_trimStart_cons hs) t

/-- What is dropped of a text at its beginning is blank. -/
theorem exists_blank_append_trimStart (s : Text) :
    ∃ blanks, isBlankText blanks = true ∧ s = blanks ++ trimStart s :=
  ⟨s.takeWhile isBlank, List.all_takeWhile, List.takeWhile_append_dropWhile.symm⟩

/-- The blanks in front of a text do not decide whether it is blank. -/
@[simp] theorem isBlankText_trimStart (s : Text) : isBlankText (trimStart s) = isBlankText s := by
  cases hs : isBlankText s with
  | true => rw [trimStart_eq_nil_iff.2 hs]; rfl
  | false =>
    obtain ⟨blanks, c, rest, rfl, hblanks, hc⟩ := exists_first_of_not_blank hs
    rw [trimStart_append_of_blank hblanks, trimStart_cons_of_not_blank hc, isBlankText_cons, hc,
      Bool.false_and]

/-! ## The end -/

/-- The end of a text is trimmed as the beginning of its reverse. -/
theorem trimEnd_eq_reverse (s : Text) : trimEnd s = (trimStart s.reverse).reverse := rfl

/-- Nothing is left of a text without its trailing blanks exactly where it is blank. -/
theorem trimEnd_eq_nil_iff {s : Text} : trimEnd s = [] ↔ isBlankText s = true := by
  rw [trimEnd_eq_reverse, List.reverse_eq_nil_iff, trimStart_eq_nil_iff, isBlankText_reverse]

/-- Blanks after a text are dropped. -/
theorem trimEnd_append_of_blank (s : Text) {t : Text} (h : isBlankText t = true) :
    trimEnd (s ++ t) = trimEnd s := by
  rw [trimEnd_eq_reverse, List.reverse_append,
    trimStart_append_of_blank (by rwa [isBlankText_reverse]), trimEnd_eq_reverse]

/-- What stands before a part that is not blank is left alone. -/
theorem trimEnd_append (s : Text) {t : Text} (h : isBlankText t = false) :
    trimEnd (s ++ t) = s ++ trimEnd t := by
  rw [trimEnd_eq_reverse, List.reverse_append, trimStart_append (by rwa [isBlankText_reverse]),
    List.reverse_append, List.reverse_reverse, trimEnd_eq_reverse]

/-- What stands before a part that is not blank is left alone, a blank in between included. -/
theorem trimEnd_append_cons (s : Text) (c : Char) {t : Text} (h : isBlankText t = false) :
    trimEnd (s ++ c :: t) = s ++ c :: trimEnd t := by
  rw [← List.singleton_append, ← List.append_assoc, trimEnd_append _ h, List.append_assoc,
    List.singleton_append]

/-- A first character that is not blank stays. -/
theorem trimEnd_cons_of_not_blank {c : Char} (h : isBlank c = false) (s : Text) :
    trimEnd (c :: s) = c :: trimEnd s := by
  cases hs : isBlankText s with
  | true =>
    rw [trimEnd_eq_nil_iff.2 hs, ← List.singleton_append, trimEnd_append_of_blank _ hs]
    simp [trimEnd, dropEndWhile, h]
  | false => rw [← List.singleton_append, trimEnd_append _ hs, List.singleton_append]

@[simp] theorem trimEnd_nil : trimEnd [] = [] := rfl

@[simp] theorem trimEnd_trimEnd (s : Text) : trimEnd (trimEnd s) = trimEnd s :=
  List.rdropWhile_idempotent isBlank s

/-- What is left of a text without its trailing blanks is its beginning. -/
theorem trimEnd_isPrefix (s : Text) : trimEnd s <+: s := List.rdropWhile_prefix isBlank s

/-- What is dropped of a text at its end is blank. -/
theorem exists_trimEnd_append_blank (s : Text) :
    ∃ blanks, isBlankText blanks = true ∧ s = trimEnd s ++ blanks := by
  obtain ⟨blanks, hblanks, hs⟩ := exists_blank_append_trimStart s.reverse
  refine ⟨blanks.reverse, by rwa [isBlankText_reverse], ?_⟩
  rw [trimEnd_eq_reverse, ← List.reverse_append, ← hs, List.reverse_reverse]

/-- The blanks after a text do not decide whether it is blank. -/
@[simp] theorem isBlankText_trimEnd (s : Text) : isBlankText (trimEnd s) = isBlankText s := by
  rw [trimEnd_eq_reverse, isBlankText_reverse, isBlankText_trimStart, isBlankText_reverse]

/-- A text that keeps its end does not end in a blank. -/
theorem isBlank_getLast_of_trimEnd {s : Text} (h : trimEnd s = s) {c : Char}
    (hc : s.getLast? = some c) : isBlank c = false := by
  obtain ⟨init, rfl⟩ := List.getLast?_eq_some_iff.1 hc
  have hreverse : trimStart (c :: init.reverse) = c :: init.reverse := by
    simpa [trimEnd_eq_reverse] using congrArg List.reverse h
  exact isBlank_of_trimStart_cons hreverse

/-! ## Both ends -/

/-- Either end of a text may be trimmed first. -/
theorem trim_eq_trimStart_trimEnd (s : Text) : trim s = trimStart (trimEnd s) := by
  cases hs : isBlankText s with
  | true => rw [trim, trimStart_eq_nil_iff.2 hs, trimEnd_eq_nil_iff.2 hs]; rfl
  | false =>
    obtain ⟨blanks, c, rest, rfl, hblanks, hc⟩ := exists_first_of_not_blank hs
    have hrest : isBlankText (c :: rest) = false := by rw [isBlankText_cons, hc, Bool.false_and]
    rw [trim, trimStart_append_of_blank hblanks, trimStart_cons_of_not_blank hc,
      trimEnd_append blanks hrest, trimStart_append_of_blank hblanks,
      trimEnd_cons_of_not_blank hc, trimStart_cons_of_not_blank hc]

/-- Nothing is left of a trimmed text exactly where it is blank. -/
theorem trim_eq_nil_iff {s : Text} : trim s = [] ↔ isBlankText s = true := by
  rw [trim, trimEnd_eq_nil_iff, isBlankText_trimStart]

@[simp] theorem isBlankText_trim (s : Text) : isBlankText (trim s) = isBlankText s := by
  rw [trim, isBlankText_trimEnd, isBlankText_trimStart]

@[simp] theorem trim_trimEnd (s : Text) : trim (trimEnd s) = trim s := by
  rw [trim_eq_trimStart_trimEnd, trimEnd_trimEnd, ← trim_eq_trimStart_trimEnd]

@[simp] theorem trim_trimStart (s : Text) : trim (trimStart s) = trim s := by
  rw [trim, trimStart_trimStart, trim]

@[simp] theorem trimStart_trim (s : Text) : trimStart (trim s) = trim s := by
  rw [trim_eq_trimStart_trimEnd, trimStart_trimStart]

@[simp] theorem trimEnd_trim (s : Text) : trimEnd (trim s) = trim s := by
  rw [trim, trimEnd_trimEnd]

@[simp] theorem trim_trim (s : Text) : trim (trim s) = trim s := by
  rw [trim, trimStart_trim, trimEnd_trim]

/-- The trimmed text is the end of what trimming its end leaves. -/
theorem trim_suffix_trimEnd (s : Text) : trim s <:+ trimEnd s := by
  rw [trim_eq_trimStart_trimEnd]; exact trimStart_suffix _

/-- The trimmed text is the end of a text that has no blanks at its own. -/
theorem trim_suffix_of_trimEnd {s : Text} (h : trimEnd s = s) : trim s <:+ s := by
  rw [trim_eq_trimStart_trimEnd, h]; exact trimStart_suffix s

/-- The trimmed text is a part of the text. -/
theorem trim_isInfix (s : Text) : trim s <:+: s :=
  (trim_suffix_trimEnd s).isInfix.trans (trimEnd_isPrefix s).isInfix

/-- Only blanks are trimmed. -/
theorem mem_trim {c : Char} {s : Text} (h : c ∈ s) (hc : isBlank c = false) : c ∈ trim s := by
  obtain ⟨after, hafter, hs⟩ := exists_trimEnd_append_blank s
  obtain ⟨before, hbefore, hend⟩ := exists_blank_append_trimStart (trimEnd s)
  have hnot {blanks : Text} (hblanks : isBlankText blanks = true) : c ∉ blanks := fun hmem => by
    rw [List.all_eq_true.1 hblanks c hmem] at hc
    cases hc
  rw [hs, hend, ← trim_eq_trimStart_trimEnd] at h
  rcases List.mem_append.1 h with h | h
  · exact (List.mem_append.1 h).resolve_left (hnot hbefore)
  · exact absurd h (hnot hafter)

/-- A text is trimmed exactly where each of its ends is. -/
theorem trim_eq_self_iff {s : Text} : trim s = s ↔ trimStart s = s ∧ trimEnd s = s := by
  constructor
  · intro h
    exact ⟨by rw [← h, trimStart_trim], by rw [← h, trimEnd_trim]⟩
  · rintro ⟨hstart, hend⟩
    rw [trim, hstart, hend]

/-- Nothing is trimmed of a text without blanks. -/
theorem trim_eq_self_of_not_blank {s : Text} (h : ∀ c ∈ s, isBlank c = false) : trim s = s := by
  refine trim_eq_self_iff.2 ⟨?_, ?_⟩
  · cases s with
    | nil => rfl
    | cons c rest => exact trimStart_cons_of_not_blank (h c (List.mem_cons_self ..)) rest
  · refine (List.rdropWhile_eq_self_iff (p := isBlank)).2 fun hl => ?_
    rw [h _ (List.getLast_mem hl)]
    exact Bool.false_ne_true

/-- A trimmed text is empty or begins with a character that is not blank. -/
theorem eq_nil_or_cons_of_trim {s : Text} (h : trim s = s) :
    s = [] ∨ ∃ c rest, s = c :: rest ∧ isBlank c = false := by
  cases s with
  | nil => exact .inl rfl
  | cons c rest => exact .inr ⟨c, rest, rfl, isBlank_of_trimStart_cons (trim_eq_self_iff.1 h).1⟩

/-- A character that is not blank may be written any number of times. -/
theorem trim_replicate {c : Char} (h : isBlank c = false) (n : Nat) :
    trim (List.replicate n c) = List.replicate n c := by
  have hstart (m : Nat) : trimStart (List.replicate m c) = List.replicate m c := by
    cases m with
    | zero => rfl
    | succ m => rw [List.replicate_succ, trimStart_cons_of_not_blank h]
  rw [trim, hstart, trimEnd_eq_reverse, List.reverse_replicate, hstart, List.reverse_replicate]

end ComponentPages
