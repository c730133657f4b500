import ComponentPages.Text.Blank

/-!
# Text

Text is a list of characters, so that every rule about it is a recursion on the list.

- **`Text`** — the type.
- **`trim`**, **`trimStart`**, **`trimEnd`** — text without the blanks at its ends.
- **`splitOn`**, **`joinLines`** — lines and other separated parts; **`lines_joinLines`** takes
  apart what was put together.
- **`afterFirst?`**, **`occurs`** — search for a part of a text.
- **`sameIgnoringCase`** — equality up to the case of ASCII letters.
-/

namespace ComponentPages

/-- A text: its characters in order. -/
abbrev Text := List Char

/-- The number of bytes that a text takes in UTF-8. -/
def utf8Length (s : Text) : Nat := s.foldr (fun c n => c.utf8Size + n) 0

/-- The backtick. -/
def backtick : Char := Char.ofNat 96

/-! ## Trimming -/

/-- The text without the longest run at its end whose characters all satisfy `p`. -/
def dropEndWhile (p : Char → Bool) (s : Text) : Text :=
  (s.reverse.dropWhile p).reverse

/-- The text without its leading blanks. -/
def trimStart (s : Text) : Text := s.dropWhile isBlank

/-- The text without its trailing blanks. -/
def trimEnd (s : Text) : Text := dropEndWhile isBlank s

/-- The text without the blanks at both ends. -/
def trim (s : Text) : Text := trimEnd (trimStart s)

/-- Nothing but blanks, the empty text included. -/
def isBlankText (s : Text) : Bool := s.all isBlank

/-- The trimmed text, if anything is left of it. -/
def nonBlank? (s : Text) : Option Text :=
  if isBlankText s then none else some (trim s)

@[simp] theorem dropEndWhile_nil (p : Char → Bool) : dropEndWhile p [] = [] := rfl

/-- A last character that is not dropped protects everything before it. -/
theorem dropEndWhile_concat_of_neg {p : Char → Bool} (s : Text) {c : Char} (h : p c = false) :
    dropEndWhile p (s ++ [c]) = s ++ [c] := by
  simp [dropEndWhile, h]

/-- A last character that is dropped lets the dropping go on. -/
theorem dropEndWhile_concat_of_pos {p : Char → Bool} (s : Text) {c : Char} (h : p c = true) :
    dropEndWhile p (s ++ [c]) = dropEndWhile p s := by
  simp [dropEndWhile, h]

@[simp] theorem trim_nil : trim [] = [] := rfl

/-! ## Parts -/

/-- The parts between the occurrences of `sep`, in order; one part more than there are
occurrences. -/
def splitOn (sep : Char) : Text → List Text
  | [] => [[]]
  | c :: cs =>
    if c = sep then [] :: splitOn sep cs
    else
      match splitOn sep cs with
      -- never met: there is always a first part
      | [] => [[c]]
      | part :: parts => (c :: part) :: parts

/-- There is always a first part. -/
theorem splitOn_ne_nil (sep : Char) (s : Text) : splitOn sep s ≠ [] := by
  cases s with
  | nil => simp [splitOn]
  | cons c cs =>
    rw [splitOn]
    split
    · simp
    · split <;> simp

/-- The lines of a text. -/
def lines (s : Text) : List Text := splitOn '\n' s

/-- Texts one after another with `sep` between neighbours. -/
def joinWith (sep : Text) (parts : List Text) : Text := sep.intercalate parts

/-- Lines put together again. -/
def joinLines (parts : List Text) : Text := joinWith ['\n'] parts

@[simp] theorem joinWith_nil (sep : Text) : joinWith sep [] = [] := rfl

@[simp] theorem joinWith_singleton (sep s : Text) : joinWith sep [s] = s := by
  simp [joinWith, List.intercalate]

/-- Two parts or more: the first, the separator, and the others put together. -/
theorem joinWith_cons_cons (sep s t : Text) (parts : List Text) :
    joinWith sep (s :: t :: parts) = s ++ sep ++ joinWith sep (t :: parts) := by
  simp [joinWith, List.intercalate]

/-- No part holds the separator. -/
theorem not_mem_of_mem_splitOn {sep : Char} {s part : Text} (h : part ∈ splitOn sep s) :
    sep ∉ part := by
  induction s generalizing part with
  | nil =>
    simp only [splitOn, List.mem_singleton] at h
    simp [h]
  | cons c cs ih =>
    rw [splitOn] at h
    split at h
    -- the character is a separator: an empty part, and those of the rest
    · rcases List.mem_cons.1 h with rfl | h
      · simp
      · exact ih h
    -- the character goes into the first part of the rest
    · next hc =>
      split at h
      · next hs => exact absurd hs (splitOn_ne_nil sep cs)
      · next first more hs =>
        rcases List.mem_cons.1 h with rfl | h
        · have hfirst : sep ∉ first := ih (hs ▸ List.mem_cons_self ..)
          simp [Ne.symm hc, hfirst]
        · exact ih (hs ▸ List.mem_cons_of_mem _ h)

/-- A text without the separator is one part. -/
theorem splitOn_of_not_mem {sep : Char} {s : Text} (h : sep ∉ s) : splitOn sep s = [s] := by
  induction s with
  | nil => rfl
  | cons c cs ih =>
    simp only [List.mem_cons, not_or] at h
    rw [splitOn, if_neg (Ne.symm h.1), ih h.2]

/-- The parts of two texts with a separator between them are those of the first and those of the
second. -/
theorem splitOn_append_separator (sep : Char) (s t : Text) :
    splitOn sep (s ++ sep :: t) = splitOn sep s ++ splitOn sep t := by
  induction s with
  | nil => simp [splitOn]
  | cons c cs ih =>
    by_cases hc : c = sep
    · simp [splitOn, hc, ih]
    -- the character goes into the first part
    · obtain ⟨part, parts, hparts⟩ := List.exists_cons_of_ne_nil (splitOn_ne_nil sep cs)
      simp [splitOn, hc, ih, hparts]

/-- The part before the first separator is the first of all. -/
theorem splitOn_append_cons {sep : Char} {s : Text} (h : sep ∉ s) (rest : Text) :
    splitOn sep (s ++ sep :: rest) = s :: splitOn sep rest := by
  rw [splitOn_append_separator, splitOn_of_not_mem h, List.singleton_append]

/-- There is always a first line. -/
theorem lines_ne_nil (s : Text) : lines s ≠ [] := splitOn_ne_nil '\n' s

/-- Parts without the separator that are put together with it are the parts of the result. -/
theorem splitOn_joinWith {sep : Char} {parts : List Text} (hne : parts ≠ [])
    (h : ∀ part ∈ parts, sep ∉ part) : splitOn sep (joinWith [sep] parts) = parts := by
  induction parts with
  | nil => exact absurd rfl hne
  | cons part parts ih =>
    have hpart : sep ∉ part := h part (List.mem_cons_self ..)
    cases parts with
    | nil => rw [joinWith_singleton, splitOn_of_not_mem hpart]
    | cons next more =>
      have hrest := ih (List.cons_ne_nil _ _) fun p hp => h p (List.mem_cons_of_mem _ hp)
      rw [joinWith_cons_cons, List.append_assoc, List.singleton_append,
        splitOn_append_cons hpart]
      exact congrArg (part :: ·) hrest

/-- Lines that are put together are the lines of the result. -/
theorem lines_joinLines {ls : List Text} (hne : ls ≠ []) (h : ∀ l ∈ ls, '\n' ∉ l) :
    lines (joinLines ls) = ls :=
  splitOn_joinWith hne h

/-- The text with every carriage return that a line feed follows left out. -/
def unixLines : Text → Text
  | '\r' :: '\n' :: rest => '\n' :: unixLines rest
  | c :: rest => c :: unixLines rest
  | [] => []

/-! ## Search -/

/-- What follows `part` in a text that begins with it. -/
def afterPart? : (part s : Text) → Option Text
  | [], s => some s
  | _ :: _, [] => none
  | c :: part, d :: s => if c = d then afterPart? part s else none

/-- What follows the first occurrence of `part`. -/
def afterFirst? (part : Text) : Text → Option Text
  | [] => afterPart? part []
  | c :: rest =>
    match afterPart? part (c :: rest) with
    | some after => some after
    | none => afterFirst? part rest

/-- Whether `part` occurs in the text. -/
def occurs (part s : Text) : Bool := (afterFirst? part s).isSome

/-- Reading a part off the front undoes putting it there. -/
theorem afterPart?_append (part s : Text) : afterPart? part (part ++ s) = some s := by
  induction part with
  | nil => rfl
  | cons c part ih => simp [afterPart?, ih]

/-- A text that has `part` at its front is `part` and what follows. -/
theorem eq_append_of_afterPart? {part s rest : Text} (h : afterPart? part s = some rest) :
    s = part ++ rest := by
  induction part generalizing s with
  | nil => simpa [afterPart?] using h
  | cons c part ih =>
    cases s with
    | nil => simp [afterPart?] at h
    | cons d s =>
      simp only [afterPart?] at h
      split at h
      -- the first characters agree, and the rest is the induction hypothesis
      · next hcd => subst hcd; simpa using ih h
      -- they differ, and nothing follows the part
      · cases h

/-! ## Case -/

/-- Equal up to the case of ASCII letters. -/
def sameIgnoringCase (s t : Text) : Bool := s.map Char.toLower == t.map Char.toLower

/-- The text with its ASCII letters in lower case. -/
def asciiLower (s : Text) : Text := s.map Char.toLower

theorem sameIgnoringCase_iff {s t : Text} :
    sameIgnoringCase s t = true ↔ asciiLower s = asciiLower t := by
  simp [sameIgnoringCase, asciiLower]

/-! ## Order -/

/-- The order of texts by code points, character by character. -/
def textLE : Text → Text → Bool
  | [], _ => true
  | _ :: _, [] => false
  | c :: s, d :: t => c.toNat < d.toNat || (c == d && textLE s t)

end ComponentPages
