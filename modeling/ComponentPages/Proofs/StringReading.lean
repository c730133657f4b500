import ComponentPages.Json.Printer
import ComponentPages.Json.Value

/-!
# Reading written strings

A string that is written in quotation marks is read as the text that it was written from, whatever
follows it.

- **`Reads`** — a reader takes a value off the front of a text and leaves a rest.
- **`reads_escapeChar`** — the escape of a character is read as the character.
- **`reads_escaped`** — an escaped text with the closing quotation mark is read as the text.
-/

namespace ComponentPages

/-- A reader takes the value `a` off the front of `s` and leaves `rest`. -/
def Reads {α : Type} (read : Reader α) (s : Text) (a : α) (rest : Text) : Prop :=
  ∃ r, read s = .ok r ∧ r.value = a ∧ r.rest = rest

/-! ## Escapes -/

/-- The two hexadecimal digits of a control character are those of its code point. -/
theorem hexValue?_hexDigit : ∀ n < 0x20,
    hexValue? '0' '0' (hexDigit (n / 16)) (hexDigit (n % 16)) = some n := by
  decide

/-- A control character is read off its four hexadecimal digits. -/
theorem reads_codePoint {c : Char} (h : c.toNat < 0x20) (rest : Text) :
    Reads (readCodePoint .strict)
      ('0' :: '0' :: hexDigit (c.toNat / 16) :: hexDigit (c.toNat % 16) :: rest) c rest := by
  have hlow : isLowSurrogate c.toNat = false := by simp [isLowSurrogate]; omega
  have hhigh : isHighSurrogate c.toNat = false := by simp [isHighSurrogate]; omega
  simp [Reads, readCodePoint, readHex, hexValue?_hexDigit _ h, hlow, hhigh, Read.map,
    Char.ofNat_toNat]

variable {mode : Strictness}

/-- A letter or mark after a backslash is read as what it stands for. -/
theorem reads_simpleEscape {c d : Char} (h : simpleEscape? c = some d) (rest : Text) :
    Reads (readEscape mode) (c :: rest) d rest := by
  simp [Reads, readEscape, h]

/-- A code point after a backslash and the letter for it is read as its character. -/
theorem reads_numericEscape {s rest : Text} {c : Char}
    (h : Reads (readCodePoint mode) s c rest) : Reads (readEscape mode) ('u' :: s) c rest := by
  obtain ⟨r, hr, rfl, rfl⟩ := h
  have hlength : s.length ≤ ('u' :: s).length := Nat.le_succ _
  refine ⟨r.widen hlength, ?_, rfl, rfl⟩
  show (readCodePoint mode s).map (·.widen hlength) = _
  rw [hr]
  rfl

/-- The closing quotation mark ends a string. -/
theorem reads_string_end (rest : Text) : Reads (readString mode) ('"' :: rest) [] rest := by
  have hread : readString mode ('"' :: rest) = .ok ⟨[], rest, Nat.lt_succ_self _⟩ := by
    rw [readString]
  exact ⟨_, hread, rfl, rfl⟩

/-- A string that begins with an escape is read as its character and the rest. -/
theorem reads_string_of_escape {s rest left t : Text} {c : Char}
    (hc : Reads (readEscape mode) s c rest) (ht : Reads (readString mode) rest t left) :
    Reads (readString mode) ('\\' :: s) (c :: t) left := by
  obtain ⟨r, hr, rfl, rfl⟩ := hc
  obtain ⟨more, hmore, rfl, rfl⟩ := ht
  refine ⟨⟨r.value :: more.value, more.rest, ?_⟩, ?_, rfl, rfl⟩
  · exact Nat.lt_trans more.shorter (Nat.lt_succ_of_lt r.shorter)
  · rw [readString]
    simp only [hr, hmore]

/-- A string that begins with a character that stands for itself is read as that and the rest. -/
theorem reads_string_of_plain {s t rest : Text} {c : Char} (hquote : c ≠ '"')
    (hbackslash : c ≠ '\\') (hcontrol : ¬c.toNat < 0x20)
    (h : Reads (readString mode) s t rest) : Reads (readString mode) (c :: s) (c :: t) rest := by
  obtain ⟨r, hr, rfl, rfl⟩ := h
  refine ⟨⟨c :: r.value, r.rest, Nat.lt_succ_of_lt r.shorter⟩, ?_, rfl, rfl⟩
  rw [readString]
  · simp only [hcontrol, if_false, hr]
  · exact hquote
  · exact hbackslash

/-- A character is written by a backslash and a letter or mark, by its code point, or as itself. -/
theorem escapeChar_cases (c : Char) :
    (∃ e, simpleEscape? e = some c ∧ escapeChar c = ['\\', e]) ∨
    (c.toNat < 0x20 ∧ escapeChar c =
      ['\\', 'u', '0', '0', hexDigit (c.toNat / 16), hexDigit (c.toNat % 16)]) ∨
    (c ≠ '"' ∧ c ≠ '\\' ∧ ¬c.toNat < 0x20 ∧ escapeChar c = [c]) := by
  by_cases hsimple : c ∈ ['"', '\\', '\x08', '\x0c', '\n', '\r', '\t']
  · refine .inl ?_
    simp only [List.mem_cons, List.not_mem_nil, or_false] at hsimple
    rcases hsimple with rfl | rfl | rfl | rfl | rfl | rfl | rfl
    · exact ⟨'"', rfl, rfl⟩
    · exact ⟨'\\', rfl, rfl⟩
    · exact ⟨'b', rfl, rfl⟩
    · exact ⟨'f', rfl, rfl⟩
    · exact ⟨'n', rfl, rfl⟩
    · exact ⟨'r', rfl, rfl⟩
    · exact ⟨'t', rfl, rfl⟩
  · simp only [List.mem_cons, List.not_mem_nil, or_false, not_or] at hsimple
    obtain ⟨h1, h2, h3, h4, h5, h6, h7⟩ := hsimple
    by_cases hcontrol : c.toNat < 0x20
    · exact .inr (.inl ⟨hcontrol, by simp [escapeChar, h1, h2, h3, h4, h5, h6, h7, hcontrol]⟩)
    · exact .inr (.inr ⟨h1, h2, hcontrol, by
        simp [escapeChar, h1, h2, h3, h4, h5, h6, h7, hcontrol]⟩)

/-- **The escape of a character is read as the character.** -/
theorem reads_escapeChar (c : Char) {s t rest : Text} (h : Reads (readString .strict) s t rest) :
    Reads (readString .strict) (escapeChar c ++ s) (c :: t) rest := by
  rcases escapeChar_cases c with ⟨e, he, hc⟩ | ⟨hcontrol, hc⟩ | ⟨hquote, hbackslash, hcontrol, hc⟩
  · rw [hc]
    exact reads_string_of_escape (reads_simpleEscape he s) h
  · rw [hc]
    exact reads_string_of_escape (reads_numericEscape (reads_codePoint hcontrol s)) h
  · rw [hc]
    exact reads_string_of_plain hquote hbackslash hcontrol h

/-- **A written string is read as its text**, after the opening quotation mark and past the closing
one. -/
theorem reads_escaped (t rest : Text) :
    Reads (readString .strict) (t.flatMap escapeChar ++ '"' :: rest) t rest := by
  induction t with
  | nil => exact reads_string_end rest
  | cons c t ih =>
    rw [List.flatMap_cons, List.append_assoc]
    exact reads_escapeChar c ih

end ComponentPages
