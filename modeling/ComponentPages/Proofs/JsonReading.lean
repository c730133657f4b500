import Mathlib.Data.List.DropRight
import ComponentPages.Proofs.Results
import ComponentPages.Proofs.StringReading

/-!
# The rules of reading JSON

What each reader takes off the front of a text, told by what it reads: an array by its items, an
object by its members, a value by its form. Each rule holds in both directions, so that it serves to
read a text as well as to find out about a text that has been read.

- **`skipSpace_append`** — white space in front of a text with something after it.
- **`reads_string_nil_iff`**, **`reads_string_cons_iff`**, **`reads_escape_iff`** — the characters
  of a string one after another.
- **`reads_items_cons_iff`**, **`reads_members_cons_iff`** — items and members one after another.
- **`ReadsValue`**, **`reads_value_iff`** — the seven forms of a value.
- **`reads_json_iff`** — a value, whatever the number of levels that are left.
-/

namespace ComponentPages

variable {α : Type} {mode : Strictness}

/-- Only a text that holds something can be read. -/
theorem Reads.ne_nil {read : Reader α} {s rest : Text} {a : α} (h : Reads read s a rest) :
    s ≠ [] := by
  obtain ⟨r, -, -, -⟩ := h
  rintro rfl
  exact absurd r.shorter (Nat.not_lt_zero _)

/-- What is read of a text is settled by the text. -/
theorem Reads.unique {read : Reader α} {s rest rest' : Text} {a b : α} (h : Reads read s a rest)
    (h' : Reads read s b rest') : a = b ∧ rest = rest' := by
  obtain ⟨r, hr, rfl, rfl⟩ := h
  obtain ⟨r', hr', rfl, rfl⟩ := h'
  obtain rfl := Except.ok.inj (hr.symm.trans hr')
  exact ⟨rfl, rfl⟩

/-- A reader that fails reads nothing. -/
theorem not_reads_error (fault : Fault) (s rest : Text) (a : α) :
    ¬Reads (fun _ => .error fault) s a rest := by
  rintro ⟨r, hr, -, -⟩
  cases hr

/-- A reader whose result is changed reads what the reader reads, and changes it. -/
theorem reads_map_iff {β : Type} {read : Reader α} {f : α → β} {s rest : Text} {b : β} :
    Reads (fun s => (read s).map (·.map f)) s b rest ↔ ∃ a, b = f a ∧ Reads read s a rest := by
  constructor
  · rintro ⟨r, hr, rfl, rfl⟩
    obtain ⟨r', hread, rfl⟩ := map_eq_ok_iff.1 hr
    exact ⟨r'.value, rfl, r', hread, rfl, rfl⟩
  · rintro ⟨a, rfl, r, hr, rfl, rfl⟩
    exact ⟨r.map f, by simp only [hr, Except.map], rfl, rfl⟩

/-! ## White space -/

@[simp]
theorem skipSpace_skipSpace (s : Text) : skipSpace (skipSpace s) = skipSpace s :=
  List.dropWhile_idempotent isJsonSpace s

/-- White space is skipped up to something that is none. -/
theorem skipSpace_append {s t : Text} (h : skipSpace s ≠ []) :
    skipSpace (s ++ t) = skipSpace s ++ t := by
  unfold skipSpace at h ⊢
  rw [List.dropWhile_append, if_neg (by simpa using h)]

/-- A text of white space is skipped. -/
theorem skipSpace_append_of_eq_nil {s t : Text} (h : skipSpace s = []) :
    skipSpace (s ++ t) = skipSpace t := by
  unfold skipSpace at h ⊢
  rw [List.dropWhile_append, if_pos (by simpa using h)]

/-- The first character after the white space is the same with a text behind. -/
theorem skipSpace_append_of_eq_cons {s t r : Text} {c : Char} (h : skipSpace s = c :: r) :
    skipSpace (s ++ t) = c :: (r ++ t) := by
  rw [skipSpace_append (by rw [h]; exact List.cons_ne_nil _ _), h, List.cons_append]

/-- Nothing is skipped in front of a character that is no white space. -/
theorem skipSpace_cons {c : Char} (s : Text) (h : isJsonSpace c = false) :
    skipSpace (c :: s) = c :: s := by
  rw [skipSpace, List.dropWhile_cons_of_neg (by simpa using h)]

/-! ## Words -/

/-- A word is taken off a text that begins with it. -/
theorem readWord_eq_ok_iff {word s : Text} {r : Rest s} :
    readWord word s = .ok r ↔ s = word ++ r.1 := by
  induction word generalizing s with
  | nil =>
    rw [readWord, Except.ok.injEq]
    constructor
    · rintro rfl
      rfl
    · intro h
      exact Subtype.ext h
  | cons c word ih =>
    cases s with
    | nil =>
      rw [readWord]
      simp
    | cons d s =>
      rw [readWord]
      by_cases hc : c = d
      · rw [if_pos hc]
        subst hc
        constructor
        · intro h
          obtain ⟨r', hword, rfl⟩ := map_eq_ok_iff.1 h
          exact congrArg (c :: ·) (ih.1 hword)
        · intro h
          have hs : s = word ++ r.1 := (List.cons.inj h).2
          have hlength : r.1.length ≤ s.length := by simp [hs]
          rw [ih (r := ⟨r.1, hlength⟩) |>.2 hs]
          rfl
      · rw [if_neg hc]
        constructor
        · intro h
          cases h
        · intro h
          exact absurd (List.cons.inj h).1.symm hc

/-! ## Strings -/

/-- A code point is read off four hexadecimal digits. -/
theorem reads_hex_iff {s rest : Text} {n : Nat} : Reads readHex s n rest ↔
    ∃ a b c d, s = a :: b :: c :: d :: rest ∧ hexValue? a b c d = some n := by
  constructor
  · rintro ⟨r, hr, rfl, rfl⟩
    unfold readHex at hr
    split at hr
    · next a b c d rest =>
      split at hr
      · next n hvalue =>
        cases hr
        exact ⟨a, b, c, d, rfl, hvalue⟩
      · cases hr
    · split at hr <;> cases hr
  · rintro ⟨a, b, c, d, rfl, hvalue⟩
    simp [Reads, readHex, hvalue]

/-- The second half of a pair of surrogates is read off an escape of its own. -/
theorem reads_lowSurrogate_iff {s rest : Text} {n : Nat} : Reads readLowSurrogate s n rest ↔
    ∃ t, s = '\\' :: 'u' :: t ∧ Reads readHex t n rest ∧ isLowSurrogate n = true := by
  constructor
  · rintro ⟨r, hr, rfl, rfl⟩
    unfold readLowSurrogate at hr
    split at hr
    · cases hr
    · cases hr
    · next t =>
      split at hr
      · cases hr
      · next low hlow =>
        split at hr
        · next hrange =>
          cases hr
          exact ⟨t, rfl, ⟨low, hlow, rfl, rfl⟩, hrange⟩
        · cases hr
    · cases hr
  · rintro ⟨t, rfl, ⟨low, hlow, rfl, rfl⟩, hrange⟩
    have hlength : t.length ≤ ('\\' :: 'u' :: t).length := by simp only [List.length_cons]; omega
    refine ⟨low.widen hlength, ?_, rfl, rfl⟩
    simp only [readLowSurrogate, hlow, if_pos hrange]

/-- Where the value does not matter, four digits are a character. -/
theorem reads_codePoint_lenient_iff {s rest : Text} {c : Char} :
    Reads (readCodePoint .lenient) s c rest ↔ ∃ n, Reads readHex s n rest ∧ c = Char.ofNat n := by
  constructor
  · rintro ⟨r, hr, rfl, rfl⟩
    unfold readCodePoint at hr
    split at hr
    · cases hr
    · next n hn =>
      cases hr
      exact ⟨n.value, ⟨n, hn, rfl, rfl⟩, rfl⟩
  · rintro ⟨_, ⟨n, hn, rfl, rfl⟩, rfl⟩
    exact ⟨n.map Char.ofNat, by simp only [readCodePoint, hn], rfl, rfl⟩

/-- Four digits are a character, or the first half of a pair with a second half behind. -/
theorem reads_codePoint_strict_iff {s rest : Text} {c : Char} :
    Reads (readCodePoint .strict) s c rest ↔ ∃ n left, Reads readHex s n left ∧
      isLowSurrogate n = false ∧
      ((isHighSurrogate n = false ∧ c = Char.ofNat n ∧ left = rest) ∨
        (isHighSurrogate n = true ∧ ∃ low, Reads readLowSurrogate left low rest ∧
          c = surrogatePair n low)) := by
  constructor
  · rintro ⟨r, hr, rfl, rfl⟩
    unfold readCodePoint at hr
    split at hr
    · cases hr
    · next n hn =>
      dsimp only at hr
      refine ⟨n.value, n.rest, ⟨n, hn, rfl, rfl⟩, ?_⟩
      split at hr
      · cases hr
      · next hlow =>
        refine ⟨by simpa using hlow, ?_⟩
        split at hr
        · next hhigh =>
          split at hr
          · cases hr
          · next low hread =>
            obtain rfl := Except.ok.inj hr
            exact .inr ⟨hhigh, low.value, ⟨low, hread, rfl, rfl⟩, by dsimp only⟩
        · next hhigh =>
          cases hr
          exact .inl ⟨by simpa using hhigh, rfl, rfl⟩
  · rintro ⟨_, _, ⟨n, hn, rfl, rfl⟩, hlow, ⟨hhigh, rfl, rfl⟩ |
      ⟨hhigh, _, ⟨low, hread, rfl, rfl⟩, hc⟩⟩
    · exact ⟨n.map Char.ofNat, by simp [readCodePoint, hn, hlow, hhigh], rfl, rfl⟩
    · refine ⟨⟨c, low.rest, low.shorter.trans n.shorter⟩, ?_, by rfl, by rfl⟩
      simp only [hc, readCodePoint, hn, hlow, hhigh, hread, Bool.false_eq_true, if_false, if_true]

/-- An escape is read off a letter or mark after the backslash, or off a code point. -/
theorem reads_escape_iff {s rest : Text} {c : Char} : Reads (readEscape mode) s c rest ↔
    ∃ e t, s = e :: t ∧ ((simpleEscape? e = some c ∧ t = rest) ∨
      (e = 'u' ∧ Reads (readCodePoint mode) t c rest)) := by
  constructor
  · rintro ⟨r, hr, rfl, rfl⟩
    unfold readEscape at hr
    split at hr
    · cases hr
    · next e t =>
      split at hr
      · next d hsimple =>
        cases hr
        exact ⟨e, t, rfl, .inl ⟨hsimple, rfl⟩⟩
      · split at hr
        · next he =>
          obtain ⟨r', hr', rfl⟩ := map_eq_ok_iff.1 hr
          exact ⟨e, t, rfl, .inr ⟨he, r', hr', rfl, rfl⟩⟩
        · cases hr
  · rintro ⟨e, t, rfl, ⟨hsimple, rfl⟩ | ⟨rfl, h⟩⟩
    · exact reads_simpleEscape hsimple t
    · exact reads_numericEscape h

/-- A string is read after its opening quotation mark as its end, an escape or a character as
itself. -/
theorem readString_cases {s : Text} {r : Read Text s} (h : readString mode s = .ok r) :
    (s = '"' :: r.rest ∧ r.value = []) ∨
    (∃ u c t left, s = '\\' :: u ∧ r.value = c :: t ∧ Reads (readEscape mode) u c left ∧
      Reads (readString mode) left t r.rest) ∨
    ∃ u c t, s = c :: u ∧ r.value = c :: t ∧ c ≠ '"' ∧ c ≠ '\\' ∧ ¬c.toNat < 0x20 ∧
      Reads (readString mode) u t r.rest := by
  unfold readString at h
  split at h
  · cases h
  · next rest =>
    cases h
    exact .inl ⟨rfl, rfl⟩
  · next u =>
    split at h
    · cases h
    · next c hc =>
      dsimp only at h
      split at h
      · cases h
      · next more hmore =>
        cases h
        exact .inr (.inl ⟨u, _, _, _, rfl, rfl, ⟨c, hc, rfl, rfl⟩, more, hmore, rfl, rfl⟩)
  · next c u hquote hbackslash =>
    split at h
    · cases h
    · next hcontrol =>
      split at h
      · cases h
      · next more hmore =>
        cases h
        exact .inr (.inr ⟨u, c, _, rfl, rfl, hquote, hbackslash, hcontrol, more, hmore, rfl, rfl⟩)

/-- A string without characters is closed. -/
theorem reads_string_nil_iff {s rest : Text} :
    Reads (readString mode) s [] rest ↔ s = '"' :: rest := by
  constructor
  · rintro ⟨r, hr, hvalue, rfl⟩
    rcases readString_cases hr with
      ⟨hs, -⟩ | ⟨_, _, _, _, -, hcons, -⟩ | ⟨_, _, _, -, hcons, -⟩
    · exact hs
    · simp [hvalue] at hcons
    · simp [hvalue] at hcons
  · rintro rfl
    exact reads_string_end rest

/-- The characters of a string are read one after another, each off an escape or as itself. -/
theorem reads_string_cons_iff {s t rest : Text} {c : Char} :
    Reads (readString mode) s (c :: t) rest ↔
      (∃ u left, s = '\\' :: u ∧ Reads (readEscape mode) u c left ∧
        Reads (readString mode) left t rest) ∨
      ∃ u, s = c :: u ∧ c ≠ '"' ∧ c ≠ '\\' ∧ ¬c.toNat < 0x20 ∧
        Reads (readString mode) u t rest := by
  constructor
  · rintro ⟨r, hr, hvalue, rfl⟩
    rcases readString_cases hr with ⟨-, hnil⟩ | ⟨u, _, _, left, hs, hcons, hescape, hmore⟩ |
      ⟨u, _, _, hs, hcons, hplain⟩
    · simp [hvalue] at hnil
    · rw [hvalue] at hcons
      cases hcons
      exact .inl ⟨u, left, hs, hescape, hmore⟩
    · rw [hvalue] at hcons
      cases hcons
      exact .inr ⟨u, hs, hplain⟩
  · rintro (⟨u, left, rfl, hescape, hmore⟩ | ⟨u, rfl, hquote, hbackslash, hcontrol, hmore⟩)
    · exact reads_string_of_escape hescape hmore
    · exact reads_string_of_plain hquote hbackslash hcontrol hmore

/-! ## Arrays -/

/-- An array is read after the bracket that opens it as its end or an item and more items. -/
theorem readItems_cases {item : Reader α} {s : Text} {r : Read (List α) s}
    (h : readItems item s = .ok r) :
    (skipSpace s = ']' :: r.rest ∧ r.value = []) ∨
    ∃ c t a as left, skipSpace s = c :: t ∧ c ≠ ']' ∧ r.value = a :: as ∧
      Reads item (c :: t) a left ∧ Reads (readMoreItems item) left as r.rest := by
  unfold readItems at h
  split at h
  · cases h
  · next hs =>
    cases h
    exact .inl ⟨hs, rfl⟩
  · next c t hc hs =>
    split at h
    · cases h
    · next first hfirst =>
      split at h
      · cases h
      · next more hmore =>
        cases h
        exact .inr ⟨c, t, _, _, _, hs, hc, rfl, ⟨first, hfirst, rfl, rfl⟩, more, hmore, rfl, rfl⟩

/-- An array is read after an item as its end or a comma, an item and more items. -/
theorem readMoreItems_cases {item : Reader α} {s : Text} {r : Read (List α) s}
    (h : readMoreItems item s = .ok r) :
    (skipSpace s = ']' :: r.rest ∧ r.value = []) ∨
    ∃ t c u a as left, skipSpace s = ',' :: t ∧ skipSpace t = c :: u ∧ c ≠ ']' ∧
      r.value = a :: as ∧ Reads item (c :: u) a left ∧
      Reads (readMoreItems item) left as r.rest := by
  unfold readMoreItems at h
  split at h
  · cases h
  · next hs =>
    cases h
    exact .inl ⟨hs, rfl⟩
  · next t hs =>
    split at h
    · cases h
    · cases h
    · next c u hc ht =>
      split at h
      · cases h
      · next first hfirst =>
        split at h
        · cases h
        · next more hmore =>
          cases h
          exact .inr ⟨t, c, u, _, _, _, hs, ht, hc, rfl, ⟨first, hfirst, rfl, rfl⟩, more, hmore,
            rfl, rfl⟩
  · cases h

/-- An array without items is closed. -/
theorem reads_items_nil_iff {item : Reader α} {s rest : Text} :
    Reads (readItems item) s [] rest ↔ skipSpace s = ']' :: rest := by
  constructor
  · rintro ⟨r, hr, hvalue, rfl⟩
    rcases readItems_cases hr with ⟨hs, -⟩ | ⟨_, _, _, _, _, -, -, hcons, -⟩
    · exact hs
    · simp [hvalue] at hcons
  · intro h
    refine ⟨Read.past [] h, ?_, rfl, rfl⟩
    unfold readItems
    split <;> grind

/-- The items of an array are read one after another. -/
theorem reads_items_cons_iff {item : Reader α} {s rest : Text} {a : α} {as : List α} :
    Reads (readItems item) s (a :: as) rest ↔ ∃ c t left, skipSpace s = c :: t ∧ c ≠ ']' ∧
      Reads item (c :: t) a left ∧ Reads (readMoreItems item) left as rest := by
  constructor
  · rintro ⟨r, hr, hvalue, rfl⟩
    rcases readItems_cases hr with ⟨-, hnil⟩ | ⟨c, t, _, _, left, hs, hc, hcons, hfirst, hmore⟩
    · simp [hvalue] at hnil
    · rw [hvalue] at hcons
      cases hcons
      exact ⟨c, t, left, hs, hc, hfirst, hmore⟩
  · rintro ⟨c, t, left, hs, hc, ⟨first, hfirst, rfl, rfl⟩, more, hmore, rfl, rfl⟩
    refine ⟨⟨first.value :: more.value, more.rest, ?_⟩, ?_, rfl, rfl⟩
    · have h1 := length_skipSpace_le s
      have h2 := first.shorter
      have h3 := more.shorter
      rw [hs] at h1
      omega
    · unfold readItems
      split <;> grind

/-- An array without more items is closed. -/
theorem reads_moreItems_nil_iff {item : Reader α} {s rest : Text} :
    Reads (readMoreItems item) s [] rest ↔ skipSpace s = ']' :: rest := by
  constructor
  · rintro ⟨r, hr, hvalue, rfl⟩
    rcases readMoreItems_cases hr with ⟨hs, -⟩ | ⟨_, _, _, _, _, _, -, -, -, hcons, -⟩
    · exact hs
    · simp [hvalue] at hcons
  · intro h
    refine ⟨Read.past [] h, ?_, rfl, rfl⟩
    unfold readMoreItems
    split <;> grind

/-- More items of an array are read after a comma. -/
theorem reads_moreItems_cons_iff {item : Reader α} {s rest : Text} {a : α} {as : List α} :
    Reads (readMoreItems item) s (a :: as) rest ↔
      ∃ t, skipSpace s = ',' :: t ∧ Reads (readItems item) t (a :: as) rest := by
  constructor
  · rintro ⟨r, hr, hvalue, rfl⟩
    rcases readMoreItems_cases hr with
      ⟨-, hnil⟩ | ⟨t, c, u, _, _, left, hs, ht, hc, hcons, hfirst, hmore⟩
    · simp [hvalue] at hnil
    · rw [hvalue] at hcons
      cases hcons
      exact ⟨t, hs, reads_items_cons_iff.2 ⟨c, u, left, ht, hc, hfirst, hmore⟩⟩
  · rintro ⟨t, hs, hitems⟩
    obtain ⟨c, u, left, ht, hc, ⟨first, hfirst, rfl, rfl⟩, more, hmore, rfl, rfl⟩ :=
      reads_items_cons_iff.1 hitems
    refine ⟨⟨first.value :: more.value, more.rest, ?_⟩, ?_, rfl, rfl⟩
    · have h1 := length_of_skipSpace hs
      have h2 := length_skipSpace_le t
      have h3 := first.shorter
      have h4 := more.shorter
      rw [ht] at h2
      omega
    · unfold readMoreItems
      split <;> grind

/-! ## Objects -/

/-- A colon is read after white space. -/
theorem readColon_eq_ok_iff {s : Text} {r : { r : Text // r.length < s.length }} :
    readColon s = .ok r ↔ skipSpace s = ':' :: r.1 := by
  unfold readColon
  split <;> grind

/-- A member is a key, a colon and a value. -/
theorem reads_member_iff {key : Reader Text} {value : Reader α} {s rest k : Text} {a : α} :
    Reads (readMember key value) s (k, a) rest ↔
      ∃ t u, Reads key s k t ∧ skipSpace t = ':' :: u ∧ Reads value u a rest := by
  constructor
  · rintro ⟨r, hr, hvalue, rfl⟩
    unfold readMember at hr
    split at hr
    · cases hr
    · next k' hk =>
      split at hr
      · cases hr
      · next colon hcolon =>
        split at hr
        · cases hr
        · next v hv =>
          cases hr
          cases hvalue
          exact ⟨k'.rest, colon.1, ⟨k', hk, rfl, rfl⟩, readColon_eq_ok_iff.1 hcolon, v, hv, rfl,
            rfl⟩
  · rintro ⟨t, u, ⟨k', hk, rfl, rfl⟩, hu, v, hv, rfl, rfl⟩
    have hcolon := (readColon_eq_ok_iff (r := ⟨u, length_of_skipSpace hu⟩)).2 hu
    refine ⟨⟨(k'.value, v.value), v.rest, ?_⟩, ?_, rfl, rfl⟩
    · have h1 := k'.shorter
      have h2 := length_of_skipSpace hu
      have h3 := v.shorter
      omega
    · simp only [readMember, hk, hcolon, hv]

/-- An object is read after the brace that opens it as its end or a member and more members. -/
theorem readMembers_cases {member : List α → Reader α} {s : Text} {r : Read (List α) s}
    (h : readMembers member s = .ok r) :
    (skipSpace s = '\x7d' :: r.rest ∧ r.value = []) ∨
    ∃ t a as left, skipSpace s = '"' :: t ∧ r.value = a :: as ∧
      Reads (member []) t a left ∧ Reads (readMoreMembers member [a]) left as r.rest := by
  unfold readMembers at h
  split at h
  · cases h
  · next hs =>
    cases h
    exact .inl ⟨hs, rfl⟩
  · next t hs =>
    split at h
    · cases h
    · next first hfirst =>
      split at h
      · cases h
      · next more hmore =>
        cases h
        exact .inr ⟨t, _, _, _, hs, rfl, ⟨first, hfirst, rfl, rfl⟩, more, hmore, rfl, rfl⟩
  · cases h

/-- An object is read after a member as its end or a comma, a member and more members. -/
theorem readMoreMembers_cases {member : List α → Reader α} {before : List α} {s : Text}
    {r : Read (List α) s} (h : readMoreMembers member before s = .ok r) :
    (skipSpace s = '\x7d' :: r.rest ∧ r.value = []) ∨
    ∃ t u a as left, skipSpace s = ',' :: t ∧ skipSpace t = '"' :: u ∧ r.value = a :: as ∧
      Reads (member before) u a left ∧
      Reads (readMoreMembers member (a :: before)) left as r.rest := by
  unfold readMoreMembers at h
  split at h
  · cases h
  · next hs =>
    cases h
    exact .inl ⟨hs, rfl⟩
  · next t hs =>
    split at h
    · cases h
    · next u ht =>
      split at h
      · cases h
      · next first hfirst =>
        split at h
        · cases h
        · next more hmore =>
          cases h
          exact .inr ⟨t, u, _, _, _, hs, ht, rfl, ⟨first, hfirst, rfl, rfl⟩, more, hmore, rfl, rfl⟩
    · cases h
  · cases h

/-- An object without members is closed. -/
theorem reads_members_nil_iff {member : List α → Reader α} {s rest : Text} :
    Reads (readMembers member) s [] rest ↔ skipSpace s = '\x7d' :: rest := by
  constructor
  · rintro ⟨r, hr, hvalue, rfl⟩
    rcases readMembers_cases hr with ⟨hs, -⟩ | ⟨_, _, _, _, -, hcons, -⟩
    · exact hs
    · simp [hvalue] at hcons
  · intro h
    refine ⟨Read.past [] h, ?_, rfl, rfl⟩
    unfold readMembers
    split <;> grind

/-- The members of an object are read one after another. -/
theorem reads_members_cons_iff {member : List α → Reader α} {s rest : Text} {a : α}
    {as : List α} :
    Reads (readMembers member) s (a :: as) rest ↔ ∃ t left, skipSpace s = '"' :: t ∧
      Reads (member []) t a left ∧ Reads (readMoreMembers member [a]) left as rest := by
  constructor
  · rintro ⟨r, hr, hvalue, rfl⟩
    rcases readMembers_cases hr with ⟨-, hnil⟩ | ⟨t, _, _, left, hs, hcons, hfirst, hmore⟩
    · simp [hvalue] at hnil
    · rw [hvalue] at hcons
      cases hcons
      exact ⟨t, left, hs, hfirst, hmore⟩
  · rintro ⟨t, left, hs, ⟨first, hfirst, rfl, rfl⟩, more, hmore, rfl, rfl⟩
    refine ⟨⟨first.value :: more.value, more.rest, ?_⟩, ?_, rfl, rfl⟩
    · have h1 := length_of_skipSpace hs
      have h2 := first.shorter
      have h3 := more.shorter
      omega
    · unfold readMembers
      split <;> grind

/-- An object without more members is closed. -/
theorem reads_moreMembers_nil_iff {member : List α → Reader α} {before : List α} {s rest : Text} :
    Reads (readMoreMembers member before) s [] rest ↔ skipSpace s = '\x7d' :: rest := by
  constructor
  · rintro ⟨r, hr, hvalue, rfl⟩
    rcases readMoreMembers_cases hr with ⟨hs, -⟩ | ⟨_, _, _, _, _, -, -, hcons, -⟩
    · exact hs
    · simp [hvalue] at hcons
  · intro h
    refine ⟨Read.past [] h, ?_, rfl, rfl⟩
    unfold readMoreMembers
    split <;> grind

/-- More members of an object are read after a comma. -/
theorem reads_moreMembers_cons_iff {member : List α → Reader α} {before : List α} {s rest : Text}
    {a : α} {as : List α} :
    Reads (readMoreMembers member before) s (a :: as) rest ↔ ∃ t u left,
      skipSpace s = ',' :: t ∧ skipSpace t = '"' :: u ∧ Reads (member before) u a left ∧
      Reads (readMoreMembers member (a :: before)) left as rest := by
  constructor
  · rintro ⟨r, hr, hvalue, rfl⟩
    rcases readMoreMembers_cases hr with
      ⟨-, hnil⟩ | ⟨t, u, _, _, left, hs, ht, hcons, hfirst, hmore⟩
    · simp [hvalue] at hnil
    · rw [hvalue] at hcons
      cases hcons
      exact ⟨t, u, left, hs, ht, hfirst, hmore⟩
  · rintro ⟨t, u, left, hs, ht, ⟨first, hfirst, rfl, rfl⟩, more, hmore, rfl, rfl⟩
    refine ⟨⟨first.value :: more.value, more.rest, ?_⟩, ?_, rfl, rfl⟩
    · have h1 := length_of_skipSpace hs
      have h2 := length_of_skipSpace ht
      have h3 := first.shorter
      have h4 := more.shorter
      omega
    · unfold readMoreMembers
      split <;> grind

/-! ## Values -/

/-- What is read of a text that begins with a value, given what is read of an array and of an object
after its bracket. -/
inductive ReadsValue (mode : Strictness) (array object : Reader Json) : Text → Json → Text → Prop
  | nullWord {s rest : Text} (h : s = "ull".toList ++ rest) :
      ReadsValue mode array object ('n' :: s) .null rest
  | trueWord {s rest : Text} (h : s = "rue".toList ++ rest) :
      ReadsValue mode array object ('t' :: s) (.bool true) rest
  | falseWord {s rest : Text} (h : s = "alse".toList ++ rest) :
      ReadsValue mode array object ('f' :: s) (.bool false) rest
  | string {s t rest : Text} (h : Reads (readString mode) s t rest) :
      ReadsValue mode array object ('"' :: s) (.string t) rest
  | array {s rest : Text} {v : Json} (h : Reads array s v rest) :
      ReadsValue mode array object ('[' :: s) v rest
  | object {s rest : Text} {v : Json} (h : Reads object s v rest) :
      ReadsValue mode array object ('\x7b' :: s) v rest
  | number {c : Char} {s rest : Text} {n : JsonNumber} (hc : (c == '-' || c.isDigit) = true)
      (h : Reads (readNumber mode) (c :: s) n rest) :
      ReadsValue mode array object (c :: s) (.number n) rest

variable {array object : Reader Json}

/-- A value that is read has one of the forms of `ReadsValue`. -/
theorem ReadsValue.of_reads {s rest : Text} {v : Json}
    (h : Reads (readValueWith mode array object) s v rest) :
    ReadsValue mode array object (skipSpace s) v rest := by
  obtain ⟨r, hr, rfl, rfl⟩ := h
  unfold readValueWith at hr
  split at hr
  · cases hr
  · next c t hs =>
    rw [hs]
    dsimp only at hr
    split at hr
    · obtain ⟨left, hword, rfl⟩ := map_eq_ok_iff.1 hr
      exact .nullWord (readWord_eq_ok_iff.1 hword)
    · obtain ⟨left, hword, rfl⟩ := map_eq_ok_iff.1 hr
      exact .trueWord (readWord_eq_ok_iff.1 hword)
    · obtain ⟨left, hword, rfl⟩ := map_eq_ok_iff.1 hr
      exact .falseWord (readWord_eq_ok_iff.1 hword)
    · obtain ⟨text, htext, rfl⟩ := map_eq_ok_iff.1 hr
      exact .string ⟨text, htext, rfl, rfl⟩
    · obtain ⟨value, hvalue, rfl⟩ := map_eq_ok_iff.1 hr
      exact .array ⟨value, hvalue, rfl, rfl⟩
    · obtain ⟨value, hvalue, rfl⟩ := map_eq_ok_iff.1 hr
      exact .object ⟨value, hvalue, rfl, rfl⟩
    · split at hr
      · next hc =>
        obtain ⟨number, hnumber, rfl⟩ := map_eq_ok_iff.1 hr
        exact .number (by simpa using hc) ⟨number, hnumber, rfl, rfl⟩
      · cases hr

/-- A word is taken off a text. -/
theorem exists_readWord_eq_ok {word s rest : Text} (h : s = word ++ rest) :
    ∃ r : Rest s, readWord word s = .ok r ∧ r.1 = rest := by
  have hlength : rest.length ≤ s.length := by simp [h]
  exact ⟨⟨rest, hlength⟩, readWord_eq_ok_iff.2 h, rfl⟩

/-- A value of one of the forms of `ReadsValue` is read, with white space in front. -/
theorem ReadsValue.reads {s rest : Text} {v : Json}
    (h : ReadsValue mode array object (skipSpace s) v rest) :
    Reads (readValueWith mode array object) s v rest := by
  generalize hu : skipSpace s = u at h
  unfold Reads readValueWith
  split
  · next hs =>
    rw [← hu, hs] at h
    cases h
  · next c t hs =>
    obtain rfl := hs.symm.trans hu
    cases h with
    | nullWord h =>
      obtain ⟨r, hr, rfl⟩ := exists_readWord_eq_ok h
      dsimp only
      exact ⟨_, map_eq_ok_iff.2 ⟨r, hr, rfl⟩, rfl, rfl⟩
    | trueWord h =>
      obtain ⟨r, hr, rfl⟩ := exists_readWord_eq_ok h
      exact ⟨_, map_eq_ok_iff.2 ⟨r, hr, rfl⟩, rfl, rfl⟩
    | falseWord h =>
      obtain ⟨r, hr, rfl⟩ := exists_readWord_eq_ok h
      exact ⟨_, map_eq_ok_iff.2 ⟨r, hr, rfl⟩, rfl, rfl⟩
    | string h =>
      obtain ⟨r, hr, rfl, rfl⟩ := h
      exact ⟨_, map_eq_ok_iff.2 ⟨r, hr, rfl⟩, rfl, rfl⟩
    | array h =>
      obtain ⟨r, hr, rfl, rfl⟩ := h
      exact ⟨_, map_eq_ok_iff.2 ⟨r, hr, rfl⟩, rfl, rfl⟩
    | object h =>
      obtain ⟨r, hr, rfl, rfl⟩ := h
      exact ⟨_, map_eq_ok_iff.2 ⟨r, hr, rfl⟩, rfl, rfl⟩
    | number hc h =>
      obtain ⟨r, hr, rfl, rfl⟩ := h
      dsimp only
      split
      case h_7 =>
        rw [if_pos (by simpa using hc)]
        exact ⟨_, map_eq_ok_iff.2 ⟨r, hr, rfl⟩, rfl, rfl⟩
      -- neither a minus sign nor a digit begins another form
      all_goals exact absurd hc (by decide)

/-- **A value is read by its form**, with white space in front. -/
theorem reads_value_iff {s rest : Text} {v : Json} :
    Reads (readValueWith mode array object) s v rest ↔
      ReadsValue mode array object (skipSpace s) v rest :=
  ⟨ReadsValue.of_reads, ReadsValue.reads⟩

/-- An array after its bracket, where there is room for `depth` levels with its own. -/
def readArray (mode : Strictness) : (depth : Nat) → Reader Json
  | 0 => fun _ => .error .malformed
  | depth + 1 => fun s => (readItems (readJson mode depth) s).map (·.map Json.array)

/-- An object after its brace, where there is room for `depth` levels with its own. -/
def readObject (mode : Strictness) : (depth : Nat) → Reader Json
  | 0 => fun _ => .error .malformed
  | depth + 1 => fun s =>
    (readMembers (fun _ => readMember (readString mode) (readJson mode depth)) s).map
      (·.map Json.object)

/-- **A value of any shape is read by its form.** -/
theorem reads_json_iff {depth : Nat} {s rest : Text} {v : Json} :
    Reads (readJson mode depth) s v rest ↔
      ReadsValue mode (readArray mode depth) (readObject mode depth) (skipSpace s) v rest := by
  rw [← reads_value_iff]
  cases depth <;> rfl

/-- An array takes one level more than its items. -/
theorem reads_array_iff {depth : Nat} {s rest : Text} {v : Json} :
    Reads (readArray mode depth) s v rest ↔ ∃ below items, depth = below + 1 ∧
      v = .array items ∧ Reads (readItems (readJson mode below)) s items rest := by
  cases depth with
  | zero =>
    constructor
    · intro h
      exact absurd h (not_reads_error _ _ _ _)
    · rintro ⟨below, items, hdepth, -⟩
      omega
  | succ depth =>
    rw [readArray, reads_map_iff]
    constructor
    · rintro ⟨items, hv, hitems⟩
      exact ⟨depth, items, rfl, hv, hitems⟩
    · rintro ⟨below, items, hdepth, hv, hitems⟩
      obtain rfl : depth = below := Nat.succ.inj hdepth
      exact ⟨items, hv, hitems⟩

/-- An object takes one level more than its members. -/
theorem reads_object_iff {depth : Nat} {s rest : Text} {v : Json} :
    Reads (readObject mode depth) s v rest ↔ ∃ below members, depth = below + 1 ∧
      v = .object members ∧ Reads (readMembers
        fun _ => readMember (readString mode) (readJson mode below)) s members rest := by
  cases depth with
  | zero =>
    constructor
    · intro h
      exact absurd h (not_reads_error _ _ _ _)
    · rintro ⟨below, members, hdepth, -⟩
      omega
  | succ depth =>
    rw [readObject, reads_map_iff]
    constructor
    · rintro ⟨members, hv, hmembers⟩
      exact ⟨depth, members, rfl, hv, hmembers⟩
    · rintro ⟨below, members, hdepth, hv, hmembers⟩
      obtain rfl : depth = below := Nat.succ.inj hdepth
      exact ⟨members, hv, hmembers⟩

/-- White space in front of a value does not matter. -/
theorem reads_json_skipSpace_iff {depth : Nat} {s rest : Text} {v : Json} :
    Reads (readJson mode depth) (skipSpace s) v rest ↔ Reads (readJson mode depth) s v rest := by
  rw [reads_json_iff, reads_json_iff, skipSpace_skipSpace]

theorem reads_json_blank_append_iff {depth : Nat} {blank s rest : Text} {v : Json}
    (h : skipSpace blank = []) :
    Reads (readJson mode depth) (blank ++ s) v rest ↔ Reads (readJson mode depth) s v rest := by
  rw [reads_json_iff, reads_json_iff, skipSpace_append_of_eq_nil h]

/-- A closing bracket begins no value. -/
theorem not_readsValue_bracket (s rest : Text) (v : Json) :
    ¬ReadsValue mode array object (']' :: s) v rest := by
  intro h
  cases h with
  | number hc h => exact absurd hc (by decide)

end ComponentPages
