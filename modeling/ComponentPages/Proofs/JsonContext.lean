import ComponentPages.Proofs.JsonReading

/-!
# Values in a longer text

What is read off the front of a text is read off it also where more text stands behind, and with any
number of levels that the value has room in. Only a number at the very end of a text is an
exception: a digit behind it would become part of it.

- **`Json.nesting`** — how many levels of arrays and objects a value has.
- **`reads_string_append`**, **`reads_number_append`** — strings and numbers.
- **`reads_items_append`**, **`reads_members_append`** — the parts of arrays and objects.
- **`reads_json_append`** — a value is read in any text and at any depth that it fits in.
-/

namespace ComponentPages

variable {α : Type} {mode : Strictness}

/-! ## Levels -/

namespace Json

mutual

/-- How many levels of arrays and objects a value has. -/
def nesting : Json → Nat
  | array items => nestingOfItems items + 1
  | object members => nestingOfMembers members + 1
  | null | bool _ | number _ | string _ => 0

/-- The most levels of an item. -/
def nestingOfItems : List Json → Nat
  | [] => 0
  | v :: vs => max (nesting v) (nestingOfItems vs)

/-- The most levels of a member's value. -/
def nestingOfMembers : List (Text × Json) → Nat
  | [] => 0
  | (_, v) :: ms => max (nesting v) (nestingOfMembers ms)

end

/-- No item has more levels. -/
theorem nesting_le_of_mem_items {v : Json} {items : List Json} (h : v ∈ items) :
    v.nesting ≤ nestingOfItems items := by
  induction items with
  | nil => cases h
  | cons w items ih =>
    rw [nestingOfItems]
    rcases List.mem_cons.1 h with rfl | h
    · exact Nat.le_max_left _ _
    · exact (ih h).trans (Nat.le_max_right _ _)

/-- No member has a value of more levels. -/
theorem nesting_le_of_mem_members {m : Text × Json} {members : List (Text × Json)}
    (h : m ∈ members) : m.2.nesting ≤ nestingOfMembers members := by
  induction members with
  | nil => cases h
  | cons w members ih =>
    rw [nestingOfMembers]
    rcases List.mem_cons.1 h with rfl | h
    · exact Nat.le_max_left _ _
    · exact (ih h).trans (Nat.le_max_right _ _)

end Json

/-! ## Strings -/

section Strings

variable {s rest : Text} {c : Char}

theorem reads_hex_append {n : Nat} (h : Reads readHex s n rest) (more : Text) :
    Reads readHex (s ++ more) n (rest ++ more) := by
  obtain ⟨a, b, c, d, rfl, hvalue⟩ := reads_hex_iff.1 h
  exact reads_hex_iff.2 ⟨a, b, c, d, rfl, hvalue⟩

theorem reads_lowSurrogate_append {n : Nat} (h : Reads readLowSurrogate s n rest) (more : Text) :
    Reads readLowSurrogate (s ++ more) n (rest ++ more) := by
  obtain ⟨t, rfl, hhex, hrange⟩ := reads_lowSurrogate_iff.1 h
  exact reads_lowSurrogate_iff.2 ⟨t ++ more, rfl, reads_hex_append hhex more, hrange⟩

theorem reads_codePoint_append (h : Reads (readCodePoint mode) s c rest) (more : Text) :
    Reads (readCodePoint mode) (s ++ more) c (rest ++ more) := by
  cases mode with
  | lenient =>
    obtain ⟨n, hhex, hc⟩ := reads_codePoint_lenient_iff.1 h
    exact reads_codePoint_lenient_iff.2 ⟨n, reads_hex_append hhex more, hc⟩
  | strict =>
    obtain ⟨n, left, hhex, hlow, ⟨hhigh, hc, rfl⟩ | ⟨hhigh, low, hsecond, hc⟩⟩ :=
      reads_codePoint_strict_iff.1 h
    · exact reads_codePoint_strict_iff.2
        ⟨n, left ++ more, reads_hex_append hhex more, hlow, .inl ⟨hhigh, hc, rfl⟩⟩
    · exact reads_codePoint_strict_iff.2 ⟨n, left ++ more, reads_hex_append hhex more, hlow,
        .inr ⟨hhigh, low, reads_lowSurrogate_append hsecond more, hc⟩⟩

theorem reads_escape_append (h : Reads (readEscape mode) s c rest) (more : Text) :
    Reads (readEscape mode) (s ++ more) c (rest ++ more) := by
  obtain ⟨e, t, rfl, ⟨hsimple, rfl⟩ | ⟨he, hpoint⟩⟩ := reads_escape_iff.1 h
  · exact reads_escape_iff.2 ⟨e, t ++ more, rfl, .inl ⟨hsimple, rfl⟩⟩
  · exact reads_escape_iff.2 ⟨e, t ++ more, rfl, .inr ⟨he, reads_codePoint_append hpoint more⟩⟩

/-- **A string is read in front of any text**: its closing quotation mark ends it. -/
theorem reads_string_append {t : Text} (h : Reads (readString mode) s t rest) (more : Text) :
    Reads (readString mode) (s ++ more) t (rest ++ more) := by
  induction t generalizing s with
  | nil =>
    rw [reads_string_nil_iff.1 h]
    exact reads_string_end (rest ++ more)
  | cons c t ih =>
    rcases reads_string_cons_iff.1 h with
      ⟨u, left, rfl, hescape, hmore⟩ | ⟨u, rfl, hquote, hbackslash, hcontrol, hmore⟩
    · exact reads_string_of_escape (reads_escape_append hescape more) (ih hmore)
    · exact reads_string_of_plain hquote hbackslash hcontrol (ih hmore)

end Strings

/-! ## Numbers -/

section Numbers

variable {s rest : Text} {short : Fault}

theorem leadingDigits_append_afterDigits (s : Text) : leadingDigits s ++ afterDigits s = s :=
  List.takeWhile_append_dropWhile

/-- Digits end where another character follows. -/
theorem leadingDigits_append (h : afterDigits s ≠ []) (more : Text) :
    leadingDigits (s ++ more) = leadingDigits s := by
  have hlength : (leadingDigits s).length ≠ s.length := by
    intro hall
    have hparts := congrArg List.length (leadingDigits_append_afterDigits s)
    rw [List.length_append] at hparts
    exact h (List.length_eq_zero_iff.1 (by omega))
  unfold leadingDigits at hlength ⊢
  rw [List.takeWhile_append, if_neg hlength]

theorem afterDigits_append (h : afterDigits s ≠ []) (more : Text) :
    afterDigits (s ++ more) = afterDigits s ++ more := by
  unfold afterDigits at h ⊢
  rw [List.dropWhile_append, if_neg (by simpa using h)]

/-- The part `a` is taken off the front of a text and `rest` is left. -/
def Leaves (result : Except Fault (α × Rest s)) (a : α) (rest : Text) : Prop :=
  ∃ r, result = .ok (a, r) ∧ r.1 = rest

/-- Where something is left of a text, the text holds something. -/
theorem Leaves.ne_nil {result : Except Fault (α × Rest s)} {a : α} (h : Leaves result a rest)
    (hrest : rest ≠ []) : s ≠ [] := by
  obtain ⟨r, -, rfl⟩ := h
  rintro rfl
  exact hrest (List.length_eq_zero_iff.1 (Nat.le_zero.1 r.2))

/-- Digits are read where there is one or more of them, up to what follows them. -/
theorem leaves_digits_iff {ds : Text} : Leaves (readDigits short s) ds rest ↔
    ds = leadingDigits s ∧ ds ≠ [] ∧ rest = afterDigits s := by
  unfold Leaves readDigits
  constructor
  · rintro ⟨r, hr, rfl⟩
    split at hr
    · cases hr
    · next hds =>
      cases hr
      exact ⟨rfl, hds, rfl⟩
  · rintro ⟨rfl, hds, rfl⟩
    exact ⟨⟨afterDigits s, length_afterDigits_le s⟩, by split <;> simp_all, rfl⟩

theorem leaves_digits_append {ds : Text} (h : Leaves (readDigits short s) ds rest)
    (hrest : rest ≠ []) (more : Text) :
    Leaves (readDigits short (s ++ more)) ds (rest ++ more) := by
  obtain ⟨rfl, hds, rfl⟩ := leaves_digits_iff.1 h
  exact leaves_digits_iff.2
    ⟨(leadingDigits_append hrest more).symm, hds, (afterDigits_append hrest more).symm⟩

theorem leaves_fraction_append {fraction : Option Text}
    (h : Leaves (readFraction short s) fraction rest) (hrest : rest ≠ []) (more : Text) :
    Leaves (readFraction short (s ++ more)) fraction (rest ++ more) := by
  obtain ⟨r, hr, rfl⟩ := h
  unfold readFraction at hr
  split at hr
  · next t =>
    obtain ⟨⟨ds, left⟩, hdigits, hpair⟩ := map_eq_ok_iff.1 hr
    cases hpair
    obtain ⟨left', hdigits', hleft⟩ := leaves_digits_append ⟨left, hdigits, rfl⟩ hrest more
    exact ⟨left'.behind '.', map_eq_ok_iff.2 ⟨_, hdigits', rfl⟩, hleft⟩
  · next hpoint =>
    cases hr
    -- the text is not at its end, so that its first character decides
    cases s with
    | nil => exact absurd rfl hrest
    | cons c t =>
      refine ⟨Rest.whole (c :: t ++ more), ?_, rfl⟩
      rw [readFraction]
      rintro u hu
      exact hpoint t (by rw [(List.cons.inj hu).1])

/-- A sign is looked for at the first character. -/
theorem readSign_append (h : s ≠ []) (more : Text) :
    (readSign (s ++ more)).1 = (readSign s).1 ∧
      (readSign (s ++ more)).2.1 = (readSign s).2.1 ++ more := by
  cases s with
  | nil => exact absurd rfl h
  | cons c t =>
    by_cases hminus : c = '-'
    · subst hminus
      exact ⟨rfl, rfl⟩
    · by_cases hplus : c = '+'
      · subst hplus
        exact ⟨rfl, rfl⟩
      · rw [List.cons_append, readSign, readSign] <;> simp_all [Rest.whole]

/-- The digits of an exponent after its letter, with their sign. -/
def readPower (short : Fault) (s : Text) : Except Fault (Int × Rest s) :=
  (readDigits short (readSign s).2.1).map fun (ds, r) =>
    (if (readSign s).1 then -(digitsValue ds : Int) else digitsValue ds,
      ⟨r.1, r.2.trans (readSign s).2.2⟩)

theorem leaves_power_append {power : Int} (h : Leaves (readPower short s) power rest)
    (hrest : rest ≠ []) (more : Text) :
    Leaves (readPower short (s ++ more)) power (rest ++ more) := by
  obtain ⟨r, hr, rfl⟩ := h
  obtain ⟨⟨ds, left⟩, hdigits, hpair⟩ := map_eq_ok_iff.1 hr
  cases hpair
  have hs : s ≠ [] := by
    rintro rfl
    cases hdigits
  obtain ⟨hsign, htext⟩ := readSign_append hs more
  have := leaves_digits_append ⟨left, hdigits, rfl⟩ hrest more
  rw [← htext] at this
  obtain ⟨left', hdigits', hleft⟩ := this
  exact ⟨_, map_eq_ok_iff.2 ⟨_, hdigits', by rw [hsign]⟩, hleft⟩

/-- An exponent is a letter and a power, or is missing. -/
theorem readExponent_cons (c : Char) (t : Text) : readExponent short (c :: t) =
    if c = 'e' ∨ c = 'E' then (readPower short t).map fun (n, r) => (some n, r.behind c)
    else .ok (none, Rest.whole (c :: t)) := by
  have hpower (d : Char) (hd : d = 'e' ∨ d = 'E') : readExponent short (d :: t) =
      (readPower short t).map fun (n, r) => (some n, r.behind d) := by
    unfold readPower
    rcases hd with rfl | rfl
    all_goals
      rw [readExponent]
      dsimp only
      cases readDigits short (readSign t).2.1 <;> rfl
  by_cases hc : c = 'e' ∨ c = 'E'
  · rw [if_pos hc, hpower c hc]
  · rw [if_neg hc, readExponent]
    · rintro u hu
      exact hc (.inl (List.cons.inj hu).1)
    · rintro u hu
      exact hc (.inr (List.cons.inj hu).1)

theorem leaves_exponent_append {exponent : Option Int}
    (h : Leaves (readExponent short s) exponent rest) (hrest : rest ≠ []) (more : Text) :
    Leaves (readExponent short (s ++ more)) exponent (rest ++ more) := by
  obtain ⟨r, hr, rfl⟩ := h
  cases s with
  | nil =>
    cases hr
    exact absurd rfl hrest
  | cons c t =>
    rw [List.cons_append, readExponent_cons]
    rw [readExponent_cons] at hr
    split at hr
    · next hc =>
      obtain ⟨⟨n, left⟩, hpower, hpair⟩ := map_eq_ok_iff.1 hr
      cases hpair
      obtain ⟨left', hpower', hleft⟩ := leaves_power_append ⟨left, hpower, rfl⟩ hrest more
      rw [if_pos hc]
      exact ⟨_, map_eq_ok_iff.2 ⟨_, hpower', rfl⟩, hleft⟩
    · next hc =>
      cases hr
      rw [if_neg hc]
      exact ⟨_, rfl, rfl⟩

theorem reads_whole_append {whole : Text} (h : Reads (readWhole short) s whole rest)
    (hrest : rest ≠ []) (more : Text) :
    Reads (readWhole short) (s ++ more) whole (rest ++ more) := by
  obtain ⟨r, hr, rfl, rfl⟩ := h
  unfold readWhole at hr
  split at hr
  · cases hr
  · next c t =>
    unfold Reads
    rw [List.cons_append, readWhole]
    split at hr
    · next hzero =>
      rw [if_pos hzero]
      split at hr
      · next hdigits =>
        cases hr
        have hnone : afterDigits t = t := by
          have hparts := leadingDigits_append_afterDigits t
          rwa [List.isEmpty_iff.1 hdigits] at hparts
        rw [leadingDigits_append (by rwa [hnone]), if_pos hdigits]
        exact ⟨_, rfl, rfl, rfl⟩
      · cases hr
    · next hzero =>
      rw [if_neg hzero]
      split at hr
      · next hdigit =>
        cases hr
        rw [if_pos hdigit]
        exact ⟨_, rfl, by rw [leadingDigits_append hrest], afterDigits_append hrest more⟩
      · cases hr

/-- A number is read after its sign by its parts, one after another. -/
theorem reads_unsigned_iff {negative : Bool} {parts : NumberParts} :
    Reads (readUnsigned short negative) s parts rest ↔ ∃ whole t fraction u exponent,
      Reads (readWhole short) s whole t ∧ Leaves (readFraction short t) fraction u ∧
      Leaves (readExponent short u) exponent rest ∧
      parts = ⟨negative, whole, fraction, exponent⟩ := by
  constructor
  · rintro ⟨r, hr, rfl, rfl⟩
    unfold readUnsigned at hr
    split at hr
    · cases hr
    · next whole hwhole =>
      split at hr
      · cases hr
      · next fraction t hfraction =>
        split at hr
        · cases hr
        · next exponent u hexponent =>
          cases hr
          exact ⟨whole.value, whole.rest, fraction, t.1, exponent, ⟨whole, hwhole, rfl, rfl⟩,
            ⟨t, hfraction, rfl⟩, ⟨u, hexponent, rfl⟩, rfl⟩
  · rintro ⟨_, _, fraction, _, exponent, ⟨whole, hwhole, rfl, rfl⟩, ⟨t, hfraction, rfl⟩,
      ⟨u, hexponent, rfl⟩, rfl⟩
    refine ⟨⟨⟨negative, whole.value, fraction, exponent⟩, u.1, ?_⟩, ?_, rfl, rfl⟩
    · exact Nat.lt_of_le_of_lt (Nat.le_trans u.2 t.2) whole.shorter
    · simp only [readUnsigned, hwhole, hfraction, hexponent]

theorem reads_unsigned_append {negative : Bool} {parts : NumberParts}
    (h : Reads (readUnsigned short negative) s parts rest) (hrest : rest ≠ []) (more : Text) :
    Reads (readUnsigned short negative) (s ++ more) parts (rest ++ more) := by
  obtain ⟨whole, t, fraction, u, exponent, hwhole, hfraction, hexponent, hparts⟩ :=
    reads_unsigned_iff.1 h
  have hu : u ≠ [] := hexponent.ne_nil hrest
  have ht : t ≠ [] := hfraction.ne_nil hu
  exact reads_unsigned_iff.2 ⟨whole, t ++ more, fraction, u ++ more, exponent,
    reads_whole_append hwhole ht more, leaves_fraction_append hfraction hu more,
    leaves_exponent_append hexponent hrest more, hparts⟩

theorem reads_parts_append {parts : NumberParts} (h : Reads (readParts short) s parts rest)
    (hrest : rest ≠ []) (more : Text) :
    Reads (readParts short) (s ++ more) parts (rest ++ more) := by
  obtain ⟨r, hr, rfl, rfl⟩ := h
  unfold readParts at hr
  split at hr
  · next t =>
    obtain ⟨r', hr', rfl⟩ := map_eq_ok_iff.1 hr
    obtain ⟨r'', hr'', hvalue, hleft⟩ := reads_unsigned_append ⟨r', hr', rfl, rfl⟩ hrest more
    exact ⟨_, map_eq_ok_iff.2 ⟨r'', hr'', rfl⟩, hvalue, hleft⟩
  · next hminus =>
    have h : Reads (readUnsigned short false) (s ++ more) r.value (r.rest ++ more) :=
      reads_unsigned_append ⟨r, hr, rfl, rfl⟩ hrest more
    obtain ⟨c, t, rfl⟩ : ∃ c t, s = c :: t :=
      List.exists_cons_of_ne_nil (Reads.ne_nil ⟨r, hr, rfl, rfl⟩)
    unfold Reads
    rw [List.cons_append, readParts]
    · exact h
    · rintro u hu
      exact hminus t (by rw [(List.cons.inj hu).1])

/-- **A number is read in front of any text that follows something else.** -/
theorem reads_number_append {n : JsonNumber} (h : Reads (readNumber mode) s n rest)
    (hrest : rest ≠ []) (more : Text) : Reads (readNumber mode) (s ++ more) n (rest ++ more) := by
  obtain ⟨r, hr, rfl, rfl⟩ := h
  unfold readNumber at hr
  unfold Reads readNumber
  cases mode with
  | lenient =>
    obtain ⟨r', hr', rfl⟩ := map_eq_ok_iff.1 hr
    obtain ⟨r'', hr'', hvalue, hleft⟩ := reads_parts_append ⟨r', hr', rfl, rfl⟩ hrest more
    exact ⟨_, map_eq_ok_iff.2 ⟨r'', hr'', rfl⟩, rfl, hleft⟩
  | strict =>
    dsimp only at hr
    split at hr
    · cases hr
    · next r' hr' =>
      split at hr
      · next n hn =>
        cases hr
        obtain ⟨r'', hr'', hvalue, hleft⟩ := reads_parts_append ⟨r', hr', rfl, rfl⟩ hrest more
        rw [← hvalue] at hn
        simp only [hr'', hn]
        exact ⟨_, rfl, rfl, hleft⟩
      · cases hr

end Numbers

/-! ## Arrays and objects -/

/-- What one reader reads in front of something, the other reads too where more stands behind. -/
def CarriesOver (read read' : Reader α) (more : Text) (a : α) : Prop :=
  ∀ s rest, rest ≠ [] → Reads read s a rest → Reads read' (s ++ more) a (rest ++ more)

variable {s rest more : Text}

section Arrays

variable {item item' : Reader α} {a : α} {as : List α}

theorem reads_items_cons_append (ha : CarriesOver item item' more a)
    (has : ∀ left, Reads (readMoreItems item) left as rest →
      Reads (readMoreItems item') (left ++ more) as (rest ++ more))
    (h : Reads (readItems item) s (a :: as) rest) :
    Reads (readItems item') (s ++ more) (a :: as) (rest ++ more) := by
  obtain ⟨c, t, left, hs, hc, hfirst, hmore⟩ := reads_items_cons_iff.1 h
  exact reads_items_cons_iff.2 ⟨c, t ++ more, left ++ more, skipSpace_append_of_eq_cons hs, hc,
    ha _ _ hmore.ne_nil hfirst, has left hmore⟩

theorem reads_moreItems_append (hitem : ∀ a ∈ as, CarriesOver item item' more a)
    (h : Reads (readMoreItems item) s as rest) :
    Reads (readMoreItems item') (s ++ more) as (rest ++ more) := by
  induction as generalizing s with
  | nil =>
    rw [reads_moreItems_nil_iff] at h ⊢
    exact skipSpace_append_of_eq_cons h
  | cons a as ih =>
    obtain ⟨t, hs, hitems⟩ := reads_moreItems_cons_iff.1 h
    refine reads_moreItems_cons_iff.2 ⟨t ++ more, skipSpace_append_of_eq_cons hs, ?_⟩
    apply reads_items_cons_append (hitem a List.mem_cons_self) _ hitems
    intro left hleft
    exact ih (fun b hb => hitem b (List.mem_cons_of_mem _ hb)) hleft

/-- **The items of an array are read in front of any text.** -/
theorem reads_items_append (hitem : ∀ a ∈ as, CarriesOver item item' more a)
    (h : Reads (readItems item) s as rest) :
    Reads (readItems item') (s ++ more) as (rest ++ more) := by
  cases as with
  | nil =>
    rw [reads_items_nil_iff] at h ⊢
    exact skipSpace_append_of_eq_cons h
  | cons a as =>
    apply reads_items_cons_append (hitem a List.mem_cons_self) _ h
    intro left hleft
    exact reads_moreItems_append (fun b hb => hitem b (List.mem_cons_of_mem _ hb)) hleft

end Arrays

section Objects

variable {member member' : Reader α} {as : List α}

theorem reads_moreMembers_append {before before' : List α}
    (hmember : ∀ a ∈ as, CarriesOver member member' more a)
    (h : Reads (readMoreMembers (fun _ => member) before) s as rest) :
    Reads (readMoreMembers (fun _ => member') before') (s ++ more) as (rest ++ more) := by
  induction as generalizing s before before' with
  | nil =>
    rw [reads_moreMembers_nil_iff] at h ⊢
    exact skipSpace_append_of_eq_cons h
  | cons a as ih =>
    obtain ⟨t, u, left, hs, ht, hfirst, hmore⟩ := reads_moreMembers_cons_iff.1 h
    exact reads_moreMembers_cons_iff.2 ⟨t ++ more, u ++ more, left ++ more,
      skipSpace_append_of_eq_cons hs, skipSpace_append_of_eq_cons ht,
      hmember a List.mem_cons_self _ _ hmore.ne_nil hfirst,
      ih (fun b hb => hmember b (List.mem_cons_of_mem _ hb)) hmore⟩

/-- **The members of an object are read in front of any text.** -/
theorem reads_members_append (hmember : ∀ a ∈ as, CarriesOver member member' more a)
    (h : Reads (readMembers fun _ => member) s as rest) :
    Reads (readMembers fun _ => member') (s ++ more) as (rest ++ more) := by
  cases as with
  | nil =>
    rw [reads_members_nil_iff] at h ⊢
    exact skipSpace_append_of_eq_cons h
  | cons a as =>
    obtain ⟨t, left, hs, hfirst, hmore⟩ := reads_members_cons_iff.1 h
    exact reads_members_cons_iff.2 ⟨t ++ more, left ++ more, skipSpace_append_of_eq_cons hs,
      hmember a List.mem_cons_self _ _ hmore.ne_nil hfirst,
      reads_moreMembers_append (fun b hb => hmember b (List.mem_cons_of_mem _ hb)) hmore⟩

/-- A member is read in front of any text where its value is. -/
theorem carriesOver_member {value value' : Reader α} {k : Text} {a : α}
    (ha : CarriesOver value value' more a) : CarriesOver (readMember (readString mode) value)
      (readMember (readString mode) value') more (k, a) := by
  intro s rest hrest h
  obtain ⟨t, u, hkey, hcolon, hvalue⟩ := reads_member_iff.1 h
  exact reads_member_iff.2 ⟨t ++ more, u ++ more, reads_string_append hkey more,
    skipSpace_append_of_eq_cons hcolon, ha u rest hrest hvalue⟩

end Objects

/-! ## Values -/

/-- Whether a value is a number. -/
def Json.isNumber : Json → Bool
  | number _ => true
  | _ => false

/-- A value is read in front of any text if its parts are. -/
theorem ReadsValue.append {array object array' object' : Reader Json} {v : Json}
    (harray : ∀ s, Reads array s v rest → Reads array' (s ++ more) v (rest ++ more))
    (hobject : ∀ s, Reads object s v rest → Reads object' (s ++ more) v (rest ++ more))
    (hrest : v.isNumber = true → rest ≠ []) (h : ReadsValue mode array object s v rest) :
    ReadsValue mode array' object' (s ++ more) v (rest ++ more) := by
  cases h with
  | nullWord h => exact .nullWord (by rw [h]; exact List.append_assoc _ _ _)
  | trueWord h => exact .trueWord (by rw [h]; exact List.append_assoc _ _ _)
  | falseWord h => exact .falseWord (by rw [h]; exact List.append_assoc _ _ _)
  | string h => exact .string (reads_string_append h more)
  | array h => exact .array (harray _ h)
  | object h => exact .object (hobject _ h)
  | number hc h => exact .number hc (reads_number_append h (hrest rfl) more)

/-- What is read begins with a character that is no white space. -/
theorem ReadsValue.ne_nil {array object : Reader Json} {v : Json}
    (h : ReadsValue mode array object s v rest) : s ≠ [] := by
  cases h <;> exact List.cons_ne_nil _ _

/-- **A value is read in front of any text, and at any depth that it fits in.** -/
theorem reads_json_append {depth depth' : Nat} {v : Json} (h : Reads (readJson mode depth) s v rest)
    (hdepth : v.nesting ≤ depth') (hrest : v.isNumber = true → rest ≠ []) (more : Text) :
    Reads (readJson mode depth') (s ++ more) v (rest ++ more) := by
  induction depth using Nat.strongRecOn generalizing depth' v s rest with
  | _ depth ih =>
    rw [reads_json_iff] at h ⊢
    rw [skipSpace_append h.ne_nil]
    refine ReadsValue.append ?_ ?_ hrest h
    · intro t ht
      obtain ⟨below, items, rfl, rfl, hitems⟩ := reads_array_iff.1 ht
      rw [Json.nesting] at hdepth
      obtain ⟨below', rfl⟩ := Nat.exists_eq_add_of_le' (Nat.le_of_add_left_le hdepth)
      refine reads_array_iff.2 ⟨below', items, rfl, rfl, reads_items_append ?_ hitems⟩
      intro w hw u left hleft hread
      have hw := Json.nesting_le_of_mem_items hw
      exact ih below (Nat.lt_succ_self _) hread (by omega) fun _ => hleft
    · intro t ht
      obtain ⟨below, members, rfl, rfl, hmembers⟩ := reads_object_iff.1 ht
      rw [Json.nesting] at hdepth
      obtain ⟨below', rfl⟩ := Nat.exists_eq_add_of_le' (Nat.le_of_add_left_le hdepth)
      refine reads_object_iff.2 ⟨below', members, rfl, rfl, reads_members_append ?_ hmembers⟩
      intro m hm
      have hm := Json.nesting_le_of_mem_members hm
      apply carriesOver_member
      intro u left hleft hread
      exact ih below (Nat.lt_succ_self _) hread (by omega) fun _ => hleft

end ComponentPages
