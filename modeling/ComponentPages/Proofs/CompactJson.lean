import ComponentPages.Json.Printer
import ComponentPages.Proofs.SourceText
import ComponentPages.Proofs.StringReading

/-!
# Brackets and literals in written JSON

A JSON value on one line is source text in which everything is closed, whatever the value.

- **`whole_quoted`** — a string is a single literal: all that could end it is escaped.
- **`JsonNumber.unmarked_text`** — a number has neither brackets nor quotation marks.
- **`Json.whole_compact`** — so that each value is whole.
-/

namespace ComponentPages

/-! ## Whole text put together -/

theorem whole_joinWith {sep : Text} (hsep : Whole sep) {parts : List Text}
    (h : ∀ part ∈ parts, Whole part) : Whole (joinWith sep parts) := by
  induction parts with
  | nil => exact .nil
  | cons part parts ih =>
    obtain ⟨hpart, hparts⟩ := List.forall_mem_cons.1 h
    cases parts with
    | nil => rwa [joinWith_singleton]
    | cons next parts =>
      rw [joinWith_cons_cons]
      exact (hpart.append hsep).append (ih hparts)

/-! ## Strings -/

/-- A hexadecimal digit neither ends a string nor escapes anything. -/
theorem hexDigit_ne : ∀ n < 16, hexDigit n ≠ '"' ∧ hexDigit n ≠ '\\' := by decide

theorem literalText_escapeChar (c : Char) : LiteralText '"' (escapeChar c) := by
  rcases escapeChar_cases c with ⟨e, -, hc⟩ | ⟨hcontrol, hc⟩ | ⟨hquote, hbackslash, -, hc⟩
  · rw [hc]
    exact .escape .nil
  · obtain ⟨hhigh, hhigh'⟩ := hexDigit_ne (c.toNat / 16) (by omega)
    obtain ⟨hlow, hlow'⟩ := hexDigit_ne (c.toNat % 16) (Nat.mod_lt _ (by decide))
    rw [hc]
    exact .escape (.char (by decide) (by decide) (.char (by decide) (by decide)
      (.char hhigh hhigh' (.char hlow hlow' .nil))))
  · rw [hc]
    exact .char hquote hbackslash .nil

/-- **A written string is a single literal.** -/
theorem whole_quoted (s : Text) : Whole (quoted s) := by
  have hbody : LiteralText '"' (s.flatMap escapeChar) := by
    induction s with
    | nil => exact .nil
    | cons c s ih => exact (literalText_escapeChar c).append ih
  exact .literal rfl hbody .nil

/-! ## Numbers -/

theorem isMark_of_isDigit {c : Char} (h : c.isDigit = true) : Nesting.isMark c = false :=
  isMark_eq_false_of (by decide) h

theorem unmarked_toDigits (n : Nat) : Unmarked (Nat.toDigits 10 n) := fun _ h =>
  isMark_of_isDigit (Nat.isDigit_of_mem_toDigits (by decide) (by decide) h)

theorem unmarked_wholeText (n : Int) : Unmarked (wholeText n) := by
  rw [wholeText, Int.toString_eq_repr, Int.repr_eq_if]
  split
  · rw [Nat.toList_repr]
    exact unmarked_toDigits _
  · rw [String.toList_append, Nat.toList_repr]
    exact Unmarked.append (by decide) (unmarked_toDigits _)

theorem Decimal.unmarked_text (d : Decimal) : Unmarked d.text := by
  have hdigits := unmarked_toDigits d.digits
  have hzeros (n : Nat) : Unmarked (List.replicate n '0') := fun c hc => by
    rw [List.eq_of_mem_replicate hc]
    rfl
  have htake (n : Nat) := hdigits.subset (List.take_subset n _)
  have hdrop (n : Nat) := hdigits.subset (List.drop_subset n _)
  -- the cases are the ways to write the number
  simp only [Decimal.text]
  split
  · exact (hdigits.append (hzeros _)).append (by decide)
  split
  · exact (htake _).append ((hdrop _).cons rfl)
  split
  · exact (Unmarked.append (by decide) (hzeros _)).append hdigits
  · refine (((htake 1).append ?_).append ?_).append (unmarked_wholeText _)
    · split
      · decide
      · exact (hdrop 1).cons rfl
    · split <;> decide

theorem JsonNumber.unmarked_text (n : JsonNumber) : Unmarked n.text := by
  cases n with
  | whole n => exact unmarked_wholeText n
  | real negative magnitude =>
    refine Unmarked.append ?_ (Decimal.unmarked_text _)
    cases negative <;> decide

/-! ## Values -/

namespace OrderedMap

variable {α : Type}

theorem mem_of_mem_putEntry {e : Text × α} {key : Text} {value : α} {entries : List (Text × α)}
    (h : e ∈ putEntry key value entries) : e = (key, value) ∨ e ∈ entries := by
  induction entries with
  | nil => exact .inl (List.mem_singleton.1 h)
  | cons first rest ih =>
    obtain ⟨k, v⟩ := first
    rw [putEntry] at h
    split at h
    · exact (List.mem_cons.1 h).imp_right (List.mem_cons_of_mem _)
    · rcases List.mem_cons.1 h with rfl | h
      · exact .inr (List.mem_cons_self ..)
      · exact (ih h).imp_right (List.mem_cons_of_mem _)

theorem mem_of_mem_insertAll {e : Text × α} {m : OrderedMap α} {entries : List (Text × α)}
    (h : e ∈ (m.insertAll entries).entries) : e ∈ m.entries ∨ e ∈ entries := by
  induction entries generalizing m with
  | nil => exact .inl h
  | cons first rest ih =>
    rcases ih (m := m.insert first.1 first.2) h with h | h
    · rcases mem_of_mem_putEntry h with rfl | h
      · exact .inr (List.mem_cons_self ..)
      · exact .inl h
    · exact .inr (List.mem_cons_of_mem _ h)

/-- The entries of a map are among those that it was made of. -/
theorem mem_of_mem_ofList {e : Text × α} {entries : List (Text × α)}
    (h : e ∈ (ofList entries).entries) : e ∈ entries :=
  (mem_of_mem_insertAll h).resolve_left (List.not_mem_nil)

end OrderedMap

namespace Json

mutual

/-- **A value on one line is whole text.** -/
theorem whole_compact (v : Json) : Whole v.compact := by
  cases v with
  | null => exact Unmarked.whole (by decide)
  | bool b => cases b <;> exact Unmarked.whole (by decide)
  | number n => exact n.unmarked_text.whole
  | string s => exact whole_quoted s
  | array items =>
    exact .brackets rfl (whole_joinWith (.char rfl .nil) (whole_compactItems items)) .nil
  | object members =>
    refine .brackets rfl (whole_joinWith (.char rfl .nil) fun part hpart => ?_) .nil
    obtain ⟨m, hm, rfl⟩ := List.mem_map.1 hpart
    rw [sortMembers, List.mem_mergeSort] at hm
    have hvalue := whole_compactMembers members m (OrderedMap.mem_of_mem_ofList hm)
    exact (whole_quoted m.1).append (.char rfl hvalue)

theorem whole_compactItems (items : List Json) : ∀ part ∈ compactItems items, Whole part := by
  cases items with
  | nil => exact List.forall_mem_nil _
  | cons v items => exact List.forall_mem_cons.2 ⟨whole_compact v, whole_compactItems items⟩

theorem whole_compactMembers (members : List (Text × Json)) :
    ∀ m ∈ compactMembers members, Whole m.2 := by
  cases members with
  | nil => exact List.forall_mem_nil _
  | cons m members =>
    exact List.forall_mem_cons.2 ⟨whole_compact m.2, whole_compactMembers members⟩

end

end Json

end ComponentPages
