import ComponentPages.Default.TopLevel

/-!
# Literals and brackets

What source text is made of, as far as it matters for where an expression ends: characters,
literals in quotation marks, and brackets around more of it. A backslash in a literal escapes the
one character after it.

- **`LiteralText`**, **`Whole`** — the grammar: the inside of a literal, and text in which all
  literals and brackets are closed.
- **`Reading`**, **`Reading.run`** — the same, read character by character: the brackets that are
  awaited, and the literal that is open.
- **`whole_iff`** — a text is whole where nothing is open after it that was not open before.
- **`Balanced`** — brackets outside of literals are properly nested.
-/

namespace ComponentPages

/-! ## The grammar -/

/-- The inside of a literal in quotation marks. -/
inductive LiteralText (mark : Char) : Text → Prop
  | nil : LiteralText mark []
  | char {c : Char} {s : Text} (hmark : c ≠ mark) (hescape : c ≠ '\\') (h : LiteralText mark s) :
      LiteralText mark (c :: s)
  | escape {c : Char} {s : Text} (h : LiteralText mark s) : LiteralText mark ('\\' :: c :: s)

/-- The bracket that closes what a bracket opens. -/
def closing? (c : Char) : Option Char :=
  if c = '(' then some ')'
  else if c = '[' then some ']'
  else if c = '\x7b' then some '\x7d'
  else none

/-- Text in which all literals and brackets are closed. -/
inductive Whole : Text → Prop
  | nil : Whole []
  | char {c : Char} {s : Text} (hc : Nesting.isMark c = false) (h : Whole s) : Whole (c :: s)
  | literal {mark : Char} {body s : Text} (hmark : Nesting.isQuotationMark mark = true)
      (hbody : LiteralText mark body) (h : Whole s) : Whole (mark :: body ++ mark :: s)
  | brackets {opening closing : Char} {inside s : Text} (hpair : closing? opening = some closing)
      (hinside : Whole inside) (h : Whole s) : Whole (opening :: inside ++ closing :: s)

/-- Text without brackets and quotation marks. -/
def Unmarked (s : Text) : Prop := ∀ c ∈ s, Nesting.isMark c = false

instance (s : Text) : Decidable (Unmarked s) :=
  decidable_of_iff (s.any Nesting.isMark = false) (by simp [Unmarked])

namespace Unmarked

variable {s t : Text}

theorem cons {c : Char} (hc : Nesting.isMark c = false) (h : Unmarked s) : Unmarked (c :: s) :=
  List.forall_mem_cons.2 ⟨hc, h⟩

theorem append (hs : Unmarked s) (ht : Unmarked t) : Unmarked (s ++ t) :=
  List.forall_mem_append.2 ⟨hs, ht⟩

theorem subset (ht : Unmarked t) (h : s ⊆ t) : Unmarked s := fun _ hc => ht _ (h hc)

theorem whole (h : Unmarked s) : Whole s := by
  induction s with
  | nil => exact .nil
  | cons c s ih =>
    obtain ⟨hc, hs⟩ := List.forall_mem_cons.1 h
    exact .char hc (ih hs)

end Unmarked

theorem LiteralText.append {mark : Char} {s t : Text} (hs : LiteralText mark s)
    (ht : LiteralText mark t) : LiteralText mark (s ++ t) := by
  induction hs with
  | nil => exact ht
  | char hmark hescape _ ih => exact .char hmark hescape ih
  | escape _ ih => exact .escape ih

/-! ## Reading -/

/-- Where in a literal a place is. -/
inductive LiteralPlace where
  | outside
  /-- Within a literal in these quotation marks. -/
  | inside (mark : Char)
  /-- Within one, right after a backslash that escapes the next character. -/
  | escaped (mark : Char)
deriving DecidableEq, Repr

/-- What is open at a place of source text. -/
structure Reading where
  /-- The brackets that have to come, the next one first. -/
  awaited : List Char
  place : LiteralPlace
deriving DecidableEq, Repr

namespace Reading

/-- At the beginning nothing is open. -/
def start : Reading := ⟨[], .outside⟩

/-- What is open after a bracket that closes; nothing, if another one is awaited. -/
def close? (awaited : List Char) (c : Char) : Option Reading :=
  match awaited with
  | [] => none
  | next :: more => if c = next then some ⟨more, .outside⟩ else none

/-- What is open after one more character. -/
def next? (r : Reading) (c : Char) : Option Reading :=
  match r.place with
  | .inside mark =>
    some ⟨r.awaited,
      if c = mark then .outside else if c = '\\' then .escaped mark else .inside mark⟩
  | .escaped mark => some ⟨r.awaited, .inside mark⟩
  | .outside =>
    if Nesting.isQuotationMark c then some ⟨r.awaited, .inside c⟩
    else
      match closing? c with
      | some closing => some ⟨closing :: r.awaited, .outside⟩
      | none => if Nesting.closes c then close? r.awaited c else some ⟨r.awaited, .outside⟩

/-- What is open after more text; nothing, if a bracket in it closes none that is open. -/
def run? (r : Reading) (s : Text) : Option Reading := s.foldlM next? r

@[simp] theorem run?_nil (r : Reading) : r.run? [] = some r := rfl

@[simp] theorem run?_cons (r : Reading) (c : Char) (s : Text) :
    r.run? (c :: s) = (r.next? c).bind fun r => r.run? s := rfl

theorem run?_append (r : Reading) (s t : Text) :
    r.run? (s ++ t) = (r.run? s).bind fun r => r.run? t := List.foldlM_append

/-- The reading with more brackets awaited below. -/
def atop (r : Reading) (below : List Char) : Reading := ⟨r.awaited ++ below, r.place⟩

end Reading

/-! ## Kinds of characters -/

section Kinds

variable {c opening closing : Char}

/-- The three brackets that open. -/
theorem closing?_cases (h : closing? opening = some closing) :
    (opening = '(' ∧ closing = ')') ∨ (opening = '[' ∧ closing = ']') ∨
      (opening = '\x7b' ∧ closing = '\x7d') := by
  unfold closing? at h
  grind

theorem closing?_eq_none (h : Nesting.opens c = false) : closing? c = none := by
  simp only [Nesting.opens, Bool.or_eq_false_iff, beq_eq_false_iff_ne] at h
  obtain ⟨⟨hround, hsquare⟩, hcurly⟩ := h
  rw [closing?, if_neg hround, if_neg hsquare, if_neg hcurly]

theorem opens_of_closing? (h : closing? opening = some closing) : Nesting.opens opening = true := by
  rcases closing?_cases h with ⟨rfl, -⟩ | ⟨rfl, -⟩ | ⟨rfl, -⟩ <;> rfl

theorem closes_of_closing? (h : closing? opening = some closing) :
    Nesting.closes closing = true := by
  rcases closing?_cases h with ⟨-, rfl⟩ | ⟨-, rfl⟩ | ⟨-, rfl⟩ <;> rfl

theorem opens_eq_false (h : closing? c = none) : Nesting.opens c = false := by
  cases hopens : Nesting.opens c with
  | false => rfl
  | true =>
    simp only [Nesting.opens, Bool.or_eq_true, beq_iff_eq] at hopens
    rcases hopens with (rfl | rfl) | rfl <;> cases h

/-- A quotation mark is not a bracket, and no backslash. -/
theorem isQuotationMark_cases (h : Nesting.isQuotationMark c = true) :
    Nesting.opens c = false ∧ Nesting.closes c = false ∧ c ≠ '\\' := by
  simp only [Nesting.isQuotationMark, Bool.or_eq_true, beq_iff_eq] at h
  rcases h with (rfl | rfl) | rfl <;> decide

theorem isQuotationMark_of_opens (h : Nesting.opens c = true) :
    Nesting.isQuotationMark c = false := by
  simp only [Nesting.opens, Bool.or_eq_true, beq_iff_eq] at h
  rcases h with (rfl | rfl) | rfl <;> rfl

theorem isQuotationMark_of_closes (h : Nesting.closes c = true) :
    Nesting.isQuotationMark c = false ∧ Nesting.opens c = false := by
  simp only [Nesting.closes, Bool.or_eq_true, beq_iff_eq] at h
  rcases h with (rfl | rfl) | rfl <;> exact ⟨rfl, rfl⟩

theorem isMark_eq_false_iff : Nesting.isMark c = false ↔
    Nesting.isQuotationMark c = false ∧ Nesting.opens c = false ∧ Nesting.closes c = false := by
  simp [Nesting.isMark, and_assoc]

/-- The characters with a meaning of their own. -/
def marks : List Char := ['\'', '"', backtick, '(', '[', '\x7b', ')', ']', '\x7d']

theorem isMark_iff_mem_marks : Nesting.isMark c = true ↔ c ∈ marks := by
  simp [Nesting.isMark, Nesting.isQuotationMark, Nesting.opens, Nesting.closes, marks, or_assoc]

/-- Characters of a kind to which no mark belongs. -/
theorem isMark_eq_false_of {p : Char → Bool} (hp : marks.any p = false) (hc : p c = true) :
    Nesting.isMark c = false := by
  rw [Bool.eq_false_iff, Ne, isMark_iff_mem_marks]
  intro hmark
  exact List.any_eq_false.1 hp c hmark hc

end Kinds

namespace Reading

/-! ## One character -/

section Step

variable {awaited below : List Char} {c mark opening closing : Char} {r r' : Reading}

theorem next?_inside_mark : next? ⟨awaited, .inside mark⟩ mark = some ⟨awaited, .outside⟩ := by
  simp [next?]

theorem next?_char (hc : Nesting.isMark c = false) :
    next? ⟨awaited, .outside⟩ c = some ⟨awaited, .outside⟩ := by
  obtain ⟨hquote, hopens, hcloses⟩ := isMark_eq_false_iff.1 hc
  simp [next?, hquote, closing?_eq_none hopens, hcloses]

theorem next?_quotationMark (h : Nesting.isQuotationMark mark = true) :
    next? ⟨awaited, .outside⟩ mark = some ⟨awaited, .inside mark⟩ := by
  simp [next?, h]

theorem next?_opening (h : closing? opening = some closing) :
    next? ⟨awaited, .outside⟩ opening = some ⟨closing :: awaited, .outside⟩ := by
  rcases closing?_cases h with ⟨rfl, rfl⟩ | ⟨rfl, rfl⟩ | ⟨rfl, rfl⟩ <;> rfl

theorem next?_awaited (h : Nesting.closes c = true) :
    next? ⟨c :: awaited, .outside⟩ c = some ⟨awaited, .outside⟩ := by
  simp only [Nesting.closes, Bool.or_eq_true, beq_iff_eq] at h
  rcases h with (rfl | rfl) | rfl <;> rfl

/-- **What one character can do outside of literals**: it opens a literal or a bracket, closes the
bracket that is awaited, or means nothing. -/
theorem next?_outside_cases (h : next? ⟨awaited, .outside⟩ c = some r) :
    (Nesting.isQuotationMark c = true ∧ r = ⟨awaited, .inside c⟩) ∨
      (∃ closing, closing? c = some closing ∧ r = ⟨closing :: awaited, .outside⟩) ∨
      (∃ more, awaited = c :: more ∧ Nesting.closes c = true ∧ r = ⟨more, .outside⟩) ∨
      (Nesting.isMark c = false ∧ r = ⟨awaited, .outside⟩) := by
  simp only [next?] at h
  split at h
  · next hquote => exact .inl ⟨hquote, (Option.some.inj h).symm⟩
  next hquote =>
    split at h
    · next closing hclosing => exact .inr (.inl ⟨closing, hclosing, (Option.some.inj h).symm⟩)
    next hclosing =>
      split at h
      · next hcloses =>
        unfold close? at h
        split at h
        · cases h
        · obtain ⟨rfl, hr⟩ := Option.ite_none_right_eq_some.1 h
          exact .inr (.inr (.inl ⟨_, rfl, hcloses, (Option.some.inj hr).symm⟩))
      · next hcloses =>
        have hmark : Nesting.isMark c = false := isMark_eq_false_iff.2
          ⟨by simpa using hquote, opens_eq_false hclosing, by simpa using hcloses⟩
        exact .inr (.inr (.inr ⟨hmark, (Option.some.inj h).symm⟩))

/-- **What one character can do within a literal**: it ends the literal, escapes the next one, or
means nothing. -/
theorem next?_inside_cases (h : next? ⟨awaited, .inside mark⟩ c = some r) :
    (c = mark ∧ r = ⟨awaited, .outside⟩) ∨
      (c ≠ mark ∧ c = '\\' ∧ r = ⟨awaited, .escaped mark⟩) ∨
      (c ≠ mark ∧ c ≠ '\\' ∧ r = ⟨awaited, .inside mark⟩) := by
  cases h
  by_cases hmark : c = mark
  · exact .inl ⟨hmark, by simp [hmark]⟩
  by_cases hescape : c = '\\'
  · exact .inr (.inl ⟨hmark, hescape, by rw [if_neg hmark, if_pos hescape]⟩)
  · exact .inr (.inr ⟨hmark, hescape, by rw [if_neg hmark, if_neg hescape]⟩)

/-- Within a literal no bracket is opened or closed. -/
theorem awaited_of_place_ne (hplace : r.place ≠ .outside) (h : r.next? c = some r') :
    r'.awaited = r.awaited := by
  obtain ⟨awaited, place⟩ := r
  cases place with
  | outside => exact absurd rfl hplace
  | inside mark => cases h; rfl
  | escaped mark => cases h; rfl

/-- Brackets that are awaited below make no difference as long as they are not reached. -/
theorem next?_atop (h : r.next? c = some r') (below : List Char) :
    (r.atop below).next? c = some (r'.atop below) := by
  obtain ⟨awaited, place⟩ := r
  cases place with
  | outside =>
    rcases next?_outside_cases h with
      ⟨hquote, rfl⟩ | ⟨closing, hclosing, rfl⟩ | ⟨more, rfl, hcloses, rfl⟩ | ⟨hmark, rfl⟩
    · exact next?_quotationMark hquote
    · exact next?_opening hclosing
    · exact next?_awaited hcloses
    · exact next?_char hmark
  | inside mark => cases h; rfl
  | escaped mark => cases h; rfl

/-- A character that is no mark neither opens nor closes a bracket. -/
theorem awaited_of_isMark_eq_false (hc : Nesting.isMark c = false) (h : r.next? c = some r') :
    r'.awaited = r.awaited := by
  by_cases hplace : r.place = .outside
  · obtain ⟨awaited, place⟩ := r
    subst hplace
    rw [next?_char hc] at h
    cases h
    rfl
  · exact awaited_of_place_ne hplace h

/-- A character closes at most one bracket, and only a closing one does. -/
theorem length_awaited_le (h : r.next? c = some r') :
    r.awaited.length ≤ r'.awaited.length + if Nesting.closes c then 1 else 0 := by
  by_cases hplace : r.place = .outside
  · obtain ⟨awaited, place⟩ := r
    subst hplace
    rcases next?_outside_cases h with
      ⟨-, rfl⟩ | ⟨closing, -, rfl⟩ | ⟨more, rfl, hcloses, rfl⟩ | ⟨-, rfl⟩
    · exact Nat.le_add_right _ _
    · exact Nat.le_add_right_of_le (Nat.le_succ _)
    · rw [hcloses]
      exact Nat.le_refl _
    · exact Nat.le_add_right _ _
  · rw [awaited_of_place_ne hplace h]
    exact Nat.le_add_right _ _

end Step

/-! ## A whole text -/

section Run

variable {awaited : List Char} {mark : Char} {s t : Text} {r r' : Reading}

theorem run?_atop (h : r.run? s = some r') (below : List Char) :
    (r.atop below).run? s = some (r'.atop below) := by
  induction s generalizing r with
  | nil =>
    cases h
    rfl
  | cons c s ih =>
    obtain ⟨next, hnext, hrest⟩ := Option.bind_eq_some_iff.1 h
    rw [run?_cons, next?_atop hnext below]
    exact ih hrest

/-- Text without marks neither opens nor closes a bracket. -/
theorem awaited_of_run? (hs : Unmarked s) (h : r.run? s = some r') :
    r'.awaited = r.awaited := by
  induction s generalizing r with
  | nil =>
    cases h
    rfl
  | cons c s ih =>
    obtain ⟨hc, hs⟩ := List.forall_mem_cons.1 hs
    obtain ⟨next, hnext, hrest⟩ := Option.bind_eq_some_iff.1 h
    rw [ih hs hrest, awaited_of_isMark_eq_false hc hnext]

/-- A text closes no more brackets than closing ones stand in it. -/
theorem length_awaited_le_of_run? (h : r.run? s = some r') :
    r.awaited.length ≤ r'.awaited.length + s.countP Nesting.closes := by
  induction s generalizing r with
  | nil =>
    cases h
    exact Nat.le_add_right _ _
  | cons c s ih =>
    obtain ⟨next, hnext, hrest⟩ := Option.bind_eq_some_iff.1 h
    have hfirst := length_awaited_le hnext
    have hmore := ih hrest
    rw [List.countP_cons]
    omega

theorem run?_literalText (hmark : Nesting.isQuotationMark mark = true) (h : LiteralText mark s) :
    run? ⟨awaited, .inside mark⟩ s = some ⟨awaited, .inside mark⟩ := by
  have hescape := (isQuotationMark_cases hmark).2.2
  induction h with
  | nil => rfl
  | char hc hbackslash _ ih => simpa [next?, hc, hbackslash] using ih
  | escape _ ih => simpa [next?, hescape.symm] using ih

/-- Whole text opens nothing and closes nothing. -/
theorem run?_whole (h : Whole s) : run? ⟨awaited, .outside⟩ s = some ⟨awaited, .outside⟩ := by
  induction h generalizing awaited with
  | nil => rfl
  | char hc _ ih =>
    rw [run?_cons, next?_char hc]
    exact ih
  | literal hmark hbody _ ih =>
    rw [List.cons_append, run?_cons, next?_quotationMark hmark, Option.bind_some, run?_append,
      run?_literalText hmark hbody, Option.bind_some, run?_cons, next?_inside_mark]
    exact ih
  | brackets hpair _ _ ihinside ih =>
    rw [List.cons_append, run?_cons, next?_opening hpair, Option.bind_some, run?_append, ihinside,
      Option.bind_some, run?_cons, next?_awaited (closes_of_closing? hpair)]
    exact ih

end Run

/-! ## What is left to come -/

/-- Text that closes the awaited brackets, with whole text before, between and after them. -/
def Closes : List Char → Text → Prop
  | [], s => Whole s
  | closing :: awaited, s =>
    ∃ inside rest, s = inside ++ closing :: rest ∧ Whole inside ∧ Closes awaited rest

/-- Whole text in front changes nothing. -/
theorem Closes.prepend {front : Text} (hfront : ∀ s, Whole s → Whole (front ++ s))
    {awaited : List Char} {s : Text} (h : Closes awaited s) : Closes awaited (front ++ s) := by
  cases awaited with
  | nil => exact hfront s h
  | cons closing awaited =>
    obtain ⟨inside, rest, rfl, hinside, hrest⟩ := h
    exact ⟨front ++ inside, rest, by rw [List.append_assoc], hfront inside hinside, hrest⟩

/-- Text that closes everything that is open. -/
def Completes (r : Reading) (s : Text) : Prop :=
  match r.place with
  | .outside => Closes r.awaited s
  | .inside mark =>
    ∃ body rest, s = body ++ mark :: rest ∧ LiteralText mark body ∧ Closes r.awaited rest
  | .escaped mark =>
    ∃ c body rest, s = c :: body ++ mark :: rest ∧ LiteralText mark body ∧ Closes r.awaited rest

/-- Text that closes what is open after a character still does with the character in front. -/
theorem Completes.cons {r r' : Reading} {c : Char} {s : Text} (hnext : r.next? c = some r')
    (h : r'.Completes s) : r.Completes (c :: s) := by
  obtain ⟨awaited, place⟩ := r
  cases place with
  | outside =>
    rcases next?_outside_cases hnext with
      ⟨hquote, rfl⟩ | ⟨closing, hclosing, rfl⟩ | ⟨more, rfl, -, rfl⟩ | ⟨hmark, rfl⟩
    · obtain ⟨body, rest, rfl, hbody, hrest⟩ := h
      have hfront : ∀ s, Whole s → Whole ((c :: body ++ [c]) ++ s) := fun s hs => by
        simpa using Whole.literal hquote hbody hs
      have hcloses := hrest.prepend hfront
      rwa [List.append_assoc] at hcloses
    · obtain ⟨inside, rest, rfl, hinside, hrest⟩ := h
      have hfront : ∀ s, Whole s → Whole ((c :: inside ++ [closing]) ++ s) := fun s hs => by
        simpa using Whole.brackets hclosing hinside hs
      have hcloses := hrest.prepend hfront
      rwa [List.append_assoc] at hcloses
    · exact ⟨[], s, rfl, .nil, h⟩
    · have hfront : ∀ s, Whole s → Whole ([c] ++ s) := fun s hs => .char hmark hs
      exact Closes.prepend hfront h
  | inside mark =>
    rcases next?_inside_cases hnext with
      ⟨rfl, rfl⟩ | ⟨-, rfl, rfl⟩ | ⟨hmark, hescape, rfl⟩
    · exact ⟨[], s, rfl, .nil, h⟩
    · obtain ⟨d, body, rest, rfl, hbody, hrest⟩ := h
      exact ⟨'\\' :: d :: body, rest, rfl, .escape hbody, hrest⟩
    · obtain ⟨body, rest, rfl, hbody, hrest⟩ := h
      exact ⟨c :: body, rest, rfl, .char hmark hescape hbody, hrest⟩
  | escaped mark =>
    cases hnext
    obtain ⟨body, rest, rfl, hbody, hrest⟩ := h
    exact ⟨c, body, rest, rfl, hbody, hrest⟩

theorem completes_of_run? {r : Reading} {s : Text} (h : r.run? s = some start) : r.Completes s := by
  induction s generalizing r with
  | nil =>
    cases h
    exact .nil
  | cons c s ih =>
    obtain ⟨next, hnext, hrest⟩ := Option.bind_eq_some_iff.1 h
    exact (ih hrest).cons hnext

end Reading

/-- **A text is whole where nothing is open after it.** -/
theorem whole_iff {s : Text} : Whole s ↔ Reading.start.run? s = some .start :=
  ⟨Reading.run?_whole, Reading.completes_of_run?⟩

instance (s : Text) : Decidable (Whole s) := decidable_of_iff _ whole_iff.symm

theorem Whole.append {s t : Text} (hs : Whole s) (ht : Whole t) : Whole (s ++ t) := by
  rw [whole_iff] at hs ht ⊢
  rw [Reading.run?_append, hs, Option.bind_some, ht]

/-! ## Balanced brackets -/

/-- Brackets outside of literals are properly nested. -/
def Balanced (s : Text) : Prop := ∃ r ∈ Reading.start.run? s, r.awaited = []

instance (s : Text) : Decidable (Balanced s) :=
  inferInstanceAs (Decidable (∃ r ∈ Reading.start.run? s, r.awaited = []))

/-- Every bracket that the text closes is one that it opened. -/
def ClosesOwn (s : Text) : Prop := (Reading.start.run? s).isSome = true

instance (s : Text) : Decidable (ClosesOwn s) :=
  inferInstanceAs (Decidable ((Reading.start.run? s).isSome = true))

theorem balanced_iff {s : Text} :
    Balanced s ↔ ∃ place, Reading.start.run? s = some ⟨[], place⟩ := by
  constructor
  · rintro ⟨⟨awaited, place⟩, hr, rfl⟩
    exact ⟨place, hr⟩
  · rintro ⟨place, hr⟩
    exact ⟨_, hr, rfl⟩

theorem Whole.balanced {s : Text} (h : Whole s) : Balanced s := balanced_iff.2 ⟨_, whole_iff.1 h⟩

end ComponentPages
