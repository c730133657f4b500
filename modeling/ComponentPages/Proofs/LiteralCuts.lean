import ComponentPages.Proofs.SourceText
import ComponentPages.Proofs.TopLevelParts
import Mathlib.Data.List.Induction
import Mathlib.Data.List.Infix

/-!
# Literals in a text that is split

A text is split by a scan that knows of a literal only its quotation mark and whether the last
character was a backslash. It finds the literals, and with them the places to cut, where no literal
ends in a backslash.

- **`EndsInBackslash`** — a literal of the text ends in a backslash, which another one escapes.
- **`Agrees`**, **`agrees_of_run?`** — the scan finds open what is open, character by character.
- **`tellsLiterals_iff`** — it tells literals from the rest just where none ends in a backslash.
- **`tellsLiterals_iff_and_cuts`** — and there whole text is cut at the separators that stand
  outside of literals and brackets.
-/

namespace ComponentPages

/-- A literal opens where `body` begins, which is as far as the text goes. -/
def OpenedBefore (mark : Char) (awaited : List Char) (body s : Text) : Prop :=
  ∃ before, s = before ++ mark :: body ∧
    Reading.start.run? before = some ⟨awaited, .outside⟩ ∧
    Nesting.isQuotationMark mark = true ∧ LiteralText mark body

/-- A literal of the text ends in a backslash, which another one escapes. -/
def EndsInBackslash (s : Text) : Prop :=
  ∃ mark awaited body upto after, OpenedBefore mark awaited body upto ∧
    body.getLast? = some '\\' ∧ s = upto ++ mark :: after

/-- What ends in a backslash still does when more follows. -/
theorem EndsInBackslash.append {s : Text} (h : EndsInBackslash s) (t : Text) :
    EndsInBackslash (s ++ t) := by
  obtain ⟨mark, awaited, body, upto, after, hopened, hlast, rfl⟩ := h
  exact ⟨mark, awaited, body, upto, after ++ t, hopened, hlast, by simp⟩

namespace Reading

theorem run?_concat_eq_some_iff {r r' : Reading} {s : Text} {c : Char} :
    r.run? (s ++ [c]) = some r' ↔ ∃ next, r.run? s = some next ∧ next.next? c = some r' := by
  rw [run?_append, Option.bind_eq_some_iff]
  simp

end Reading

theorem OpenedBefore.concat {mark : Char} {awaited : List Char} {body s more : Text}
    (h : OpenedBefore mark awaited body s) (hmore : LiteralText mark more) :
    OpenedBefore mark awaited (body ++ more) (s ++ more) := by
  obtain ⟨before, rfl, hbefore, hmark, hbody⟩ := h
  exact ⟨before, by simp, hbefore, hmark, hbody.append hmore⟩

/-- A text that opens a literal ends as the literal does so far. -/
theorem OpenedBefore.getLast? {mark : Char} {awaited : List Char} {body s : Text}
    (h : OpenedBefore mark awaited body s) : s.getLast? = some (body.getLast?.getD mark) := by
  obtain ⟨before, rfl, -⟩ := h
  simp [List.getLast?_append, List.getLast?_cons]

theorem OpenedBefore.run? {mark : Char} {awaited : List Char} {body s : Text}
    (h : OpenedBefore mark awaited body s) :
    Reading.start.run? s = some ⟨awaited, .inside mark⟩ := by
  obtain ⟨before, rfl, hbefore, hmark, hbody⟩ := h
  rw [Reading.run?_append, hbefore, Option.bind_some, Reading.run?_cons,
    Reading.next?_quotationMark hmark, Option.bind_some, Reading.run?_literalText hmark hbody]

/-- What has been read at a place: where a literal is open, the text goes on to the inside of it. -/
def LiteralPlace.OpenedIn (place : LiteralPlace) (awaited : List Char) (s : Text) : Prop :=
  match place with
  | .outside => True
  | .inside mark => ∃ body, OpenedBefore mark awaited body s
  | .escaped mark => ∃ body upto, s = upto ++ ['\\'] ∧ OpenedBefore mark awaited body upto

/-- **Where a literal is open it was opened**, and what is read since is the inside of a literal. -/
theorem openedIn_of_run? {s : Text} {r : Reading} (h : Reading.start.run? s = some r) :
    r.place.OpenedIn r.awaited s := by
  induction s using List.reverseRecOn generalizing r with
  | nil =>
    cases h
    trivial
  | append_singleton s c ih =>
    obtain ⟨⟨awaited, place⟩, hs, hnext⟩ := Reading.run?_concat_eq_some_iff.1 h
    have hbefore := ih hs
    cases place with
    | outside =>
      rcases Reading.next?_outside_cases hnext with
        ⟨hquote, rfl⟩ | ⟨closing, -, rfl⟩ | ⟨more, -, -, rfl⟩ | ⟨-, rfl⟩
      · exact ⟨[], s, rfl, hs, hquote, .nil⟩
      all_goals trivial
    | inside mark =>
      obtain ⟨body, hbody⟩ := hbefore
      rcases Reading.next?_inside_cases hnext with
        ⟨-, rfl⟩ | ⟨-, rfl, rfl⟩ | ⟨hmark, hescape, rfl⟩
      · trivial
      · exact ⟨body, s, rfl, hbody⟩
      · exact ⟨body ++ [c], hbody.concat (.char hmark hescape .nil)⟩
    | escaped mark =>
      obtain ⟨body, upto, rfl, hbody⟩ := hbefore
      cases hnext
      refine ⟨body ++ ['\\', c], ?_⟩
      rw [List.append_assoc]
      exact hbody.concat (.escape .nil)

/-! ## The scan beside the reading -/

/-- The quotation mark of the literal that is open. -/
def LiteralPlace.mark? : LiteralPlace → Option Char
  | .outside => none
  | .inside mark | .escaped mark => some mark

/-- The scan finds open what is open. -/
structure Agrees (r : Reading) (n : Nesting) : Prop where
  depth : n.depth = r.awaited.length
  quote : n.quote = r.place.mark?
  /-- An escaped character is not taken for the end of the literal. -/
  escaped : ∀ mark, r.place = .escaped mark → n.escaped = true

theorem Agrees.isTop_iff {r : Reading} {n : Nesting} (h : Agrees r n) :
    n.isTop = true ↔ r = .start := by
  obtain ⟨awaited, place⟩ := r
  rw [Nesting.isTop_iff, h.depth, h.quote, List.length_eq_zero_iff]
  cases place <;> simp [LiteralPlace.mark?, Reading.start]

/-- **One more character.** The scan goes astray only where it takes the end of a literal for an
escaped character. -/
theorem Agrees.next {r r' : Reading} {n : Nesting} {c : Char} (h : Agrees r n)
    (hnext : r.next? c = some r') (hend : r.place = .inside c → n.escaped = false) :
    Agrees r' (n.next c) := by
  obtain ⟨awaited, place⟩ := r
  obtain ⟨depth, quote, escaped⟩ := n
  obtain ⟨rfl, rfl, hescaped⟩ := h
  cases place with
  | outside =>
    rcases Reading.next?_outside_cases hnext with
      ⟨hmark, rfl⟩ | ⟨closing, hclosing, rfl⟩ | ⟨more, rfl, hcloses, rfl⟩ | ⟨hmark, rfl⟩
    · constructor <;> simp [Nesting.next, LiteralPlace.mark?, hmark]
    · have hquote := isQuotationMark_of_opens (opens_of_closing? hclosing)
      have hopens := opens_of_closing? hclosing
      constructor <;> simp [Nesting.next, LiteralPlace.mark?, hquote, hopens]
    · obtain ⟨hquote, hopens⟩ := isQuotationMark_of_closes hcloses
      constructor <;> simp [Nesting.next, LiteralPlace.mark?, hquote, hopens, hcloses]
    · obtain ⟨hquote, hopens, hcloses⟩ := isMark_eq_false_iff.1 hmark
      constructor <;> simp [Nesting.next, LiteralPlace.mark?, hquote, hopens, hcloses]
  | inside mark =>
    rcases Reading.next?_inside_cases hnext with
      ⟨rfl, rfl⟩ | ⟨hmark, rfl, rfl⟩ | ⟨hmark, hescape, rfl⟩
    · have hlast : escaped = false := hend rfl
      constructor <;> simp [Nesting.next, LiteralPlace.mark?, hlast]
    · constructor <;> simp [Nesting.next, LiteralPlace.mark?, hmark]
    · constructor <;> simp [Nesting.next, LiteralPlace.mark?, hmark]
  | escaped mark =>
    cases hnext
    have hlast : escaped = true := hescaped mark rfl
    constructor <;> simp [Nesting.next, LiteralPlace.mark?, hlast]

/-- After a text the scan knows whether the last character was a backslash. -/
theorem escaped_run (s : Text) : (Nesting.top.run s).escaped = (s.getLast? == some '\\') := by
  induction s using List.reverseRecOn with
  | nil => rfl
  | append_singleton s c _ =>
    rw [Nesting.run_append, Nesting.run_cons, Nesting.run_nil, Nesting.escaped_next,
      List.getLast?_concat]
    rfl

/-- Before the end of a literal there is a backslash only where the literal ends in one. -/
theorem escaped_run_eq_false {s : Text} {awaited : List Char} {mark : Char}
    (h : Reading.start.run? s = some ⟨awaited, .inside mark⟩)
    (hends : ¬EndsInBackslash (s ++ [mark])) : (Nesting.top.run s).escaped = false := by
  obtain ⟨body, hopened⟩ := openedIn_of_run? h
  rw [escaped_run, beq_eq_false_iff_ne]
  intro hlast
  refine hends ⟨mark, awaited, body, s, [], hopened, ?_, rfl⟩
  rw [hopened.getLast?] at hlast
  obtain ⟨before, -, -, hmark, -⟩ := hopened
  cases hbody : body.getLast? with
  | none =>
    rw [hbody] at hlast
    exact absurd (Option.some.inj hlast) (isQuotationMark_cases hmark).2.2
  | some c => rwa [hbody] at hlast

/-- **The scan finds open what is open** where no literal ends in a backslash. -/
theorem agrees_of_run? {s : Text} {r : Reading} (h : Reading.start.run? s = some r)
    (hends : ¬EndsInBackslash s) : Agrees r (Nesting.top.run s) := by
  -- from the end, since both readings are told by what they have read so far
  induction s using List.reverseRecOn generalizing r with
  | nil =>
    cases h
    exact ⟨rfl, rfl, fun _ hplace => by cases hplace⟩
  | append_singleton s c ih =>
    obtain ⟨⟨awaited, place⟩, hs, hnext⟩ := Reading.run?_concat_eq_some_iff.1 h
    have hagrees := ih hs fun hbefore => hends (hbefore.append [c])
    rw [Nesting.run_append]
    refine hagrees.next hnext ?_
    rintro rfl
    exact escaped_run_eq_false hs hends

/-- A text that closes its own brackets does so at every place. -/
theorem ClosesOwn.of_append {s t : Text} (h : ClosesOwn (s ++ t)) :
    ∃ r, Reading.start.run? s = some r := by
  obtain ⟨r, hr⟩ := Option.isSome_iff_exists.1 h
  rw [Reading.run?_append] at hr
  obtain ⟨r', hr', -⟩ := Option.bind_eq_some_iff.1 hr
  exact ⟨r', hr'⟩

theorem Whole.closesOwn {s : Text} (h : Whole s) : ClosesOwn s :=
  Option.isSome_iff_exists.2 ⟨_, whole_iff.1 h⟩

/-- At a place where a text is read so far, nothing is open for the scan where the text up to there
is whole. -/
theorem isTop_iff_whole {s t : Text} (h : ClosesOwn (s ++ t)) (hends : ¬EndsInBackslash (s ++ t)) :
    (Nesting.top.run s).isTop = true ↔ Whole s := by
  obtain ⟨r, hr⟩ := h.of_append
  have hagrees := agrees_of_run? hr fun hbefore => hends (hbefore.append t)
  rw [hagrees.isTop_iff, whole_iff, hr, Option.some_inj]

/-! ## Literals told from the rest -/

/-- At every place the scan is in quotation marks where a literal is open, and only there. -/
def TellsLiterals (s : Text) : Prop :=
  ∀ before, before <+: s →
    ((Nesting.top.run before).quote = none ↔
      ∃ r ∈ Reading.start.run? before, r.place = .outside)

instance (s : Text) : Decidable (TellsLiterals s) :=
  decidable_of_iff (∀ before ∈ s.inits, ((Nesting.top.run before).quote = none ↔
      ∃ r ∈ Reading.start.run? before, r.place = .outside))
    (forall_congr' fun before => by rw [List.mem_inits])

/-- **The scan tells literals from the rest just where none ends in a backslash.** -/
theorem tellsLiterals_iff {s : Text} (h : ClosesOwn s) : TellsLiterals s ↔ ¬EndsInBackslash s := by
  constructor
  · rintro htells ⟨mark, awaited, body, upto, after, hopened, hlast, rfl⟩
    have hinside := hopened.run?
    -- the scan is in quotation marks before the end of the literal
    have hopen : (Nesting.top.run upto).quote ≠ none := by
      rw [Ne, htells upto (List.prefix_append _ _), hinside]
      rintro ⟨_, hr, hplace⟩
      cases hr
      cases hplace
    -- and out of them after it, though the last character was a backslash
    have hclosed : (Nesting.top.run (upto ++ [mark])).quote = none := by
      rw [htells _ ⟨after, by simp⟩]
      exact ⟨_, Reading.run?_concat_eq_some_iff.2 ⟨_, hinside, Reading.next?_inside_mark⟩, rfl⟩
    have hescaped : (Nesting.top.run upto).escaped = true := by
      rw [escaped_run, hopened.getLast?, hlast]
      rfl
    obtain ⟨q, hq⟩ := Option.ne_none_iff_exists'.1 hopen
    rw [Nesting.run_append, Nesting.run_cons, Nesting.run_nil, Nesting.next, hq, hescaped]
      at hclosed
    simp at hclosed
  · rintro hends before ⟨after, rfl⟩
    obtain ⟨⟨awaited, place⟩, hr⟩ := h.of_append
    have hagrees := agrees_of_run? hr fun hbefore => hends (hbefore.append after)
    rw [hagrees.quote, hr]
    cases place <;> simp [LiteralPlace.mark?]

/-! ## Cuts -/

/-- The text is cut at exactly the separators that stand outside of literals and brackets: those in
front of which everything is closed. -/
def CutsOutside (sep : Char) (s : Text) : Prop :=
  joinWith [sep] (splitTopLevel sep s) = s ∧
    ∀ before after, CutBetween sep (splitTopLevel sep s) before after ↔
      s = before ++ sep :: after ∧ Whole before

theorem cutsOutside_of_not_endsInBackslash {sep : Char} (hsep : IsNeutral sep) {s : Text}
    (h : ClosesOwn s) (hends : ¬EndsInBackslash s) : CutsOutside sep s := by
  refine ⟨joinWith_splitTopLevel hsep s, fun before after => ?_⟩
  rw [cutBetween_splitTopLevel_iff hsep]
  refine and_congr_right ?_
  rintro rfl
  exact isTop_iff_whole h hends

/-- **In whole text the scan tells literals from the rest just where none ends in a backslash**, and
there it cuts at the separators outside of literals and brackets. -/
theorem tellsLiterals_iff_and_cuts {s : Text} (h : Whole s) :
    (TellsLiterals s ↔ ¬EndsInBackslash s) ∧
      (¬EndsInBackslash s → ∀ sep, sep = ',' ∨ sep = ':' → CutsOutside sep s) := by
  refine ⟨tellsLiterals_iff h.closesOwn, ?_⟩
  rintro hends sep (rfl | rfl)
  · exact cutsOutside_of_not_endsInBackslash isNeutral_comma h.closesOwn hends
  · exact cutsOutside_of_not_endsInBackslash isNeutral_colon h.closesOwn hends

/-- A text is cut outside of its literals where one holds an escaped quotation mark, and where
brackets and separators stand in literals and in brackets. -/
theorem tellsLiterals_iff_and_cuts_escapedMark :
    let s := "'it\\'s (', f(\"a, b\", [1, 2]), c".toList
    Whole s ∧ TellsLiterals s ∧ CutsOutside ',' s ∧
      splitTopLevel ',' s =
        ["'it\\'s ('".toList, " f(\"a, b\", [1, 2])".toList, " c".toList] := by
  intro s
  have hs : Whole s := by decide
  have htells : TellsLiterals s := by decide
  obtain ⟨hiff, hcuts⟩ := tellsLiterals_iff_and_cuts hs
  exact ⟨hs, htells, hcuts (hiff.1 htells) ',' (.inl rfl), by decide⟩

/-- A literal that ends in an escaped backslash is not seen to end: the separator after it is taken
for a part of it. -/
theorem not_cutsOutside_escapedBackslash :
    let s := "'\\\\', 'b'".toList
    Whole s ∧ splitTopLevel ',' s = [s] ∧ ¬CutsOutside ',' s := by
  intro s
  have hparts : splitTopLevel ',' s = [s] := by decide
  refine ⟨by decide, hparts, fun h => ?_⟩
  have hcut := (h.2 "'\\\\'".toList " 'b'".toList).2 ⟨by decide, by decide⟩
  rw [hparts] at hcut
  exact not_cutBetween_singleton hcut

end ComponentPages
