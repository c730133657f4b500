import ComponentPages.Description.TagSet
import ComponentPages.Notice
import ComponentPages.Text.WordChar

/-!
# Inline directives

A directive is an opening brace and `@platform`, blanks, a list of ids and a closing brace,
anywhere in a text. It names platforms and is removed from what is shown.

- **`directiveAt?`** — the directive that a text begins with.
- **`Cut`**, **`cutDirectives`** — a text cut at its leftmost directives into the gaps between them.
- **`closeGap`** — how two gaps are put together where a directive stood between them.
- **`stripDirectives`** — the text without its directives, and the ids of all of them.
- **`splitLeading`** — the directives that a line begins with, and the rest of the line.
-/

namespace ComponentPages

/-! ## One directive -/

/-- A character that an id list may begin with. -/
def startsIdList (c : Char) : Bool := isAsciiWord c

/-- A character of an id list. -/
def inIdList (c : Char) : Bool := isAsciiWord c || c == ',' || isBlank c

/-- The words that open a directive. -/
def directiveOpening : Text := "\x7b@platform".toList

/-- The id list of the directive that the text begins with, and what follows the directive. -/
def directiveAt? (s : Text) : Option (Text × Text) :=
  match afterPart? directiveOpening s with
  | some (blank :: afterBlank) =>
    -- one blank has to follow the opening, and more may
    let list := afterBlank.dropWhile isBlank
    let ids := list.takeWhile inIdList
    match list.head?, list.dropWhile inIdList with
    | some first, '\x7d' :: rest =>
      if isBlank blank && startsIdList first then some (ids, rest) else none
    | _, _ => none
  | _ => none

/-- What follows a directive is shorter than the text that begins with it. -/
theorem length_lt_of_directiveAt? {s ids rest : Text} (h : directiveAt? s = some (ids, rest)) :
    rest.length < s.length := by
  unfold directiveAt? at h
  split at h
  · next blank afterBlank hs =>
    -- the opening and one blank are read in any case
    have hlen : s.length = directiveOpening.length + (afterBlank.length + 1) := by
      rw [eq_append_of_afterPart? hs]; simp
    dsimp only at h
    split at h
    · next first tail _ htail =>
      split at h
      · cases h
        -- each further step only drops characters
        have h1 : (List.dropWhile inIdList (afterBlank.dropWhile isBlank)).length
            ≤ (afterBlank.dropWhile isBlank).length := (List.dropWhile_sublist _).length_le
        have h2 : (afterBlank.dropWhile isBlank).length ≤ afterBlank.length :=
          (List.dropWhile_sublist _).length_le
        rw [htail] at h1
        simp only [List.length_cons] at h1
        omega
      · cases h
    · cases h
  · cases h

/-! ## All directives of a text -/

/-- A text cut at its directives: what stands before the first, and for each directive its id list
and the text up to the next directive. -/
structure Cut where
  before : Text
  pieces : List (Text × Text)
deriving DecidableEq, Repr

/-- One more character in front of a cut text. -/
def Cut.push (c : Char) (cut : Cut) : Cut := { cut with before := c :: cut.before }

/-- One more directive in front of a cut text. -/
def Cut.mark (ids : Text) (cut : Cut) : Cut := ⟨[], (ids, cut.before) :: cut.pieces⟩

/-- The text cut at its directives, leftmost first and without overlap. -/
def cutDirectives (s : Text) : Cut :=
  match _h : directiveAt? s with
  | some (ids, rest) => (cutDirectives rest).mark ids
  | none =>
    match s with
    | [] => ⟨[], []⟩
    | c :: rest => (cutDirectives rest).push c
termination_by s.length
decreasing_by
  · exact length_lt_of_directiveAt? _h
  · simp

/-- Where a text begins with a directive, the cut begins with it. -/
theorem cutDirectives_of_some {s ids rest : Text} (h : directiveAt? s = some (ids, rest)) :
    cutDirectives s = (cutDirectives rest).mark ids := by
  rw [cutDirectives]
  split
  · next ids' rest' h' => rw [h] at h'; cases h'; rfl
  · next h' => rw [h] at h'; cases h'

/-- Where a text does not begin with a directive, its first character belongs to the gap. -/
theorem cutDirectives_of_none {c : Char} {rest : Text} (h : directiveAt? (c :: rest) = none) :
    cutDirectives (c :: rest) = (cutDirectives rest).push c := by
  rw [cutDirectives]
  split
  · next h' => rw [h] at h'; cases h'
  · rfl

@[simp] theorem cutDirectives_nil : cutDirectives [] = ⟨[], []⟩ := by
  rw [cutDirectives]; rfl

/-- Punctuation that must not have a space in front of it. -/
def hugsLeft (c : Char) : Bool :=
  c == '.' || c == ',' || c == ';' || c == ':' || c == '!' || c == '?' || c == ')'

/-- Whether the text ends in a space or tab. -/
def endsIndented (s : Text) : Bool := (s.getLast?.map isIndent).getD false

/-- Whether the text begins with punctuation that belongs to the word before. -/
def beginsHugging (s : Text) : Bool := (s.head?.map hugsLeft).getD false

/-- The text so far and the gap after a removed directive, put together: no space before
punctuation, and not a second space where there is one. -/
def closeGap (before gap : Text) : Text :=
  -- the space before the directive goes where punctuation follows it
  if beginsHugging gap then dropEndWhile isIndent before ++ gap
  -- the space after the directive goes where there is one before it, or nothing at all
  else if before.isEmpty || endsIndented before then before ++ gap.dropWhile isIndent
  else before ++ gap

/-- The text of a cut without its directives. -/
def Cut.text (cut : Cut) : Text := (cut.pieces.map Prod.snd).foldl closeGap cut.before

/-- The ids that the directives of a cut name, in order. -/
def Cut.ids (cut : Cut) : List Text := (cut.pieces.map Prod.fst).flatMap splitIds

/-- The text without its directives, and the ids that they name. -/
def stripDirectives (s : Text) : Text × List Text :=
  let cut := cutDirectives s
  (cut.text, cut.ids)

/-- The notice for text that still looks like a directive after all directives are gone. -/
def brokenDirectives (stripped : Text) : List Notice :=
  if occurs "\x7b@".toList stripped then [.brokenDirective stripped] else []

/-! ## Leading directives -/

/-- What is left of a line after the directives that it begins with and the blanks after each. -/
def afterLeading (s : Text) : Text :=
  match _h : directiveAt? s with
  | some (_, rest) => afterLeading (trimStart rest)
  | none => s
termination_by s.length
decreasing_by
  exact Nat.lt_of_le_of_lt (List.dropWhile_sublist _).length_le (length_lt_of_directiveAt? _h)

/-- The directives that a line begins with, without trailing blanks, and the rest of the line. -/
def splitLeading (s : Text) : Text × Text :=
  let rest := afterLeading s
  (trimEnd (s.take (s.length - rest.length)), rest)

end ComponentPages
