import ComponentPages.Text.Basic

/-!
# Top-level parts of an expression

An expression is split at a separator only where the separator stands outside quotes and brackets.

- **`Nesting`** — what is open at a place of the text.
- **`Nesting.next`** — one more character.
- **`splitTopLevel`** — the parts between the separators at the top level.
-/

namespace ComponentPages

/-- What is open at a place: how many brackets, and which quote. -/
structure Nesting where
  depth : Nat
  quote : Option Char
  /-- Whether the last character was a backslash. -/
  escaped : Bool
deriving DecidableEq, Repr

namespace Nesting

/-- At the beginning nothing is open. -/
def top : Nesting := ⟨0, none, false⟩

/-- The three quotation marks. -/
def isQuotationMark (c : Char) : Bool := c == '\'' || c == '"' || c == backtick

/-- The brackets that open. -/
def opens (c : Char) : Bool := c == '(' || c == '[' || c == '\x7b'

/-- The brackets that close. -/
def closes (c : Char) : Bool := c == ')' || c == ']' || c == '\x7d'

/-- What is open after one more character. A quote ends with the same mark, unless a backslash
stands right before it; a closing bracket too many is ignored. -/
def next (n : Nesting) (c : Char) : Nesting :=
  match n.quote with
  -- inside quotes brackets mean nothing
  | some q => ⟨n.depth, if c = q ∧ !n.escaped then none else some q, c == '\\'⟩
  | none =>
    if isQuotationMark c then ⟨n.depth, some c, c == '\\'⟩
    else if opens c then ⟨n.depth + 1, none, c == '\\'⟩
    -- the depth stays at zero where there is nothing to close
    else if closes c then ⟨n.depth - 1, none, c == '\\'⟩
    else ⟨n.depth, none, c == '\\'⟩

/-- What is open after more text. -/
def run (n : Nesting) (s : Text) : Nesting := s.foldl next n

/-- Whether nothing is open. -/
def isTop (n : Nesting) : Bool := n.depth == 0 && n.quote.isNone

/-- Whether a character can have a meaning of its own for what is open. -/
def isMark (c : Char) : Bool := isQuotationMark c || opens c || closes c

/-- Whether a separator splits the text here. -/
def splitsAt (n : Nesting) (sep c : Char) : Bool := c == sep && n.isTop && !isMark c

end Nesting

/-- A character in front of the first part. -/
def pushFirst (c : Char) : List Text → List Text
  | [] => [[c]]
  | part :: parts => (c :: part) :: parts

/-- The parts of a text between the separators at the top level, given what is open before it. -/
def splitFrom (sep : Char) (n : Nesting) : Text → List Text
  | [] => [[]]
  | c :: rest =>
    if n.splitsAt sep c then [] :: splitFrom sep (n.next c) rest
    else pushFirst c (splitFrom sep (n.next c) rest)

/-- The parts of a text between the separators at the top level. -/
def splitTopLevel (sep : Char) (s : Text) : List Text := splitFrom sep .top s

/-- There is always a first part. -/
theorem splitFrom_ne_nil (sep : Char) (n : Nesting) (s : Text) : splitFrom sep n s ≠ [] := by
  cases s with
  | nil => simp [splitFrom]
  | cons c rest =>
    rw [splitFrom]
    split
    · simp
    · cases splitFrom sep (n.next c) rest <;> simp [pushFirst]

end ComponentPages
