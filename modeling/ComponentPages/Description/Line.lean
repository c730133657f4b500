import ComponentPages.Description.Directive

/-!
# Lines of a description

What a single line of a description is, before it is known where it stands.

- **`FenceOpening`**, **`fenceOpening?`** — a line that opens a code block.
- **`FenceOpening.closedBy`** — the lines that close it.
- **`blockTag?`** — a line that is a block tag, with its name and value.
- **`LineKind`**, **`Line`** — the reading of a line with its leading directives set apart.
-/

namespace ComponentPages

/-! ## Code fences -/

/-- The opening line of a code block. -/
structure FenceOpening where
  /-- The backtick or the tilde. -/
  marker : Char
  /-- How often the marker is written, three times or more. -/
  width : Nat
  /-- What follows the markers. -/
  language : Text
deriving DecidableEq, Repr

/-- Whether a character can make a fence. -/
def isFenceMarker (c : Char) : Bool := c == backtick || c == '~'

/-- The code block that a line opens: three or more of one marker and then the language. -/
def fenceOpening? (s : Text) : Option FenceOpening :=
  match s with
  | [] => none
  | c :: _ =>
    let width := (s.takeWhile (· == c)).length
    if isFenceMarker c && 3 ≤ width then
      some ⟨c, width, trim (s.dropWhile (· == c))⟩
    else none

/-- Whether a line closes the block: the marker alone, at least as often as in the opening. -/
def FenceOpening.closedBy (f : FenceOpening) (line : Text) : Bool :=
  let s := trim line
  f.width ≤ s.length && s.all (· == f.marker)

/-! ## Block tags -/

/-- A character of a tag name after the first. -/
def inTagName (c : Char) : Bool := isWordChar c || c == '-'

/-- The name and value of the block tag that a line is: the at sign, a name that begins with a
letter, and a value set off by blanks. -/
def blockTag? (s : Text) : Option (Text × Text) :=
  match s with
  | '@' :: c :: rest =>
    if c.isAlpha then
      match rest.dropWhile inTagName with
      -- the name is all there is
      | [] => some (c :: rest, [])
      -- a value has to be set off by a blank
      | d :: value =>
        if isBlank d then some (c :: rest.takeWhile inTagName, trim (d :: value)) else none
    else none
  | _ => none

/-! ## Lines -/

/-- What a line can be outside a code block. -/
inductive LineKind where
  /-- The line opens a code block. -/
  | fence (opening : FenceOpening)
  /-- The line is a block tag. -/
  | tag (name value : Text)
  /-- The line is blank. -/
  | blank
  /-- Anything else. -/
  | plain
deriving DecidableEq, Repr

/-- A line with the directives that it begins with. -/
structure Line where
  /-- The line as it is written. -/
  raw : Text
  /-- Its leading directives. -/
  directives : Text
  /-- What follows them, without blanks at the end. -/
  rest : Text
deriving DecidableEq, Repr

/-- A line with its leading directives set apart. -/
def Line.ofText (raw : Text) : Line :=
  let (directives, rest) := splitLeading (trim raw)
  ⟨raw, directives, rest⟩

/-- A line that goes on with an open tag, where directives are part of the value. -/
def Line.whole (raw : Text) : Line := ⟨raw, [], trim raw⟩

/-- What the line is: its leading directives do not hide a fence or a tag behind them. -/
def Line.kind (l : Line) : LineKind :=
  match fenceOpening? l.rest with
  | some opening => .fence opening
  | none =>
    match blockTag? l.rest with
    | some (name, value) => .tag name value
    | none => if isBlankText l.raw then .blank else .plain

end ComponentPages
