import ComponentPages.Json.Basic
import ComponentPages.Number.Shortest

/-!
# Writing JSON

- **`Json.compact`** — a value on one line, the members of objects sorted by their keys.
- **`Json.pretty`** — a value on several lines, the members of objects in order.
-/

namespace ComponentPages

/-! ## Strings -/

/-- A hexadecimal digit. -/
def hexDigit (n : Nat) : Char := Char.ofNat (if n < 10 then '0'.toNat + n else 'a'.toNat + (n - 10))

/-- A character inside a string: quotation marks, backslashes and control characters are escaped. -/
def escapeChar (c : Char) : Text :=
  if c = '"' then "\\\"".toList
  else if c = '\\' then "\\\\".toList
  else if c = '\x08' then "\\b".toList
  else if c = '\x0c' then "\\f".toList
  else if c = '\n' then "\\n".toList
  else if c = '\r' then "\\r".toList
  else if c = '\t' then "\\t".toList
  else if c.toNat < 0x20 then "\\u00".toList ++ [hexDigit (c.toNat / 16), hexDigit (c.toNat % 16)]
  else [c]

/-- A text in quotation marks. -/
def quoted (s : Text) : Text := '"' :: s.flatMap escapeChar ++ ['"']

/-! ## Numbers -/

/-- A whole number. -/
def wholeText (n : Int) : Text := (toString n).toList

/-- The greatest number of places before the point in positional writing. -/
def maxPlaces : Int := 16

/-- Numbers below `10 ^ (minPlaces)` are written with an exponent. -/
def minPlaces : Int := -5

/-- A decimal: positional with at least one digit after the point where it is neither too large nor
too small, and else with an exponent. -/
def Decimal.text (d : Decimal) : Text :=
  let ds := Nat.toDigits 10 d.digits
  let places : Int := ds.length + d.exponent
  -- a whole number
  if 0 ≤ d.exponent ∧ places ≤ maxPlaces then
    ds ++ List.replicate d.exponent.toNat '0' ++ ".0".toList
  -- a point among the digits
  else if 0 < places ∧ places ≤ maxPlaces then
    ds.take places.toNat ++ '.' :: ds.drop places.toNat
  -- zeros between the point and the digits
  else if minPlaces < places ∧ places ≤ 0 then
    "0.".toList ++ List.replicate (-places).toNat '0' ++ ds
  else
    -- one digit before the point, and an exponent
    let fraction := if ds.length ≤ 1 then [] else '.' :: ds.drop 1
    let power := places - 1
    ds.take 1 ++ fraction ++ (if power < 0 then "e".toList else "e+".toList) ++ wholeText power

/-- A number: whole numbers as they are, doubles by their shortest decimal. -/
def JsonNumber.text : JsonNumber → Text
  | .whole n => wholeText n
  | .real negative magnitude => (if negative then ['-'] else []) ++ magnitude.shortest.text

namespace Json

/-! ## One line -/

/-- Entries sorted by their keys, the last of equal keys alone. -/
def sortMembers {α : Type} (members : List (Text × α)) : List (Text × α) :=
  (OrderedMap.ofList members).entries.mergeSort fun a b => textLE a.1 b.1

mutual

/-- A value on one line. -/
def compact : Json → Text
  | null => "null".toList
  | bool b => if b then "true".toList else "false".toList
  | number n => n.text
  | string s => quoted s
  | array items => '[' :: joinWith [','] (compactItems items) ++ [']']
  | object members =>
    '\x7b' :: joinWith [','] ((sortMembers (compactMembers members)).map fun m =>
      quoted m.1 ++ ':' :: m.2) ++ ['\x7d']

/-- The items of an array. -/
def compactItems : List Json → List Text
  | [] => []
  | v :: vs => compact v :: compactItems vs

/-- The members of an object with their values written. -/
def compactMembers : List (Text × Json) → List (Text × Text)
  | [] => []
  | (k, v) :: ms => (k, compact v) :: compactMembers ms

end

/-! ## Several lines -/

/-- A new line at a level of indentation, two spaces a level. -/
def newLine (level : Nat) : Text := '\n' :: List.replicate (2 * level) ' '

/-- Written parts between brackets, each on a line of its own; nothing between them if there are
none. -/
def bracketed (opening closing : Char) (level : Nat) (parts : List Text) : Text :=
  if parts.isEmpty then [opening, closing]
  else
    opening :: newLine (level + 1) ++ joinWith (',' :: newLine (level + 1)) parts ++
      newLine level ++ [closing]

mutual

/-- A value that begins at a level of indentation. -/
def prettyAt (level : Nat) : Json → Text
  | array items => bracketed '[' ']' level (prettyItems (level + 1) items)
  | object members => bracketed '\x7b' '\x7d' level (prettyMembers (level + 1) members)
  | null => "null".toList
  | bool b => if b then "true".toList else "false".toList
  | number n => n.text
  | string s => quoted s

/-- The items of an array. -/
def prettyItems (level : Nat) : List Json → List Text
  | [] => []
  | v :: vs => prettyAt level v :: prettyItems level vs

/-- The members of an object. -/
def prettyMembers (level : Nat) : List (Text × Json) → List Text
  | [] => []
  | (k, v) :: ms => (quoted k ++ ": ".toList ++ prettyAt level v) :: prettyMembers level ms

end

/-- A value on several lines. -/
def pretty (v : Json) : Text := prettyAt 0 v

end Json

end ComponentPages
