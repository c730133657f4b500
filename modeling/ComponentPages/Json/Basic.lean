import ComponentPages.Number.Binary64
import ComponentPages.OrderedMap

/-!
# JSON values

- **`Json`** — a value, with the members of an object in the order of the text.
- **`Fault`** — why a text is not the value that is asked for.
-/

namespace ComponentPages

/-- A number as it is kept: whole numbers of 64 bits exactly, all others as doubles. -/
inductive JsonNumber where
  /-- A whole number. -/
  | whole (n : Int)
  /-- A double and whether it has a minus sign. -/
  | real (negative : Bool) (magnitude : Binary64)
deriving DecidableEq, Repr

/-- A JSON value. -/
inductive Json where
  | null
  | bool (b : Bool)
  | number (n : JsonNumber)
  | string (s : Text)
  | array (items : List Json)
  | object (members : List (Text × Json))
deriving Inhabited, Repr

/-- Why a text cannot be read. -/
inductive Fault where
  /-- The text ends in the middle of a value. -/
  | unfinished
  /-- The text is not JSON, or something follows the value. -/
  | malformed
  /-- The text is JSON of the wrong shape. -/
  | mismatched
deriving DecidableEq, Repr

end ComponentPages
