import ComponentPages.Json.Scalar

/-!
# Reading JSON

- **`readJson`** — a value of any shape, nested at most so deep.
- **`Json.parse`** — a whole text as one value.
- **`afterValue`** — nothing but white space may follow a value.
-/

namespace ComponentPages

/-- How deep arrays and objects may be nested. -/
def maxDepth : Nat := 127

/-- A value, given what to do with an array and an object after its bracket. -/
def readValueWith (mode : Strictness) (array object : Reader Json) : Reader Json := fun s =>
  match h : skipSpace s with
  | [] => .error .unfinished
  | c :: r =>
    have hr : (c :: r).length ≤ s.length := h ▸ length_skipSpace_le s
    let word (w : String) (v : Json) : Except Fault (Read Json s) :=
      (readWord w.toList r).map fun t => ⟨v, t.1, Nat.lt_of_le_of_lt t.2 hr⟩
    match c with
    | 'n' => word "ull" .null
    | 't' => word "rue" (.bool true)
    | 'f' => word "alse" (.bool false)
    | '"' => (readString mode r).map fun t => (t.map Json.string).widen (Nat.le_of_succ_le hr)
    | '[' => (array r).map (·.widen (Nat.le_of_succ_le hr))
    | '\x7b' => (object r).map (·.widen (Nat.le_of_succ_le hr))
    | d =>
      if d = '-' || d.isDigit then
        (readNumber mode (d :: r)).map fun t => (t.map Json.number).widen hr
      else .error .malformed

/-- A value of any shape with at most `depth` levels of arrays and objects. -/
def readJson (mode : Strictness) : (depth : Nat) → Reader Json
  | 0 => readValueWith mode (fun _ => .error .malformed) (fun _ => .error .malformed)
  | depth + 1 =>
    readValueWith mode
      (fun s => (readItems (readJson mode depth) s).map (·.map Json.array))
      (fun s =>
        (readMembers (fun _ => readMember (readString mode) (readJson mode depth)) s).map
          (·.map Json.object))

/-- A value that is only passed over: it may be nested to any depth. -/
def passValue : Reader Json := fun s => readJson .lenient s.length s

/-- Nothing but white space may follow the value. -/
def afterValue (rest : Text) : Except Fault Unit :=
  if (skipSpace rest).isEmpty then .ok () else .error .malformed

namespace Json

/-- The value at the front of a text, and the text that follows it. -/
def parseFront (s : Text) : Except Fault (Json × Text) :=
  (readJson .strict maxDepth s).map fun r => (r.value, r.rest)

/-- The value that a whole text writes. -/
def parse (s : Text) : Except Fault Json := do
  let (value, rest) ← parseFront s
  afterValue rest
  return value

end Json

end ComponentPages
