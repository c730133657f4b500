import ComponentPages.Json.Basic

/-!
# Readers

A reader takes a part off the front of a text. Whatever it reads, it leaves less text than there
was, so that reading again and again comes to an end.

- **`Read`**, **`Reader`** — a result with the rest of the text; a reader.
- **`Rest`** — what is left after a part that may be missing.
- **`skipSpace`** — the text without the white space that JSON allows in front.
- **`readItems`**, **`readMembers`** — the parts of an array and of an object after its bracket.
-/

namespace ComponentPages

variable {α β : Type}

/-- A value read off the front of `s`, with the rest of the text. -/
structure Read (α : Type) (s : Text) where
  value : α
  rest : Text
  /-- Something was read. -/
  shorter : rest.length < s.length

/-- Takes a value off the front of a text. -/
abbrev Reader (α : Type) := (s : Text) → Except Fault (Read α s)

namespace Read

/-- A result for a text is one for any text that is at least as long. -/
def widen {s t : Text} (h : s.length ≤ t.length) (r : Read α s) : Read α t :=
  ⟨r.value, r.rest, Nat.lt_of_lt_of_le r.shorter h⟩

/-- The same rest with another value. -/
def map {s : Text} (f : α → β) (r : Read α s) : Read β s := ⟨f r.value, r.rest, r.shorter⟩

end Read

/-! ## White space -/

/-- White space between the parts of JSON text. -/
def isJsonSpace (c : Char) : Bool := c == ' ' || c == '\n' || c == '\t' || c == '\r'

/-- The text without leading white space. -/
def skipSpace (s : Text) : Text := s.dropWhile isJsonSpace

theorem length_skipSpace_le (s : Text) : (skipSpace s).length ≤ s.length :=
  (List.dropWhile_sublist _).length_le

/-- Skipped space leaves room for the first character after it. -/
theorem length_of_skipSpace {s r : Text} {c : Char} (h : skipSpace s = c :: r) :
    r.length < s.length := by
  have := length_skipSpace_le s
  rw [h] at this
  exact this

/-- A value that ends with the first character after the white space. -/
def Read.past {s r : Text} {c : Char} (v : α) (h : skipSpace s = c :: r) : Read α s :=
  ⟨v, r, length_of_skipSpace h⟩

/-- A part that may be missing leaves no more text than there was. -/
abbrev Rest (s : Text) := { r : Text // r.length ≤ s.length }

/-- The part is missing: all of the text is left. -/
def Rest.whole (s : Text) : Rest s := ⟨s, Nat.le_refl _⟩

/-- What is left of a text is left of it with one more character in front. -/
def Rest.behind {s : Text} (c : Char) (r : Rest s) : Rest (c :: s) :=
  ⟨r.1, Nat.le_succ_of_le r.2⟩

/-- The text after a word that it has to begin with. -/
def readWord : (word s : Text) → Except Fault (Rest s)
  | [], s => .ok (Rest.whole s)
  | _ :: _, [] => .error .unfinished
  | c :: word, d :: s =>
    if c = d then (readWord word s).map (Rest.behind d)
    else .error .malformed

/-- The text after a colon and the space before it. -/
def readColon (s : Text) : Except Fault { r : Text // r.length < s.length } :=
  match h : skipSpace s with
  | [] => .error .unfinished
  | c :: r => if c = ':' then .ok ⟨r, length_of_skipSpace h⟩ else .error .malformed

/-! ## Arrays -/

/-- The items of an array after its first, up to the bracket that closes it. -/
def readMoreItems (item : Reader α) (s : Text) : Except Fault (Read (List α) s) :=
  match h : skipSpace s with
  | [] => .error .unfinished
  | ']' :: _ => .ok (Read.past [] h)
  | ',' :: r =>
    match h' : skipSpace r with
    | [] => .error .unfinished
    -- an item has to follow a comma
    | ']' :: _ => .error .malformed
    | c :: r' =>
      match item (c :: r') with
      | .error e => .error e
      | .ok first =>
        have hr : first.rest.length < s.length := by
          have h1 := length_of_skipSpace h
          have h2 := length_skipSpace_le r
          have h3 := first.shorter
          rw [h'] at h2
          omega
        match readMoreItems item first.rest with
        | .error e => .error e
        | .ok more => .ok ⟨first.value :: more.value, more.rest, Nat.lt_trans more.shorter hr⟩
  | _ :: _ => .error .malformed
termination_by s.length

/-- The items of an array after the bracket that opens it. -/
def readItems (item : Reader α) (s : Text) : Except Fault (Read (List α) s) :=
  match h : skipSpace s with
  | [] => .error .unfinished
  | ']' :: _ => .ok (Read.past [] h)
  | c :: r =>
    match item (c :: r) with
    | .error e => .error e
    | .ok first =>
      have hr : first.rest.length < s.length := by
        have h2 := length_skipSpace_le s
        have h3 := first.shorter
        rw [h] at h2
        omega
      match readMoreItems item first.rest with
      | .error e => .error e
      | .ok more => .ok ⟨first.value :: more.value, more.rest, Nat.lt_trans more.shorter hr⟩

/-! ## Objects -/

/-- A member after the quotation mark that opens its key. -/
def readMember (key : Reader Text) (value : Reader α) : Reader (Text × α) := fun s =>
  match key s with
  | .error e => .error e
  | .ok k =>
    match readColon k.rest with
    | .error e => .error e
    | .ok r =>
      match value r.1 with
      | .error e => .error e
      | .ok v =>
        .ok ⟨(k.value, v.value), v.rest, by
          have h1 := k.shorter
          have h2 := r.2
          have h3 := v.shorter
          omega⟩

/-- The members of an object after those already read, the last of them first, up to the brace
that closes it. A member may depend on those before it. -/
def readMoreMembers (member : List α → Reader α) (before : List α) (s : Text) :
    Except Fault (Read (List α) s) :=
  match h : skipSpace s with
  | [] => .error .unfinished
  | '\x7d' :: _ => .ok (Read.past [] h)
  | ',' :: r =>
    match h' : skipSpace r with
    | [] => .error .unfinished
    | '"' :: r' =>
      match member before r' with
      | .error e => .error e
      | .ok next =>
        have hr : next.rest.length < s.length := by
          have h1 := length_of_skipSpace h
          have h2 := length_of_skipSpace h'
          have h3 := next.shorter
          omega
        match readMoreMembers member (next.value :: before) next.rest with
        | .error e => .error e
        | .ok more => .ok ⟨next.value :: more.value, more.rest, Nat.lt_trans more.shorter hr⟩
    | _ :: _ => .error .malformed
  | _ :: _ => .error .malformed
termination_by s.length

/-- The members of an object after the brace that opens it. -/
def readMembers (member : List α → Reader α) (s : Text) : Except Fault (Read (List α) s) :=
  match h : skipSpace s with
  | [] => .error .unfinished
  | '\x7d' :: _ => .ok (Read.past [] h)
  | '"' :: r =>
    match member [] r with
    | .error e => .error e
    | .ok first =>
      have hr : first.rest.length < s.length := by
        have h1 := length_of_skipSpace h
        have h3 := first.shorter
        omega
      match readMoreMembers member [first.value] first.rest with
      | .error e => .error e
      | .ok more => .ok ⟨first.value :: more.value, more.rest, Nat.lt_trans more.shorter hr⟩
  | _ :: _ => .error .malformed

end ComponentPages
