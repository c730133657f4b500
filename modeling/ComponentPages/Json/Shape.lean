import ComponentPages.Json.Value

/-!
# Shapes

The shape that a JSON value is expected to have, and two ways to find out whether it has it. A value
that has been read already is taken apart by its record. A text can also be read with the shape in
mind: then the first fault in the order of the text decides, and what the shape does not mention is
only passed over.

- **`Shape`**, **`Field`**, **`Schema`** — the shapes of texts, flags, lists, tables and records.
- **`splitRecord?`** — the fields of a record that has been read.
- **`readShape`** — a value of a shape.
- **`Schema.parse`** — a whole text as a value of a shape.

A record is written as an object of its fields, where unknown names mean nothing and a known name
comes once, or as an array of its fields in order, where fields at the end may be left out.
-/

namespace ComponentPages

/-- The shape of a value, with records by their names in `ρ`. -/
inductive Shape (ρ : Type) where
  | text
  | flag
  | list (item : Shape ρ)
  | table (value : Shape ρ)
  | record (name : ρ)
deriving Repr

/-- Whether a field can be missing. -/
inductive Presence where
  /-- The field has to be there. -/
  | required
  /-- The field has a default value. -/
  | defaulted
  /-- The field may be missing or null. -/
  | nullable
deriving DecidableEq, Repr

/-- A field of a record. -/
structure Field (ρ : Type) where
  name : Text
  shape : Shape ρ
  presence : Presence

/-- The fields of each record, in order. -/
abbrev Schema (ρ : Type) := ρ → List (Field ρ)

variable {ρ : Type}

/-! ## Records that have been read -/

/-- What a field holds: nothing where it is missing, or null where that means missing; refused
where it has to be there. -/
def Field.content? (f : Field ρ) (value : Option Json) : Option (Option Json) :=
  match f.presence, value with
  | .required, none => none
  | .nullable, some .null => some none
  | _, value => some value

/-- The values under a name in an object. -/
def membersNamed (members : List (Text × Json)) (name : Text) : List Json :=
  (members.filter fun (k, _) => k = name).map Prod.snd

/-- The contents of the fields of a record, in order, if the value is the record. -/
def splitRecord? (fields : List (Field ρ)) : Json → Option (List (Option Json))
  | .array items =>
    if items.length ≤ fields.length then
      (fields.zip (items.map some ++ List.replicate (fields.length - items.length) none)).mapM
        fun (f, value) => f.content? value
    else none
  | .object members =>
    fields.mapM fun f =>
      match membersNamed members f.name with
      | [] => f.content? none
      | [value] => f.content? (some value)
      | _ => none
  | _ => none

/-! ## Reading with a shape -/

/-- The fault of a value that has another shape: its own, where it has one. -/
def wrongShape (s : Text) : Fault :=
  let scalar {α : Type} (result : Except Fault α) : Fault :=
    match result with
    | .error e => e
    | .ok _ => .mismatched
  match s with
  | [] => .unfinished
  | 'n' :: r => scalar (readWord "ull".toList r)
  | 't' :: r => scalar (readWord "rue".toList r)
  | 'f' :: r => scalar (readWord "alse".toList r)
  | '"' :: r => scalar (readString .strict r)
  | '[' :: _ => .mismatched
  | '\x7b' :: _ => .mismatched
  | c :: r =>
    if c = '-' || c.isDigit then scalar (readNumber .strict (c :: r)) else .malformed

/-- A null where one is allowed, and else the value. -/
def readNullable (value : Reader Json) : Reader Json := fun s =>
  match h : skipSpace s with
  | 'n' :: r =>
    (readWord "ull".toList r).map fun t =>
      ⟨.null, t.1, Nat.lt_of_le_of_lt t.2 (length_of_skipSpace h)⟩
  | _ => value s

/-- The value of a field. -/
def readField (value : Shape ρ → Reader Json) (f : Field ρ) : Reader Json :=
  match f.presence with
  | .nullable => readNullable (value f.shape)
  | _ => value f.shape

/-- The end of an array. -/
def readArrayEnd : Reader Unit := fun s =>
  match h : skipSpace s with
  | [] => .error .unfinished
  | ']' :: _ => .ok (Read.past () h)
  | _ :: _ => .error .malformed

/-- Whether a record may end before these fields. -/
def canOmit (fields : List (Field ρ)) : Bool := fields.all fun f => f.presence != .required

/-- The fields of a record that is written as an array, after the fields before them. -/
def readMorePositions (value : Field ρ → Reader Json) :
    (fields : List (Field ρ)) → Reader (List Json)
  | [] => fun s => (readArrayEnd s).map (·.map fun _ => [])
  | f :: fields => fun s =>
    match h : skipSpace s with
    | [] => .error .unfinished
    | ']' :: _ =>
      if canOmit (f :: fields) then .ok (Read.past [] h) else .error .mismatched
    | ',' :: r =>
      match h' : skipSpace r with
      | [] => .error .unfinished
      | ']' :: _ => .error .malformed
      | c :: r' =>
        match value f (c :: r') with
        | .error e => .error e
        | .ok first =>
          have hr : first.rest.length < s.length := by
            have h1 := length_of_skipSpace h
            have h2 := length_skipSpace_le r
            have h3 := first.shorter
            rw [h'] at h2
            omega
          match readMorePositions value fields first.rest with
          | .error e => .error e
          | .ok more => .ok ⟨first.value :: more.value, more.rest, Nat.lt_trans more.shorter hr⟩
    | _ :: _ => .error .malformed

/-- The fields of a record that is written as an array, after the bracket that opens it. -/
def readPositions (value : Field ρ → Reader Json) (fields : List (Field ρ)) :
    Reader (List Json) := fun s =>
  match fields with
  | [] => (readArrayEnd s).map (·.map fun _ => [])
  | f :: fields =>
    match h : skipSpace s with
    | [] => .error .unfinished
    | ']' :: _ =>
      if canOmit (f :: fields) then .ok (Read.past [] h) else .error .mismatched
    | c :: r =>
      match value f (c :: r) with
      | .error e => .error e
      | .ok first =>
        have hr : first.rest.length < s.length := by
          have h2 := length_skipSpace_le s
          have h3 := first.shorter
          rw [h] at h2
          omega
        match readMorePositions value fields first.rest with
        | .error e => .error e
        | .ok more => .ok ⟨first.value :: more.value, more.rest, Nat.lt_trans more.shorter hr⟩

/-- A member of a record that is written as an object, after the quotation mark that opens its
name. A field must not come twice; other names are passed over with their values. -/
def readNamed (value : Field ρ → Reader Json) (fields : List (Field ρ))
    (before : List (Option (Text × Json))) : Reader (Option (Text × Json)) := fun s =>
  match readString .strict s with
  | .error e => .error e
  | .ok name =>
    let rest (read : Reader (Option (Text × Json))) :
        Except Fault (Read (Option (Text × Json)) s) :=
      match readColon name.rest with
      | .error e => .error e
      | .ok r =>
        (read r.1).map (·.widen (Nat.le_of_lt (Nat.lt_trans r.2 name.shorter)))
    match fields.find? fun f => f.name = name.value with
    | none => rest fun s => (passValue s).map (·.map fun _ => none)
    | some f =>
      -- a repeated field is refused before its value is looked at
      if before.any fun m => (m.map Prod.fst) == some name.value then .error .mismatched
      else rest fun s => (value f s).map (·.map fun v => some (name.value, v))

/-- A record after the brace that opens it. -/
def readNamedFields (value : Field ρ → Reader Json) (fields : List (Field ρ)) :
    Reader (List (Text × Json)) := fun s =>
  match readMembers (readNamed value fields) s with
  | .error e => .error e
  | .ok r =>
    let members := r.value.filterMap id
    if canOmit (fields.filter fun f => !(keysOf members).contains f.name) then
      .ok (r.map fun _ => members)
    else .error .mismatched

/-- A value of a shape, given how to read what an array or an object holds; nothing is given where
it would be nested too deep. -/
def readShapeWith (schema : Schema ρ) (inner? : Option (Shape ρ → Reader Json)) :
    Shape ρ → Reader Json := fun shape s =>
  match h : skipSpace s with
  | [] => .error .unfinished
  | c :: r =>
    have hr : r.length ≤ s.length := Nat.le_of_lt (length_of_skipSpace h)
    let nested (read : (Shape ρ → Reader Json) → Except Fault (Read Json r)) :
        Except Fault (Read Json s) :=
      match inner? with
      | none => .error .malformed
      | some inner => (read inner).map (·.widen hr)
    match shape, c with
    | .text, '"' => (readString .strict r).map fun t => (t.map Json.string).widen hr
    | .flag, 't' =>
      (readWord "rue".toList r).map fun t =>
        ⟨.bool true, t.1, Nat.lt_of_le_of_lt t.2 (length_of_skipSpace h)⟩
    | .flag, 'f' =>
      (readWord "alse".toList r).map fun t =>
        ⟨.bool false, t.1, Nat.lt_of_le_of_lt t.2 (length_of_skipSpace h)⟩
    | .list item, '[' =>
      nested fun inner => (readItems (inner item) r).map (·.map Json.array)
    | .table value, '\x7b' =>
      nested fun inner =>
        (readMembers (fun _ => readMember (readString .strict) (inner value)) r).map
          (·.map Json.object)
    | .record name, '[' =>
      nested fun inner =>
        (readPositions (readField inner) (schema name) r).map (·.map Json.array)
    | .record name, '\x7b' =>
      nested fun inner =>
        (readNamedFields (readField inner) (schema name) r).map (·.map Json.object)
    | _, c => .error (wrongShape (c :: r))

/-- A value of a shape with at most `depth` levels of arrays and objects. -/
def readShape (schema : Schema ρ) : (depth : Nat) → Shape ρ → Reader Json
  | 0 => readShapeWith schema none
  | depth + 1 => readShapeWith schema (some (readShape schema depth))

/-- The value of a shape that a whole text writes. -/
def Schema.parse (schema : Schema ρ) (shape : Shape ρ) (s : Text) : Except Fault Json := do
  let r ← readShape schema maxDepth shape s
  afterValue r.rest
  return r.value

end ComponentPages
