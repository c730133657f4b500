import ComponentPages.Metadata.Basic

/-!
# Type descriptors

A type as it is shown: one of seven forms, read from a type node by its name.

- **`TypeDescriptor`** — the forms.
- **`TypeDescriptor.ofNode?`** — the form of a type node; nothing, if the node has nothing to show.
- **`TypeDescriptor.fallbackText`** — the text that is shown where a form has no rule.
-/

namespace ComponentPages

/-- A type ready to be shown, each form with its source text where there is one. -/
inductive TypeDescriptor where
  /-- A built-in type. -/
  | primitive (name : Text) (raw : Option Text)
  /-- A named type. -/
  | named (name : Text) (raw : Option Text)
  /-- One of several types. -/
  | union (elements : List TypeDescriptor) (raw : Option Text)
  /-- An array, with the type of its elements where it is known. -/
  | readOnlyArray (element : Option TypeDescriptor) (raw : Option Text)
  /-- A read-only object, with the type that it wraps where it is known. -/
  | readOnlyObject (element : Option TypeDescriptor) (raw : Option Text)
  /-- A function or an object written out, with the entries of the object. -/
  | signature (kind : Text) (raw : Option Text) (properties : List (Text × TypeDescriptor))
  /-- A single value. -/
  | literal (value : Text) (raw : Option Text)
deriving Inhabited, Repr

/-- The names of the built-in types, in lower case. -/
def primitiveNames : List Text :=
  ["any", "bool", "boolean", "function", "mixed", "null", "number", "object", "string",
    "stringish", "symbol", "void"].map String.toList

/-- Whether a name is that of a built-in type, in any case of its letters. -/
def isPrimitiveName (name : Text) : Bool := primitiveNames.contains (asciiLower name)

namespace TypeDescriptor

/-- The trimmed text of a part, if it is there and not blank. -/
def present (part : Option Text) : Option Text := part.bind nonBlank?

mutual

/-- The form of a type node. A node without a name shows its source text; a node without either
shows nothing, and neither does a literal without value and source text. -/
def ofNode? : TypeNode → Option TypeDescriptor
  | .node name raw kind value elements object? =>
    match present name with
    | none => (present raw).map fun text => .named text (some text)
    | some name =>
      if name = "union".toList then some (.union (ofNodes elements) (present raw))
      else if name = "$ReadOnlyArray".toList ∨ name = "Array".toList then
        some (.readOnlyArray (ofFirst? elements) (present raw))
      else if name = "$ReadOnly".toList then
        some (.readOnlyObject (ofFirst? elements) (present raw))
      else if name = "signature".toList then
        some (.signature ((present kind).getD "signature".toList) (present raw)
          (match object? with
          | none => []
          | some entries => ofEntries entries))
      else if name = "literal".toList then
        ((present value).or (present raw)).map fun value => .literal value (present raw)
      else if isPrimitiveName name then some (.primitive name (present raw))
      else some (.named name (present raw))

/-- The forms of the nodes that have something to show. -/
def ofNodes : List TypeNode → List TypeDescriptor
  | [] => []
  | n :: ns =>
    match ofNode? n with
    | some d => d :: ofNodes ns
    | none => ofNodes ns

/-- The form of the first node. -/
def ofFirst? : List TypeNode → Option TypeDescriptor
  | [] => none
  | n :: _ => ofNode? n

/-- The entries whose types have something to show. -/
def ofEntries : List (Text × TypeNode) → List (Text × TypeDescriptor)
  | [] => []
  | (key, n) :: ns =>
    match ofNode? n with
    | some d => (key, d) :: ofEntries ns
    | none => ofEntries ns

end

/-- The form of a node, by its name. -/
theorem ofNode?_node (name raw kind value : Option Text) (elements : List TypeNode)
    (object? : Option (List (Text × TypeNode))) :
    ofNode? (.node name raw kind value elements object?) =
      match present name with
      | none => (present raw).map fun text => .named text (some text)
      | some name =>
        if name = "union".toList then some (.union (ofNodes elements) (present raw))
        else if name = "$ReadOnlyArray".toList ∨ name = "Array".toList then
          some (.readOnlyArray (ofFirst? elements) (present raw))
        else if name = "$ReadOnly".toList then
          some (.readOnlyObject (ofFirst? elements) (present raw))
        else if name = "signature".toList then
          some (.signature ((present kind).getD "signature".toList) (present raw)
            (match object? with
            | none => []
            | some entries => ofEntries entries))
        else if name = "literal".toList then
          ((present value).or (present raw)).map fun value => .literal value (present raw)
        else if isPrimitiveName name then some (.primitive name (present raw))
        else some (.named name (present raw)) := by
  cases object? <;> rfl

/-- The source text of a form. -/
def raw : TypeDescriptor → Option Text
  | primitive _ raw | named _ raw | union _ raw | readOnlyArray _ raw | readOnlyObject _ raw
  | signature _ raw _ | literal _ raw => raw

/-- The name of a form, for want of source text. -/
def bareName : TypeDescriptor → Text
  | primitive name _ | named name _ => name
  | union _ _ => "union".toList
  | readOnlyArray _ _ => "array".toList
  | readOnlyObject _ _ => "object".toList
  | signature kind _ _ => kind
  | literal value _ => value

/-- The source text, or else the name. -/
def fallbackText (d : TypeDescriptor) : Text := d.raw.getD d.bareName

end TypeDescriptor

end ComponentPages
