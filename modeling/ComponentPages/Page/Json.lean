import ComponentPages.Json.Printer
import ComponentPages.Page.Basic

/-!
# Pages as JSON

Everything a page is made of, as one JSON value with its fields in a fixed order.

- **`PageDoc.toJson`** — the value of a page.
- **`PageDoc.renderJson`** — its text.
-/

namespace ComponentPages

/-- A text. -/
def jsonText (s : Text) : Json := .string s

/-- A text that may be missing. -/
def jsonOptional (s : Option Text) : Json :=
  match s with
  | some s => .string s
  | none => .null

/-- A list of texts. -/
def jsonTexts (ss : List Text) : Json := .array (ss.map .string)

/-- An object with its fields in order. -/
def jsonRecord (fields : List (String × Json)) : Json :=
  .object (fields.map fun f => (f.1.toList, f.2))

/-- An example. -/
def Example.toJson (e : Example) : Json :=
  jsonRecord [("language", jsonText e.language), ("intro", jsonText e.intro),
    ("raw", jsonText e.raw), ("code", jsonText e.code)]

/-- A description. -/
def Description.toJson (d : Description) : Json :=
  jsonRecord [("text", jsonText d.text), ("examples", .array (d.examples.map Example.toJson)),
    ("footer", jsonText d.footer)]

/-- A tag value with its platforms. -/
def PlatformValue.toJson (v : PlatformValue) : Json :=
  jsonRecord [("value", jsonText v.value), ("platforms", jsonTexts v.platforms)]

/-- The tags of a description. -/
def TagSet.toJson (t : TagSet) : Json :=
  jsonRecord [("platform", jsonTexts t.platform),
    ("default", .array (t.default.map PlatformValue.toJson)),
    ("type_overrides", .array (t.typeOverrides.map PlatformValue.toJson))]

namespace TypeDescriptor

mutual

/-- A type, marked with the name of its form. -/
def toJson : TypeDescriptor → Json
  | primitive name raw =>
    jsonRecord [("type", jsonText "primitive".toList), ("name", jsonText name),
      ("raw", jsonOptional raw)]
  | named name raw =>
    jsonRecord [("type", jsonText "alias".toList), ("name", jsonText name),
      ("raw", jsonOptional raw)]
  | union elements raw =>
    jsonRecord [("type", jsonText "union".toList), ("elements", .array (listToJson elements)),
      ("raw", jsonOptional raw)]
  | readOnlyArray element raw =>
    jsonRecord [("type", jsonText "readOnlyArray".toList),
      ("element",
        match element with
        | some d => toJson d
        | none => .null),
      ("raw", jsonOptional raw)]
  | readOnlyObject element raw =>
    jsonRecord [("type", jsonText "readOnlyObject".toList),
      ("element",
        match element with
        | some d => toJson d
        | none => .null),
      ("raw", jsonOptional raw)]
  | signature kind raw properties =>
    jsonRecord [("type", jsonText "signature".toList), ("kind", jsonText kind),
      ("raw", jsonOptional raw), ("properties", .array (entriesToJson properties))]
  | literal value raw =>
    jsonRecord [("type", jsonText "literal".toList), ("value", jsonText value),
      ("raw", jsonOptional raw)]

/-- The types of a list. -/
def listToJson : List TypeDescriptor → List Json
  | [] => []
  | d :: ds => toJson d :: listToJson ds

/-- The entries of a signature. -/
def entriesToJson : List (Text × TypeDescriptor) → List Json
  | [] => []
  | (key, d) :: ds => jsonRecord [("key", jsonText key), ("value", toJson d)] :: entriesToJson ds

end

end TypeDescriptor

/-- A type that may be missing. -/
def jsonType (d : Option TypeDescriptor) : Json :=
  match d with
  | some d => d.toJson
  | none => .null

/-- A property. -/
def PropDoc.toJson (p : PropDoc) : Json :=
  jsonRecord [("name", jsonText p.name), ("required", .bool p.required),
    ("type_descriptor", jsonType p.type?), ("default_value", jsonOptional p.defaultValue),
    ("description", jsonText p.description), ("tags", p.tags.toJson)]

/-- A parameter. -/
def ParamDoc.toJson (p : ParamDoc) : Json :=
  jsonRecord [("name", jsonText p.name), ("type_descriptor", jsonType p.type?),
    ("optional", .bool p.optional), ("description", jsonOptional p.description)]

/-- A method. -/
def MethodDoc.toJson (m : MethodDoc) : Json :=
  jsonRecord [("name", jsonText m.name), ("params", .array (m.params.map ParamDoc.toJson)),
    ("modifiers", jsonTexts m.modifiers), ("description", jsonText m.description),
    ("tags", m.tags.toJson)]

/-- A component. -/
def ComponentDoc.toJson (c : ComponentDoc) : Json :=
  jsonRecord [("display_name", jsonText c.displayName), ("description", c.description.toJson),
    ("tags", c.tags.toJson),
    ("props", .object (c.props.entries.map fun e => (e.1, e.2.toJson))),
    ("methods", .array (c.methods.map MethodDoc.toJson)), ("composes", jsonTexts c.composes)]

/-- A page. -/
def PageDoc.toJson (p : PageDoc) : Json :=
  jsonRecord [("id", jsonText p.id), ("title", jsonText p.title),
    ("component", p.component.toJson)]

/-- The text of a page as JSON, with a line end after it. -/
def PageDoc.renderJson (p : PageDoc) : Text := p.toJson.pretty ++ ['\n']

end ComponentPages
