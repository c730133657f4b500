import ComponentPages.Config.Basic
import ComponentPages.Json.Shape
import ComponentPages.Metadata.Basic

/-!
# Metadata and configuration as JSON

- **`recordFields`** — the records of metadata and configuration files with their fields.
- **`TypeNode.parse`**, **`ConfigFile.parse`** — texts read with the shape in mind.
- **`Metadata.parsePages`** — a text as one page or a list of pages: the value is read first, then
  its shape is looked at, then what follows it.
-/

namespace ComponentPages

/-! ## Records -/

/-- The records of metadata and configuration files. -/
inductive RecordName where
  | page
  | component
  | property
  | defaultValue
  | method
  | parameter
  | typeNode
  | signature
  | entry
  | configFile
  | linkTarget
  | platformLabel
deriving DecidableEq, Repr

/-- A field that has to be there. -/
def requiredField (name : String) (shape : Shape RecordName) : Field RecordName :=
  ⟨name.toList, shape, .required⟩

/-- A field that has a default value. -/
def defaultedField (name : String) (shape : Shape RecordName) : Field RecordName :=
  ⟨name.toList, shape, .defaulted⟩

/-- A field that may be missing or null. -/
def nullableField (name : String) (shape : Shape RecordName) : Field RecordName :=
  ⟨name.toList, shape, .nullable⟩

/-- The fields of each record, in order. -/
def recordFields : Schema RecordName
  | .page =>
    [requiredField "id" .text, requiredField "title" .text,
      requiredField "component" (.record .component)]
  | .component =>
    [defaultedField "displayName" .text, nullableField "description" .text,
      defaultedField "props" (.table (.record .property)),
      defaultedField "methods" (.list (.record .method)),
      defaultedField "composes" (.list .text)]
  | .property =>
    [nullableField "flowType" (.record .typeNode), defaultedField "required" .flag,
      nullableField "description" .text, nullableField "defaultValue" (.record .defaultValue)]
  | .defaultValue => [defaultedField "value" .text, defaultedField "computed" .flag]
  | .method =>
    [defaultedField "name" .text, nullableField "description" .text,
      defaultedField "modifiers" (.list .text),
      defaultedField "params" (.list (.record .parameter))]
  | .parameter =>
    [defaultedField "name" .text, nullableField "type" (.record .typeNode),
      defaultedField "optional" .flag, nullableField "description" .text]
  | .typeNode =>
    [nullableField "name" .text, nullableField "raw" .text, nullableField "type" .text,
      nullableField "value" .text, defaultedField "elements" (.list (.record .typeNode)),
      nullableField "signature" (.record .signature)]
  | .signature => [defaultedField "properties" (.list (.record .entry))]
  | .entry => [requiredField "key" .text, requiredField "value" (.record .typeNode)]
  | .configFile =>
    [defaultedField "links" (.table (.record .linkTarget)),
      defaultedField "platforms" (.list (.record .platformLabel)),
      defaultedField "replace_builtin" .flag]
  | .linkTarget => [requiredField "text" .text, requiredField "url" .text]
  | .platformLabel =>
    [requiredField "id" .text, requiredField "label" .text, nullableField "class" .text]

/-- The contents of the fields of a record, in order. -/
def RecordName.split? (r : RecordName) (v : Json) : Option (List (Option Json)) :=
  splitRecord? (recordFields r) v

/-! ## Contents of fields -/

namespace Json

/-- A text. -/
def asText? : Json → Option Text
  | string s => some s
  | _ => none

/-- The items of an array, each read by `item`. -/
def asList? {α : Type} (item : Json → Option α) : Json → Option (List α)
  | array items => items.mapM item
  | _ => none

/-- The members of an object with their values read by `value`, in order; a key that comes again
keeps its place. -/
def asTable? {α : Type} (value : Json → Option α) : Json → Option (OrderedMap α)
  | object members =>
    (members.mapM fun m => (value m.2).map fun x => (m.1, x)).map OrderedMap.ofList
  | _ => none

/-- A flag. -/
def asFlag? : Json → Option Bool
  | bool b => some b
  | _ => none

end Json

/-- A field with its default value where it is missing. -/
def fieldOr {α : Type} (default : α) (read : Json → Option α) : Option Json → Option α
  | none => some default
  | some v => read v

/-- A field that may be missing. -/
def optionalField {α : Type} (read : Json → Option α) : Option Json → Option (Option α)
  | none => some none
  | some v => (read v).map some

/-! ## Types -/

/-- A type node, nested at most so deep. -/
def TypeNode.ofJson? : (depth : Nat) → Json → Option TypeNode
  | 0, _ => none
  | depth + 1, v =>
    match RecordName.typeNode.split? v with
    | some [name, raw, kind, value, elements, signature] => do
      return .node (← optionalField Json.asText? name) (← optionalField Json.asText? raw)
        (← optionalField Json.asText? kind) (← optionalField Json.asText? value)
        (← fieldOr [] (Json.asList? (ofJson? depth)) elements)
        (← optionalField (entriesOf? depth) signature)
    | _ => none
where
  /-- The entries of a signature. -/
  entriesOf? (depth : Nat) (v : Json) : Option (List (Text × TypeNode)) :=
    match RecordName.signature.split? v with
    | some [properties] => fieldOr [] (Json.asList? (oneOf? depth)) properties
    | _ => none
  /-- An entry of a signature. -/
  oneOf? (depth : Nat) (v : Json) : Option (Text × TypeNode) :=
    match RecordName.entry.split? v with
    | some [some key, some value] => do return (← key.asText?, ← ofJson? depth value)
    | _ => none

namespace Metadata

/-- A type node of any depth that a text can have. -/
def typeNode? : Json → Option TypeNode := TypeNode.ofJson? maxDepth

/-! ## Pages -/

/-- A default value. -/
def DefaultValue.ofJson? (v : Json) : Option DefaultValue :=
  match RecordName.defaultValue.split? v with
  | some [value, computed] => do
    return ⟨← fieldOr [] Json.asText? value, ← fieldOr false Json.asFlag? computed⟩
  | _ => none

/-- A property. -/
def Property.ofJson? (v : Json) : Option Property :=
  match RecordName.property.split? v with
  | some [type, required, description, defaultValue] => do
    return ⟨← optionalField typeNode? type, ← fieldOr false Json.asFlag? required,
      ← optionalField Json.asText? description, ← optionalField DefaultValue.ofJson? defaultValue⟩
  | _ => none

/-- A parameter. -/
def Parameter.ofJson? (v : Json) : Option Parameter :=
  match RecordName.parameter.split? v with
  | some [name, type, optional, description] => do
    return ⟨← fieldOr [] Json.asText? name, ← optionalField typeNode? type,
      ← fieldOr false Json.asFlag? optional, ← optionalField Json.asText? description⟩
  | _ => none

/-- A method. -/
def Method.ofJson? (v : Json) : Option Method :=
  match RecordName.method.split? v with
  | some [name, description, modifiers, params] => do
    return ⟨← fieldOr [] Json.asText? name, ← optionalField Json.asText? description,
      ← fieldOr [] (Json.asList? Json.asText?) modifiers,
      ← fieldOr [] (Json.asList? Parameter.ofJson?) params⟩
  | _ => none

/-- A component. -/
def Component.ofJson? (v : Json) : Option Component :=
  match RecordName.component.split? v with
  | some [displayName, description, props, methods, composes] => do
    return ⟨← fieldOr [] Json.asText? displayName, ← optionalField Json.asText? description,
      ← fieldOr .empty (Json.asTable? Property.ofJson?) props,
      ← fieldOr [] (Json.asList? Method.ofJson?) methods,
      ← fieldOr [] (Json.asList? Json.asText?) composes⟩
  | _ => none

/-- A page. -/
def Page.ofJson? (v : Json) : Option Page :=
  match RecordName.page.split? v with
  | some [some id, some title, some component] => do
    return ⟨← id.asText?, ← title.asText?, ← Component.ofJson? component⟩
  | _ => none

/-- A list of pages, or else a single page. -/
def pages? (v : Json) : Option (List Page) :=
  (v.asList? Page.ofJson?).or ((Page.ofJson? v).map fun page => [page])

/-- The pages that a text writes. -/
def parsePages (s : Text) : Except Fault (List Page) := do
  let (v, rest) ← Json.parseFront s
  match pages? v with
  -- the shape is looked at before what follows the value
  | some pages =>
    afterValue rest
    return pages
  | none => throw .mismatched

end Metadata

/-! ## Types and configuration read with the shape in mind -/

/-- The type node that a text writes. -/
def TypeNode.parse (s : Text) : Except Fault TypeNode := do
  let v ← Schema.parse recordFields (.record .typeNode) s
  match Metadata.typeNode? v with
  | some n => return n
  | none => throw .mismatched

/-- A link target. -/
def LinkTarget.ofJson? (v : Json) : Option LinkTarget :=
  match RecordName.linkTarget.split? v with
  | some [some text, some url] => do return ⟨← text.asText?, ← url.asText?⟩
  | _ => none

/-- A platform label. -/
def PlatformLabel.ofJson? (v : Json) : Option PlatformLabel :=
  match RecordName.platformLabel.split? v with
  | some [some id, some label, styleClass] => do
    return ⟨← id.asText?, ← label.asText?, ← optionalField Json.asText? styleClass⟩
  | _ => none

/-- A configuration file. -/
def ConfigFile.ofJson? (v : Json) : Option ConfigFile :=
  match RecordName.configFile.split? v with
  | some [links, platforms, replaceBuiltin] => do
    return ⟨← fieldOr .empty (Json.asTable? LinkTarget.ofJson?) links,
      ← fieldOr [] (Json.asList? PlatformLabel.ofJson?) platforms,
      ← fieldOr false Json.asFlag? replaceBuiltin⟩
  | _ => none

/-- What the text of a configuration file says. -/
def ConfigFile.parse (s : Text) : Except Fault ConfigFile := do
  let v ← Schema.parse recordFields (.record .configFile) s
  match ofJson? v with
  | some file => return file
  | none => throw .mismatched

/-- The configuration that the text of a file gives. -/
def Config.parse (s : Text) : Except Fault Config := (ConfigFile.parse s).map .ofFile

end ComponentPages
