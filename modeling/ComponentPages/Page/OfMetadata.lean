import ComponentPages.Description.Extract
import ComponentPages.Page.Basic

/-!
# Pages from metadata

Every description is taken apart and every type gets its form. A page is refused at the first
property or parameter, in the order of the metadata, that has no usable type.

- **`PageDoc.ofPage`** — the page of some metadata.
- **`Metadata.Page.notices`** — what its descriptions report.
-/

namespace ComponentPages

/-- The reading of a description that may be missing. -/
def extractOptional (description : Option Text) : Extracted := extract (description.getD [])

/-- The type of a property: it may be missing or have nothing to show if a tag overrides it. -/
def propType (name : Text) (type : Option TypeNode) (overridden : Bool) :
    Except DocError (Option TypeDescriptor) :=
  match type with
  | none => if overridden then .ok none else .error (.missingType name)
  | some node =>
    match TypeDescriptor.ofNode? node with
    | some d => .ok (some d)
    | none => if overridden then .ok none else .error (.malformedType name)

/-- A property as it is shown. -/
def PropDoc.ofProperty (name : Text) (p : Metadata.Property) : Except DocError PropDoc := do
  let extracted := extractOptional p.description
  let type ← propType name p.type? (!extracted.tags.typeOverrides.isEmpty)
  return {
    name
    required := p.required
    type? := type
    defaultValue := p.defaultValue.bind fun d => nonBlank? d.value
    description := extracted.cleanText
    tags := extracted.tags }

/-- How errors name a parameter. -/
def paramEntity (method param : Text) : Text := method ++ '(' :: param ++ [')']

/-- A parameter as it is shown. It may be untyped, but a type that is there must have something to
show. -/
def ParamDoc.ofParameter (method : Text) (p : Metadata.Parameter) : Except DocError ParamDoc := do
  let type ←
    match p.type? with
    | none => .ok none
    | some node =>
      match TypeDescriptor.ofNode? node with
      | some d => .ok (some d)
      | none => .error (.malformedType (paramEntity method p.name))
  return {
    name := p.name
    type? := type
    optional := p.optional
    description := p.description.bind nonBlank? }

/-- A method as it is shown. -/
def MethodDoc.ofMethod (m : Metadata.Method) : Except DocError MethodDoc := do
  let extracted := extractOptional m.description
  let params ← m.params.mapM (ParamDoc.ofParameter m.name)
  return {
    name := m.name
    params
    modifiers := m.modifiers
    description := extracted.cleanText
    tags := extracted.tags }

/-- The properties as they are shown, each under its name. -/
def propEntries (entries : List (Text × Metadata.Property)) :
    Except DocError (List (Text × PropDoc)) :=
  entries.mapM fun e => (PropDoc.ofProperty e.1 e.2).map fun p => (e.1, p)

/-- A component as it is shown. -/
def ComponentDoc.ofComponent (c : Metadata.Component) : Except DocError ComponentDoc := do
  let extracted := extractOptional c.description
  let props ← propEntries c.props.entries
  let methods ← c.methods.mapM MethodDoc.ofMethod
  return {
    displayName := c.displayName
    description := extracted.description
    tags := extracted.tags
    props := .ofList props
    methods
    composes := c.composes }

/-- A page as it is shown. -/
def PageDoc.ofPage (p : Metadata.Page) : Except DocError PageDoc := do
  let component ← ComponentDoc.ofComponent p.component
  return { id := p.id, title := p.title, component }

/-- What the descriptions of a page report. -/
def Metadata.Page.notices (p : Metadata.Page) : List Notice :=
  let descriptions := p.component.description :: p.component.props.values.map (·.description) ++
    p.component.methods.map (·.description)
  descriptions.flatMap fun d => (extractOptional d).notices

end ComponentPages
