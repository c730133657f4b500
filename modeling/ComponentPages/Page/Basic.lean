import ComponentPages.Description.Basic
import ComponentPages.Description.TagSet
import ComponentPages.Types.Descriptor

/-!
# Pages

A component page ready to be shown: descriptions taken apart, types given their forms.

- **`PageDoc`**, **`ComponentDoc`**, **`PropDoc`**, **`MethodDoc`**, **`ParamDoc`** — the types.
- **`DocError`** — why a page cannot be made.
-/

namespace ComponentPages

/-- A property. -/
structure PropDoc where
  name : Text
  required : Bool
  /-- The type, missing only if the tags override it. -/
  type? : Option TypeDescriptor
  /-- The default value as written in source. -/
  defaultValue : Option Text
  description : Text
  tags : TagSet
deriving Inhabited

/-- A parameter of a method. -/
structure ParamDoc where
  name : Text
  type? : Option TypeDescriptor
  optional : Bool
  description : Option Text
deriving Inhabited

/-- A method. -/
structure MethodDoc where
  name : Text
  params : List ParamDoc
  modifiers : List Text
  description : Text
  tags : TagSet
deriving Inhabited

/-- Whether the method belongs to the component and not to an instance of it. -/
def MethodDoc.isStatic (m : MethodDoc) : Bool := m.modifiers.contains "static".toList

/-- A component. -/
structure ComponentDoc where
  displayName : Text
  description : Description
  /-- The tags of the component itself, which pages do not show. -/
  tags : TagSet
  /-- The properties under their names, in the order of the metadata. -/
  props : OrderedMap PropDoc
  methods : List MethodDoc
  composes : List Text
deriving Inhabited

/-- A page. -/
structure PageDoc where
  id : Text
  title : Text
  component : ComponentDoc
deriving Inhabited

/-- Why a page cannot be made. -/
inductive DocError where
  /-- A type is there but has nothing to show. -/
  | malformedType (entity : Text)
  /-- A property has no type and no tag that gives one. -/
  | missingType (entity : Text)
deriving DecidableEq, Repr

/-- The sentence that reports an error. -/
def DocError.message : DocError → Text
  | .malformedType entity =>
    "malformed type descriptor on `".toList ++ entity ++
      "`: no name, value or raw source".toList
  | .missingType entity => "missing type descriptor on `".toList ++ entity ++ "`".toList

end ComponentPages
