import ComponentPages.OrderedMap

/-!
# Component metadata

What an introspection tool found out about a component: its properties and methods with their
written descriptions and the types in their source. Nothing of it is interpreted here.

- **`TypeNode`** — a type as it was found, of any shape.
- **`Metadata.Page`** — a page to be made and the component that it shows.
-/

namespace ComponentPages

/-- A type as it was found in source. Which parts are there depends on its name. -/
inductive TypeNode where
  /-- A node with its name, source text, kind, value, element types and, for a signature, the
  entries of an object. -/
  | node (name raw kind value : Option Text) (elements : List TypeNode)
      (signature : Option (List (Text × TypeNode)))
deriving Inhabited

namespace Metadata

/-- A default value as written in source. -/
structure DefaultValue where
  value : Text
  computed : Bool
deriving DecidableEq, Inhabited

/-- A property of a component. -/
structure Property where
  type? : Option TypeNode
  required : Bool
  description : Option Text
  defaultValue : Option DefaultValue
deriving Inhabited

/-- A parameter of a method. -/
structure Parameter where
  name : Text
  type? : Option TypeNode
  optional : Bool
  description : Option Text
deriving Inhabited

/-- A method of a component. -/
structure Method where
  name : Text
  description : Option Text
  modifiers : List Text
  params : List Parameter
deriving Inhabited

/-- A component. -/
structure Component where
  displayName : Text
  description : Option Text
  /-- The properties by name, in the order in which they were found. -/
  props : OrderedMap Property
  methods : List Method
  /-- The names of the property types that it inherits. -/
  composes : List Text
deriving Inhabited

/-- A page: where it goes and what it shows. -/
structure Page where
  id : Text
  title : Text
  component : Component
deriving Inhabited

end Metadata

end ComponentPages
