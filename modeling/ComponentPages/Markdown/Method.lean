import ComponentPages.Markdown.Prop
import ComponentPages.Text.LowerCase

/-!
# Methods in Markdown

The section of a page that lists the methods of a component, each with a heading, the shape of a
call, its description and a table of its parameters.

- **`callBlock`** — the code block with the shape of a call.
- **`parameterTable`**, **`validKeys?`** — the parameters and the keys of object parameters.
- **`renderMethod`** — the block of a method.
- **`renderMethods?`** — the section, where there are methods.
-/

namespace ComponentPages

/-- What a method is called on: the component if it is static, else an instance named like it. -/
def receiver (m : MethodDoc) (displayName : Text) : Text :=
  if m.isStatic then displayName else lowerFirst displayName

/-- A parameter in a call, in brackets if it is optional. -/
def argument (p : ParamDoc) : Text := if p.optional then '[' :: p.name ++ [']'] else p.name

/-- The code block with the shape of a call. -/
def callBlock (m : MethodDoc) (displayName : Text) : Text :=
  "```jsx\n".toList ++ receiver m displayName ++ '.' :: m.name ++
    '(' :: joinWith ", ".toList (m.params.map argument) ++ ");\n```".toList

/-- The table row of a parameter. -/
def paramRow (config : Config) (p : ParamDoc) : TableRow :=
  let type :=
    match p.type? with
    | some d => renderType config.links d
    | none => []
  let row : TableRow := .ofList
    [("Name".toList, p.name), ("Type".toList, type),
      ("Required".toList, if p.optional then "No".toList else "Yes".toList)]
  match p.description with
  | some (c :: rest) => row.insert "Description".toList (c :: rest)
  | _ => row

/-- The table of the parameters. -/
def parameterTable (config : Config) (params : List ParamDoc) : Text :=
  renderTable (params.map (paramRow config))

/-- A key of an object with its type. -/
def keyLine (config : Config) (key : Text) (d : TypeDescriptor) : Text :=
  "- '".toList ++ key ++ "' (".toList ++ renderType config.links d ++ [')']

/-- The entries of a type that is written out as an object. -/
def objectEntries : TypeDescriptor → List (Text × TypeDescriptor)
  | .signature kind _ properties => if kind = objectKind then properties else []
  | _ => []

/-- The keys of a parameter that is written out as an object. -/
def validKeys? (config : Config) (p : ParamDoc) : Option Text :=
  match p.type?.map objectEntries with
  | some (entry :: entries) =>
    some ("Valid `".toList ++ p.name ++ "` keys are:\n\n".toList ++
      joinLines ((entry :: entries).map fun e => keyLine config e.1 e.2))
  | _ => none

/-- The heading line of a method. -/
def methodHeading (config : Config) (m : MethodDoc) : Text :=
  "### `".toList ++ m.name ++ "()`".toList ++ headingBadges config.platforms m.tags.platform

/-- The parts of a method that tell of its parameters. -/
def parameterParts (config : Config) (params : List ParamDoc) : List Text :=
  if params.isEmpty then []
  else
    "**Parameters:**".toList :: trimEnd (parameterTable config params) ::
      params.filterMap (validKeys? config)

/-- The block of a method. -/
def renderMethod (config : Config) (displayName : Text) (m : MethodDoc) : Text :=
  joinSections (methodHeading config m :: callBlock m displayName ::
    (sectionOf m.description ++ parameterParts config m.params))

/-- Methods by name, those of one name in the order of the metadata. -/
def sortMethods (ms : List MethodDoc) : List MethodDoc :=
  ms.mergeSort fun m n => textLE m.name n.name

/-- The section of the methods. -/
def renderMethods? (config : Config) (c : ComponentDoc) : Option Text :=
  if c.methods.isEmpty then none
  else
    some ("## Methods\n\n".toList ++
      joinWith blockSeparator ((sortMethods c.methods).map (renderMethod config c.displayName)))

/-! ## Notices -/

/-- What is reported while a parameter is shown. -/
def paramNotices (config : Config) (p : ParamDoc) : List Notice :=
  match p.type? with
  | some d =>
    resolveNotices config.links d ++
      (objectEntries d).flatMap fun e => resolveNotices config.links e.2
  | none => []

/-- What is reported while the methods are shown. -/
def methodsNotices (config : Config) (c : ComponentDoc) : List Notice :=
  if c.methods.isEmpty then [.emptyPart .methods]
  else c.methods.flatMap fun m => m.params.flatMap (paramNotices config)

end ComponentPages
