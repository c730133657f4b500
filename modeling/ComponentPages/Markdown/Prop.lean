import ComponentPages.Default.Branches
import ComponentPages.Page.Basic
import ComponentPages.Table

/-!
# Properties in Markdown

The section of a page that lists the properties of a component, each with a heading, its description
and a table of its type and default value.

- **`typeColumn`**, **`defaultColumn?`** — the cells of the table.
- **`renderProp`** — the block of a property.
- **`sortProps`** — required properties first, then by name.
- **`renderProps?`** — the section, where there are properties.
-/

namespace ComponentPages

/-- The mark of a required property. -/
def requiredBadge : Text := "<div class=\"label required basic\">Required</div>".toList

/-- What stands between the parts of a cell. -/
def segmentSeparator : Text := "<hr/>".toList

/-- Parts of a cell. -/
def joinSegments (parts : List Text) : Text := joinWith segmentSeparator parts

/-- A text in backticks. -/
def inBackticks (s : Text) : Text := backtick :: s ++ [backtick]

/-! ## Cells -/

/-- A value with the badges of its platforms. -/
def withBadges (labels : List PlatformLabel) (value : Text) (platforms : List Text) : Text :=
  let marks := badges labels platforms
  if marks.isEmpty then value else value ++ ' ' :: marks

/-- A colour as code with a box of that colour after it; a null has no box. -/
def colorSwatch (value : Text) : Text :=
  if occurs "null".toList value then codeCell value
  else
    codeCell value ++ "<ins style=\"background: ".toList ++
      (trim value).filter (fun c => !isQuote c) ++ "\" class=\"color-box\"></ins>".toList

/-- The type of a property: the overrides in its tags, or else the type in source. -/
def typeColumn (config : Config) (p : PropDoc) : Text :=
  if p.tags.typeOverrides.isEmpty then
    match p.type? with
    | some d => renderType config.links d
    | none => []
  else
    joinSegments (p.tags.typeOverrides.map fun v => withBadges config.platforms v.value v.platforms)

/-- Whether the defaults of a property are colours. -/
def PropDoc.isColor (p : PropDoc) : Bool := p.name == "color".toList

/-- A default value from a tag: as it is written, and with badges where it is for some platforms. -/
def tagDefault (labels : List PlatformLabel) (isColor : Bool) (v : PlatformValue) : Text :=
  if v.platforms.isEmpty then v.value
  else withBadges labels (if isColor then colorSwatch v.value else v.value) v.platforms

/-- A branch of a default value with the badge of its platform. -/
def branchDefault (labels : List PlatformLabel) (isColor : Bool) (b : Branch) : Text :=
  (if isColor then colorSwatch b.value else codeCell b.value) ++ ' ' :: badge labels b.platform

/-- A default value in source: one part for each platform where it chooses between platforms. -/
def sourceDefault (labels : List PlatformLabel) (isColor : Bool) (value : Text) : Text :=
  match platformBranches? labels value with
  | some branches => joinSegments (branches.map (branchDefault labels isColor))
  | none => codeCell value

/-- The default value of a property: those in its tags, or else the one in source. -/
def defaultColumn? (config : Config) (p : PropDoc) : Option Text :=
  if p.tags.default.isEmpty then
    (p.defaultValue.bind nonBlank?).map (sourceDefault config.platforms p.isColor)
  else some (joinSegments (p.tags.default.map (tagDefault config.platforms p.isColor)))

/-! ## Blocks -/

/-- A heading with the badges of some platforms after it. -/
def headingBadges (labels : List PlatformLabel) (platforms : List Text) : Text :=
  if platforms.isEmpty then [] else ' ' :: badges labels platforms

/-- The heading line of a property. -/
def propHeading (config : Config) (p : PropDoc) : Text :=
  "### ".toList ++ (if p.required then requiredBadge else []) ++ inBackticks p.name ++
    headingBadges config.platforms p.tags.platform

/-- The table row of a property. -/
def propRow (config : Config) (p : PropDoc) : TableRow :=
  let row : TableRow := OrderedMap.empty.insert "Type".toList (typeColumn config p)
  match defaultColumn? config p with
  | some value => row.insert "Default".toList value
  | none => row

/-- A text with a blank line after it, where it is not empty. -/
def paragraph (s : Text) : Text := if s.isEmpty then [] else s ++ ['\n', '\n']

/-- The block of a property. -/
def renderProp (config : Config) (p : PropDoc) : Text :=
  paragraph (propHeading config p) ++ paragraph p.description ++ renderTable [propRow config p]

/-! ## The section -/

/-- Whether a property is listed before another, or is equal to it in that respect: required ones
first, then by name. -/
def PropDoc.le (p q : PropDoc) : Bool :=
  if p.required == q.required then textLE p.name q.name else p.required

/-- Properties in the order in which they are listed. -/
def sortProps (ps : List PropDoc) : List PropDoc := ps.mergeSort PropDoc.le

/-- What stands between two blocks. -/
def blockSeparator : Text := "\n\n---\n\n".toList

/-- The line that names a property type whose properties are inherited. -/
def inheritsLine (config : Config) (parent : Text) : Text :=
  "Inherits ".toList ++ renderName config.links parent ++ ['.']

/-- The section of the properties. -/
def renderProps? (config : Config) (c : ComponentDoc) : Option Text :=
  if c.props.isEmpty then none
  else
    some ("## Props\n\n".toList ++
      paragraph (joinSections (c.composes.map (inheritsLine config))) ++
      joinWith blockSeparator ((sortProps c.props.values).map (renderProp config)))

/-! ## Notices -/

/-- What is reported while the type of a property is shown. -/
def propNotices (config : Config) (p : PropDoc) : List Notice :=
  if p.tags.typeOverrides.isEmpty then
    match p.type? with
    | some d => resolveNotices config.links d
    | none => []
  else []

/-- What is reported while the properties are shown. -/
def propsNotices (config : Config) (c : ComponentDoc) : List Notice :=
  if c.props.isEmpty then [.emptyPart .props] else c.props.values.flatMap (propNotices config)

end ComponentPages
