import ComponentPages.OrderedMap

/-!
# Configuration

Two tables steer how a page is shown: where type names link to, and how platforms are labelled.
Both have built-in entries, and a configuration file extends or replaces them.

- **`LinkTable`**, **`PlatformLabel`**, **`Config`** — the tables.
- **`ConfigFile`** — what a configuration file says.
- **`Config.ofFile`** — the tables that result: entries of the file win over built-in ones.
-/

namespace ComponentPages

/-! ## Links -/

/-- Where a type name links to, and under which text. -/
structure LinkTarget where
  text : Text
  url : Text
deriving DecidableEq, Repr, Inhabited

/-- The link targets of type names. A name without an entry is not linked. -/
abbrev LinkTable := OrderedMap LinkTarget

/-- The types that have pages of their own. -/
def builtinLinks : LinkTable :=
  .ofList <| [
    ("ColorValue", "color", "colors"),
    ("ViewProps", "View Props", "view#props"),
    ("ViewStyleProp", "View Style", "view-style-props"),
    ("TextStyleProp", "Text Style", "text-style-props"),
    ("ImageStyleProp", "Image Style", "image-style-props"),
    ("ImageSource", "ImageSource", "image#imagesource"),
    ("EdgeInsetsProp", "Rect", "rect"),
    ("EdgeInsetsOrSizeProp", "Rect", "rect"),
    ("PressEvent", "PressEvent", "pressevent"),
    ("LayoutEvent", "LayoutEvent", "layoutevent"),
    ("ScrollEvent", "ScrollEvent", "scrollevent"),
    ("SyntheticEvent", "SyntheticEvent", "syntheticevent")].map
      fun (name, text, url) => (name.toList, ⟨text.toList, url.toList⟩)

/-- Whether two tables have the same entries, in whatever order. -/
def sameLinks (s t : LinkTable) : Bool :=
  s.size == t.size && s.entries.all fun (name, target) => t.get? name == some target

/-! ## Platform labels -/

/-- How a platform is labelled. -/
structure PlatformLabel where
  /-- The platform, in any case of its letters. -/
  id : Text
  label : Text
  /-- The style class, if it is not the id. -/
  styleClass : Option Text
deriving DecidableEq, Repr, Inhabited

/-- The style class of a label: the id in lower case, unless another is given. -/
def PlatformLabel.cssClass (l : PlatformLabel) : Text := l.styleClass.getD (asciiLower l.id)

/-- The labels of the three common platforms. -/
def builtinPlatforms : List PlatformLabel :=
  [("ios", "iOS"), ("android", "Android"), ("tv", "TV")].map
    fun (id, label) => ⟨id.toList, label.toList, none⟩

/-- The labels with one more: in the place of the label for the same platform, or at the end. -/
def putLabel (label : PlatformLabel) : List PlatformLabel → List PlatformLabel
  | [] => [label]
  | l :: ls => if sameIgnoringCase l.id label.id then label :: ls else l :: putLabel label ls

/-! ## The configuration -/

/-- Everything that a page depends on besides the component. -/
structure Config where
  links : LinkTable
  platforms : List PlatformLabel

/-- The built-in tables. -/
def Config.builtin : Config := ⟨builtinLinks, builtinPlatforms⟩

instance : Inhabited Config := ⟨.builtin⟩

/-- No links and no labels. -/
def Config.bare : Config := ⟨.empty, []⟩

/-- What a configuration file says. -/
structure ConfigFile where
  links : OrderedMap LinkTarget
  platforms : List PlatformLabel
  /-- Whether the built-in tables are dropped. -/
  replaceBuiltin : Bool

/-- The tables of a configuration file: its entries on top of the built-in ones, or alone. -/
def Config.ofFile (file : ConfigFile) : Config :=
  let base := if file.replaceBuiltin then bare else builtin
  { links := base.links.insertAll file.links.entries
    platforms := file.platforms.foldl (fun labels label => putLabel label labels) base.platforms }

/-- Whether two configurations have the same labels in order and the same links in any order. -/
def Config.same (c d : Config) : Bool := sameLinks c.links d.links && c.platforms == d.platforms

end ComponentPages
