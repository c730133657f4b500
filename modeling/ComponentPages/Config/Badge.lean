import ComponentPages.Config.Basic

/-!
# Platform badges

The mark that shows for which platforms something is meant.

- **`labelFor?`** — the label of a platform id.
- **`badge`**, **`badges`** — the markup for one id and for several.
-/

namespace ComponentPages

/-- The first label whose platform is `id`, blanks and case aside. -/
def labelFor? (labels : List PlatformLabel) (id : Text) : Option PlatformLabel :=
  labels.find? fun l => sameIgnoringCase l.id (trim id)

/-- Whether an id has a label. -/
def isKnownPlatform (labels : List PlatformLabel) (id : Text) : Bool := (labelFor? labels id).isSome

/-- The markup of a label. -/
def PlatformLabel.markup (l : PlatformLabel) : Text :=
  "<div class=\"label ".toList ++ l.cssClass ++ "\">".toList ++ l.label ++ "</div>".toList

/-- The badge of an id: its label, or the id itself where it has none. A blank id has no badge. -/
def badge (labels : List PlatformLabel) (id : Text) : Text :=
  if isBlankText id then []
  else
    match labelFor? labels id with
    | some label => label.markup
    | none => id

/-- The badges of several ids with a space between neighbours. -/
def badges (labels : List PlatformLabel) (ids : List Text) : Text :=
  joinWith [' '] ((ids.map (badge labels)).filter fun b => !b.isEmpty)

end ComponentPages
