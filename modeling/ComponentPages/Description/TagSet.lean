import ComponentPages.Text.Basic

/-!
# Tags

What the tags of a description say about the thing described.

- **`PlatformValue`** — a tag value and the platforms that it is meant for.
- **`TagSet`** — the platforms, default values and type overrides of a description.
- **`TagSet.addPlatform`** — a platform is recorded once, whatever the case of its letters.
- **`splitIds`** — the ids of a platform list.
-/

namespace ComponentPages

/-- A tag value with the platforms that a directive in it names. -/
structure PlatformValue where
  value : Text
  platforms : List Text
deriving DecidableEq, Repr, Inhabited

/-- The tags of a description, each list in the order of the text. -/
structure TagSet where
  /-- Platform ids, from block tags and from directives in prose. -/
  platform : List Text
  /-- Values of default tags. -/
  default : List PlatformValue
  /-- Values of type tags. -/
  typeOverrides : List PlatformValue
deriving DecidableEq, Repr

/-- The three block tags that are recorded. -/
inductive TagKey where
  | platform
  | default
  | type
deriving DecidableEq, Repr

/-- The block tag of a name. -/
def TagKey.ofName? (name : Text) : Option TagKey :=
  if name = "platform".toList then some .platform
  else if name = "default".toList then some .default
  else if name = "type".toList then some .type
  else none

/-- The name of a block tag. -/
def TagKey.name : TagKey → Text
  | .platform => "platform".toList
  | .default => "default".toList
  | .type => "type".toList

/-- Each block tag is found under its own name. -/
@[simp] theorem TagKey.ofName?_name (key : TagKey) : TagKey.ofName? key.name = some key := by
  cases key <;> rfl

/-- Whether a character separates the ids of a platform list. -/
def separatesIds (c : Char) : Bool := c == ',' || isBlank c

/-- The longest runs of characters that do not separate ids. -/
def splitIds (s : Text) : List Text :=
  match s with
  | [] => []
  | c :: rest =>
    if separatesIds c then splitIds rest
    else
      -- the run that `c` begins, and the ids after it
      (c :: rest.takeWhile fun d => !separatesIds d) ::
        splitIds (rest.dropWhile fun d => !separatesIds d)
termination_by s.length
decreasing_by
  · simp
  -- what is left after a run is part of what followed its first character
  · exact Nat.lt_succ_of_le (List.dropWhile_sublist _).length_le

namespace TagSet

/-- No tags. -/
def empty : TagSet := ⟨[], [], []⟩

instance : Inhabited TagSet := ⟨empty⟩

/-- Whether nothing is recorded. -/
def isEmpty (t : TagSet) : Bool :=
  t.platform.isEmpty && t.default.isEmpty && t.typeOverrides.isEmpty

@[simp] theorem isEmpty_empty : empty.isEmpty = true := rfl

/-- A platform list with one more id at its end, unless the id is blank or already there in some
case of its letters. -/
def addId (ids : List Text) (id : Text) : List Text :=
  let id := trim id
  if id.isEmpty || ids.any (sameIgnoringCase · id) then ids else ids ++ [id]

/-- The tags with one more platform. -/
def addPlatform (t : TagSet) (id : Text) : TagSet := { t with platform := addId t.platform id }

/-- The tags with more platforms, added in order. -/
def addPlatforms (t : TagSet) (ids : List Text) : TagSet := ids.foldl addPlatform t

@[simp] theorem addPlatforms_nil (t : TagSet) : t.addPlatforms [] = t := rfl

@[simp] theorem addPlatforms_cons (t : TagSet) (id : Text) (ids : List Text) :
    t.addPlatforms (id :: ids) = (t.addPlatform id).addPlatforms ids := rfl

end TagSet

end ComponentPages
