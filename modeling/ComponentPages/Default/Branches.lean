import ComponentPages.Config.Badge
import ComponentPages.Default.TopLevel
import ComponentPages.Json.Printer
import ComponentPages.Json.Value
import ComponentPages.Text.WordChar
import ComponentPages.Types.Resolve

/-!
# Defaults that depend on the platform

A default value in source may choose between platforms: by a comparison with the platform name, by
a selection among the entries of an object, or by an object alone. It is split into one branch for
each platform.

- **`Branch`** — a platform and its value.
- **`comparison?`** — a comparison with the name of one platform.
- **`selectedObject?`** — the object of a selection.
- **`jsonBranches?`**, **`objectBranches?`** — the entries of an object, as JSON or as source text.
- **`platformBranches?`** — the branches of a default value.
-/

namespace ComponentPages

/-- The value that a default has on a platform. -/
structure Branch where
  platform : Text
  value : Text
deriving DecidableEq, Repr

/-! ## Comparisons -/

/-- A text without one leading character, if it begins with it. -/
def dropOptional (c : Char) : Text → Text
  | [] => []
  | d :: rest => if d = c then rest else d :: rest

/-- What follows two or three equals signs. -/
def afterEquals? (s : Text) : Option Text := (afterPart? "==".toList s).map (dropOptional '=')

/-- A word in quotation marks, and what follows it. The marks need not be alike. -/
def quotedWord? (s : Text) : Option (Text × Text) :=
  match s with
  | [] => none
  | q :: s =>
    let word := s.takeWhile isWordChar
    match s.dropWhile isWordChar with
    | q' :: rest =>
      if isQuote q && !word.isEmpty && isQuote q' then some (word, rest) else none
    | [] => none

/-- The platform that a value is compared with at its beginning, and what follows the question
mark. The comparison may stand in parentheses. -/
def comparison? (s : Text) : Option (Text × Text) := do
  -- each step allows blanks before the next part
  let s ← afterPart? "Platform.OS".toList (trimStart (dropOptional '(' s))
  let s ← afterEquals? (trimStart s)
  let (platform, s) ← quotedWord? (trimStart s)
  let s ← afterPart? ['?'] (trimStart (dropOptional ')' (trimStart s)))
  return (platform, s)

/-- The platform that is meant by "else" in a comparison. -/
def otherPlatform? (platform : Text) : Option Text :=
  let lower := asciiLower platform
  if lower = "ios".toList then some "android".toList
  else if lower = "android".toList then some "ios".toList
  else none

/-- The branches of a comparison: two values with a single colon at the top level between them. -/
def comparisonBranches? (platform rest : Text) : Option (List Branch) :=
  match otherPlatform? platform, splitTopLevel ':' rest with
  | some other, [yes, no] =>
    if isBlankText yes || isBlankText no then none
    else some [⟨platform, trim yes⟩, ⟨other, trim no⟩]
  | _, _ => none

/-! ## Objects -/

/-- Whether a text begins and ends with braces. -/
def isBraced (s : Text) : Bool := s.head? == some '\x7b' && s.getLast? == some '\x7d'

/-- The object that a selection chooses from: the braces in the parentheses of the call. -/
def selectedObject? (s : Text) : Option Text :=
  match afterPart? "Platform.select(".toList s with
  | some inner =>
    if inner.getLast? = some ')' then
      let object := trim inner.dropLast
      if isBraced object then some object else none
    else none
  | none => none

/-- The entries of an object that is JSON: texts as they are, other values written as JSON. -/
def jsonBranches? (object : Text) : Option (List Branch) :=
  match Json.parse object with
  | .ok (.object members) =>
    some ((OrderedMap.ofList members).entries.map fun (platform, value) =>
      ⟨platform,
        match value with
        | .string s => s
        | value => value.compact⟩)
  | _ => none

/-- The text before and after the first colon. -/
def splitOnce? (s : Text) : Option (Text × Text) :=
  match s.dropWhile (· != ':') with
  | _ :: after => some (s.takeWhile (· != ':'), after)
  | [] => none

/-- An entry of an object in source: a key, in quotation marks or not, and a value. -/
def objectEntry? (entry : Text) : Option Branch :=
  match splitOnce? entry with
  | some (key, value) =>
    let key := unquote key
    let value := trim value
    if key.isEmpty || value.isEmpty then none else some ⟨key, value⟩
  | none => none

/-- The entries of an object in source, values as they are written. -/
def objectBranches? (object : Text) : Option (List Branch) :=
  let object := trim object
  if isBraced object then
    ((splitTopLevel ',' object.tail.dropLast).filter fun e => !isBlankText e).mapM objectEntry?
  else none

/-! ## Default values -/

/-- The branches of an object, if there are any and all of them are for known platforms. -/
def knownBranches? (labels : List PlatformLabel) (object : Text) : Option (List Branch) :=
  match (jsonBranches? object).or (objectBranches? object) with
  | some branches =>
    if !branches.isEmpty && branches.all fun b => isKnownPlatform labels b.platform then
      some branches
    else none
  | none => none

/-- The branches of a default value, if it chooses between platforms. -/
def platformBranches? (labels : List PlatformLabel) (value : Text) : Option (List Branch) :=
  match comparison? value with
  | some (platform, rest) => comparisonBranches? platform rest
  | none =>
    match selectedObject? value with
    | some object => knownBranches? labels object
    | none => if isBraced value then knownBranches? labels value else none

end ComponentPages
