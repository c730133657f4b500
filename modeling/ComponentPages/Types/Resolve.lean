import ComponentPages.CodeCell
import ComponentPages.Config.Basic
import ComponentPages.Notice
import ComponentPages.Text.WordChar
import ComponentPages.Types.Descriptor

/-!
# Display of types

What a type descriptor is shown as: text, with a link where the type has a page. There is one rule
for each form, and where a rule finds nothing to show the source text or the name stands in.

- **`Resolved`** — the result; **`Resolved.markdown`** — its written form.
- **`resolve`** — the rules.
- **`resolveNotices`** — what the rules report on the way.
- **`renderName`** — a bare type name, linked or as code.
-/

namespace ComponentPages

/-- What a type is shown as. -/
structure Resolved where
  text : Text
  url : Option Text
deriving DecidableEq, Repr, Inhabited

namespace Resolved

/-- Text without a link. -/
def plain (text : Text) : Resolved := ⟨text, none⟩

/-- The text and address of a link target. -/
def link (target : LinkTarget) : Resolved := ⟨target.text, some target.url⟩

/-- Whether there is a link. -/
def isLink (r : Resolved) : Bool := r.url.isSome

/-- A link in brackets and parentheses, other text as it is. -/
def markdown (r : Resolved) : Text :=
  match r.url with
  | some url => '[' :: r.text ++ "](".toList ++ url ++ [')']
  | none => r.text

@[simp] theorem isLink_plain (s : Text) : (plain s).isLink = false := rfl

@[simp] theorem isLink_link (t : LinkTarget) : (link t).isLink = true := rfl

end Resolved

/-! ## Names -/

/-- The link of a name, blanks around it aside. -/
def lookup (links : LinkTable) (name : Text) : Option Resolved :=
  (links.get? (trim name)).map .link

/-- The customary spelling of a few built-in types. -/
def formatType (name : Text) : Text :=
  let lower := asciiLower name
  if lower = "boolean".toList then "bool".toList
  else if lower = "stringish".toList then "string".toList
  else if name = "$ReadOnlyArray".toList then "array".toList
  else name

/-- Whether a character is a quotation mark of a literal. -/
def isQuote (c : Char) : Bool := c == '\'' || c == '"'

/-- The text without any of the characters at its ends that satisfy `p`. -/
def trimMatches (p : Char → Bool) (s : Text) : Text := dropEndWhile p (s.dropWhile p)

/-- A literal without blanks and quotation marks around it. -/
def unquote (value : Text) : Text := trimMatches isQuote (trim value)

/-- A bare type name: a link, or inline code. -/
def renderName (links : LinkTable) (name : Text) : Text :=
  match lookup links name with
  | some link => link.markdown
  | none => codeCell name

/-! ## Parts of the rules -/

/-- The members of a union: the parts of its source text between pipes, or else its elements. -/
def unionMembers (elements : List TypeDescriptor) (raw : Option Text) : List Text :=
  match raw with
  | some raw => ((splitOn '|' raw).map trim).filter fun s => !s.isEmpty
  | none => elements.map TypeDescriptor.fallbackText

/-- The members of a union as an enumeration, if it has any. -/
def enumText? (elements : List TypeDescriptor) (raw : Option Text) : Option Text :=
  match unionMembers elements raw with
  | [] => none
  | members => some ("enum(".toList ++ joinWith ", ".toList members ++ [')'])

/-- A character that a type name in a signature can begin with. -/
def startsTypeName (c : Char) : Bool := c.isAlpha || c == '_' || c == '$'

/-- A character of a type name in a signature. -/
def inTypeName (c : Char) : Bool := isWordChar c || c == '$'

/-- The first type name after a colon in the source text of a function. -/
def signatureToken? : Text → Option Text
  | [] => none
  | c :: rest =>
    match rest.dropWhile isBlank with
    | d :: name =>
      -- blanks may stand between the colon and the name
      if c = ':' && startsTypeName d then some (d :: name.takeWhile inTypeName)
      else signatureToken? rest
    | [] => signatureToken? rest

/-- A function type: its kind, and in parentheses the link of the first type in its source. -/
def resolveFunction (links : LinkTable) (kind : Text) (raw : Option Text) : Resolved :=
  match (raw.bind signatureToken?).bind (lookup links) with
  | some link => .plain (kind ++ '(' :: link.markdown ++ [')'])
  | none => .plain kind

/-- The stand-in for a form that shows nothing: its source text or name. -/
def fallback (d : TypeDescriptor) : Resolved := .plain d.fallbackText

/-- The result of a rule, or the stand-in where it has no text to show. -/
def orFallback (d : TypeDescriptor) (r : Resolved) : Resolved :=
  if isBlankText r.text then fallback d else r

/-- A name without a link: its source text, or the name in its customary spelling. -/
def plainName (name : Text) (raw : Option Text) : Resolved :=
  .plain (raw.getD (formatType name))

/-- The kind of signature that an object has. -/
def objectKind : Text := "object".toList

/-- The kind of signature that a function has. -/
def functionKind : Text := "function".toList

/-- The object made of its linked entries, if there are any. -/
def linkedObject? (kind : Text) (entries : List Text) : Option Resolved :=
  if entries.isEmpty then none
  else some (.plain (kind ++ ": \x7b".toList ++ joinWith ", ".toList entries ++ ['\x7d']))

/-! ## The rules -/

mutual

/-- What a type is shown as. The text is never blank where the type came from a type node. -/
def resolve (links : LinkTable) : TypeDescriptor → Resolved
  | d@(.primitive name raw) => orFallback d ((lookup links name).getD (plainName name raw))
  | d@(.named name raw) => orFallback d ((lookup links name).getD (plainName name raw))
  | d@(.union elements raw) =>
    orFallback d
      (((firstLink? links elements).or ((enumText? elements raw).map .plain)).getD (fallback d))
  | d@(.readOnlyArray element _) =>
    orFallback d
      (match element with
      -- the members of a union are listed, whether they have links or not
      | some (.union elements raw) =>
        match enumText? elements raw with
        | some members => .plain ("array of ".toList ++ members)
        | none => .plain "array".toList
      | some inner =>
        let resolved := resolve links inner
        if resolved.isLink then .plain ("array of ".toList ++ resolved.markdown)
        else .plain "array".toList
      | none => .plain "array".toList)
  | d@(.readOnlyObject element _) =>
    orFallback d
      (match element with
      | some (.signature kind _ properties) =>
        if kind = objectKind then
          (linkedObject? kind (linkedEntries links properties)).getD (fallback d)
        else fallback d
      | _ => fallback d)
  | d@(.signature kind raw _) =>
    orFallback d (if kind = functionKind then resolveFunction links kind raw else fallback d)
  | d@(.literal value _) => orFallback d ((lookup links (unquote value)).getD (.plain value))

/-- The link of the first element that has one: a literal by its value, all else by its rule. -/
def firstLink? (links : LinkTable) : List TypeDescriptor → Option Resolved
  | [] => none
  | .literal value _ :: rest =>
    match lookup links (unquote value) with
    | some link => some link
    | none => firstLink? links rest
  | d :: rest =>
    let resolved := resolve links d
    if resolved.isLink then some resolved else firstLink? links rest

/-- The entries of an object whose types are linked, as they are shown. -/
def linkedEntries (links : LinkTable) : List (Text × TypeDescriptor) → List Text
  | [] => []
  | (key, d) :: rest =>
    let resolved := resolve links d
    if resolved.isLink then (key ++ ": ".toList ++ resolved.markdown) :: linkedEntries links rest
    else linkedEntries links rest

end

/-- What a type is shown as, in written form. -/
def renderType (links : LinkTable) (d : TypeDescriptor) : Text := (resolve links d).markdown

/-! ## Notices -/

/-- The notice that a form shows its stand-in. -/
def unresolved (d : TypeDescriptor) : Notice := .unresolvedType d.fallbackText

/-- The notice of a rule that left nothing but blanks to show. -/
def blankNotices (d : TypeDescriptor) (r : Resolved) : List Notice :=
  if isBlankText r.text then [unresolved d] else []

mutual

/-- What is reported while a type is resolved: an alias without a link, and each form that shows
its stand-in. Elements of a union after its first link are not looked at. -/
def resolveNotices (links : LinkTable) : TypeDescriptor → List Notice
  | d@(.primitive name raw) =>
    blankNotices d ((lookup links name).getD (plainName name raw))
  | d@(.named name raw) =>
    match lookup links name with
    | some link => blankNotices d link
    | none => .missingAlias name :: blankNotices d (plainName name raw)
  | d@(.union elements raw) =>
    firstLinkNotices links elements ++
      match (firstLink? links elements).or ((enumText? elements raw).map .plain) with
      | some r => blankNotices d r
      | none => [unresolved d]
  | .readOnlyArray element _ =>
    match element with
    | some (.union _ _) => []
    | some inner => resolveNotices links inner
    | none => []
  | d@(.readOnlyObject element _) =>
    match element with
    | some (.signature kind _ properties) =>
      if kind = objectKind then
        entryNotices links properties ++
          if (linkedEntries links properties).isEmpty then [unresolved d] else []
      else [unresolved d]
    | _ => [unresolved d]
  | d@(.signature kind raw _) =>
    if kind = functionKind then blankNotices d (resolveFunction links kind raw)
    else [unresolved d]
  | d@(.literal value _) =>
    blankNotices d ((lookup links (unquote value)).getD (.plain value))

/-- What is reported while the elements of a union are searched for a link. -/
def firstLinkNotices (links : LinkTable) : List TypeDescriptor → List Notice
  | [] => []
  | .literal value _ :: rest =>
    if (lookup links (unquote value)).isSome then [] else firstLinkNotices links rest
  | d :: rest =>
    resolveNotices links d ++
      if (resolve links d).isLink then [] else firstLinkNotices links rest

/-- What is reported while the entries of an object are resolved. -/
def entryNotices (links : LinkTable) : List (Text × TypeDescriptor) → List Notice
  | [] => []
  | (_, d) :: rest => resolveNotices links d ++ entryNotices links rest

end

end ComponentPages
