import ComponentPages.Text.Basic

/-!
# Notices

What was met and mended in place while a page was made. A notice never stops a page; it is a value
beside the result.

- **`Notice`** — one condition with the text that shows it.
- **`Notice.kind`**, **`Notice.message`**, **`Notice.field`**, **`Notice.value`** — how it is
  reported.
-/

namespace ComponentPages

/-- The parts of a page that may have nothing to show. -/
inductive PagePart where
  | examples
  | props
  | methods
deriving DecidableEq, Repr

/-- The name of a page part. -/
def PagePart.name : PagePart → Text
  | .examples => "examples".toList
  | .props => "props".toList
  | .methods => "methods".toList

/-- A condition that was mended in place. -/
inductive Notice where
  /-- A block tag with a name that means nothing here stayed in the prose. -/
  | unknownTag (tag : Text)
  /-- A block tag without a value went back into the prose. -/
  | emptyTag (line : Text)
  /-- Text looks like an inline directive but is none. -/
  | brokenDirective (text : Text)
  /-- A code fence was opened and never closed. -/
  | unclosedFence (language : Text)
  /-- A type has no display rule and shows its source text. -/
  | unresolvedType (text : Text)
  /-- An alias has no entry in the link table. -/
  | missingAlias (name : Text)
  /-- A part of the page is left out because it is empty. -/
  | emptyPart (part : PagePart)
deriving DecidableEq, Repr

/-- The four kinds of notice. -/
inductive NoticeKind where
  | malformedDirective
  | unresolvedType
  | missingAlias
  | emptySection
deriving DecidableEq, Repr

/-- The label of a kind. -/
def NoticeKind.label : NoticeKind → Text
  | .malformedDirective => "malformed_directive".toList
  | .unresolvedType => "unresolved_type".toList
  | .missingAlias => "missing_alias".toList
  | .emptySection => "empty_section".toList

namespace Notice

/-- The kind of a notice. -/
def kind : Notice → NoticeKind
  | unknownTag _ | emptyTag _ | brokenDirective _ | unclosedFence _ => .malformedDirective
  | unresolvedType _ => .unresolvedType
  | missingAlias _ => .missingAlias
  | emptyPart _ => .emptySection

/-- The sentence that reports a notice. -/
def message : Notice → Text
  | unknownTag _ => "unknown block tag left in description".toList
  | emptyTag _ => "block tag without value left in description".toList
  | brokenDirective _ => "inline directive left in text".toList
  | unclosedFence _ => "unterminated code fence left in description".toList
  | unresolvedType _ => "falling back to raw type text".toList
  | missingAlias _ => "no link for alias".toList
  | emptyPart part => "no ".toList ++ part.name ++ " to render".toList

/-- The name under which a notice reports its text. -/
def field : Notice → Text
  | unknownTag _ => "tag".toList
  | emptyTag _ => "line".toList
  | brokenDirective _ => "text".toList
  | unclosedFence _ => "language".toList
  | unresolvedType _ => "text".toList
  | missingAlias _ => "alias".toList
  | emptyPart _ => "section".toList

/-- The text that a notice reports. -/
def value : Notice → Text
  | unknownTag text | emptyTag text | brokenDirective text | unclosedFence text
  | unresolvedType text | missingAlias text => text
  | emptyPart part => part.name

/-- The order in which notices are listed: by kind, then message, then reported text. -/
def le (m n : Notice) : Bool :=
  let first (a b : Text) (next : Bool) : Bool := if a = b then next else textLE a b
  first m.kind.label n.kind.label (first m.message n.message (textLE m.value n.value))

/-- Notices in listing order, each once. -/
def listing (notices : List Notice) : List Notice :=
  (notices.mergeSort le).eraseDups

end Notice

end ComponentPages
