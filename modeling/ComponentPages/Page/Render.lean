import ComponentPages.Markdown.Page
import ComponentPages.Page.Json
import ComponentPages.Page.OfMetadata

/-!
# Formats

- **`Format`**, **`Format.ofName?`** — the formats of pages and their names.
- **`Metadata.Page.render`** — a page of metadata in a format.
- **`Metadata.Page.allNotices`** — everything that is reported while its Markdown page is made.
-/

namespace ComponentPages

/-- The formats in which a page can be written. -/
inductive Format where
  | markdown
  | json
deriving DecidableEq, Repr

namespace Format

/-- The format of a name. -/
def ofName? (name : Text) : Option Format :=
  if name = "markdown".toList ∨ name = "md".toList then some .markdown
  else if name = "json".toList then some .json
  else none

/-- The sentence that refuses a name. -/
def unknownMessage (name : Text) : Text :=
  "unknown format: ".toList ++ name ++ ". Use markdown or json".toList

/-- The ending of the names of files in a format. -/
def extension : Format → Text
  | .markdown => "md".toList
  | .json => "json".toList

end Format

/-- A page in a format. -/
def PageDoc.render (config : Config) (format : Format) (p : PageDoc) : Text :=
  match format with
  | .markdown => p.renderMarkdown config
  | .json => p.renderJson

namespace Metadata.Page

/-- A page of metadata in a format. -/
def render (config : Config) (format : Format) (p : Metadata.Page) : Except DocError Text :=
  (PageDoc.ofPage p).map (PageDoc.render config format)

/-- A page of metadata in Markdown. -/
def renderMarkdown (config : Config) (p : Metadata.Page) : Except DocError Text :=
  p.render config .markdown

/-- Everything that is reported while the Markdown page of some metadata is made. -/
def allNotices (config : Config) (p : Metadata.Page) : Except DocError (List Notice) := do
  let doc ← PageDoc.ofPage p
  return p.notices ++ doc.notices config

end Metadata.Page

end ComponentPages
