import ComponentPages.Description.Basic
import ComponentPages.Description.Indent
import ComponentPages.Description.Line

/-!
# Reading a description

A description is read line by line. Code blocks become examples, block tags and directives become
tags, and everything that is not well-formed stays in the prose as it was written.

- **`Scan`** — what is known after some lines: the finished parts, the prose since, and the tag or
  code block that is still open.
- **`Scan.step`** — one more line.
- **`Scan.finish`** — the end of the text.
- **`extract`** — the description and the tags of a text, with the notices on the way.
-/

namespace ComponentPages

/-! ## What is open -/

/-- A block tag whose value may go on in the next line. -/
structure OpenTag where
  key : TagKey
  value : Text
  /-- The directives in front of the tag on its first line. -/
  directives : Text
  /-- The lines of the tag as they are written, without trailing blanks. -/
  rawLines : List Text
deriving DecidableEq, Repr

/-- The whole value of a tag: the directives in front of it belong to it. -/
def OpenTag.fullValue (t : OpenTag) : Text :=
  if t.directives.isEmpty then t.value else t.directives ++ ' ' :: t.value

/-- A code block that is not closed yet. -/
structure OpenFence where
  opening : FenceOpening
  /-- The opening line without blanks at its ends. -/
  firstLine : Text
  /-- The lines since. -/
  body : List Text
deriving DecidableEq, Repr

/-- Where in a description a line can stand. -/
inductive Mode where
  | prose
  | tag (t : OpenTag)
  | fence (f : OpenFence)
deriving DecidableEq, Repr

/-- What is known of a description after some of its lines. -/
structure Scan where
  /-- The prose lines since the last example. -/
  prose : List Text
  /-- The prose before the first example, once there is one. -/
  opening? : Option Text
  /-- The examples so far. -/
  examples : List Example
  /-- The tags so far. -/
  tags : TagSet
  /-- What is open. -/
  mode : Mode
  /-- The notices so far. -/
  notices : List Notice
deriving DecidableEq, Repr

namespace Scan

/-- Before the first line. -/
def start : Scan := ⟨[], none, [], .empty, .prose, []⟩

/-! ## Tags -/

/-- The value of a tag with its directives taken out as platforms. -/
def platformValue (value : Text) : PlatformValue :=
  let (clean, platforms) := stripDirectives value
  ⟨trim clean, platforms⟩

/-- The tags with the value of a tag recorded. -/
def record (tags : TagSet) (key : TagKey) (value : Text) : TagSet :=
  match key with
  | .platform =>
    let (clean, inline) := stripDirectives value
    tags.addPlatforms (splitIds clean ++ inline)
  | .default => { tags with default := tags.default ++ [platformValue value] }
  | .type => { tags with typeOverrides := tags.typeOverrides ++ [platformValue value] }

/-- The open tag, if there is one, is recorded; without a value its lines go back to the prose. -/
def closeTag (s : Scan) : Scan :=
  match s.mode with
  | .tag t =>
    if isBlankText t.value then
      { s with
        prose := s.prose ++ t.rawLines
        mode := .prose
        notices := s.notices ++ [.emptyTag (joinWith [' '] t.rawLines)] }
    else
      { s with
        tags := record s.tags t.key t.fullValue
        mode := .prose
        notices := s.notices ++ brokenDirectives (stripDirectives t.fullValue).1 }
  | _ => s

/-! ## Prose -/

/-- A line of prose without its directives; a line that held nothing else disappears. -/
def addProse (s : Scan) (line : Text) : Scan :=
  let (clean, ids) := stripDirectives (trimEnd line)
  { s with
    tags := s.tags.addPlatforms ids
    prose := if isBlankText clean && !ids.isEmpty then s.prose else s.prose ++ [trimEnd clean]
    notices := s.notices ++ brokenDirectives clean }

/-- A blank line, unless the line before is one. -/
def addBlank (s : Scan) : Scan :=
  if s.prose.getLast? = some [] then s else { s with prose := s.prose ++ [[]] }

/-- Prose lines as one text without blanks at its ends. -/
def proseText (prose : List Text) : Text := trim (joinLines prose)

/-! ## Lines -/

/-- A line inside a code block: the block goes on, or is closed and becomes an example. -/
def fenceLine (s : Scan) (f : OpenFence) (line : Text) : Scan :=
  if f.opening.closedBy line then
    let before := proseText s.prose
    -- the prose before the first example opens the description and is no intro
    let intro := if s.opening?.isSome then before else []
    { s with
      prose := []
      opening? := some (s.opening?.getD before)
      examples := s.examples ++
        [⟨f.opening.language, intro, joinLines (f.firstLine :: f.body ++ [trim line]),
          joinLines f.body⟩]
      mode := .prose }
  else { s with mode := .fence { f with body := f.body ++ [line] } }

/-- A line outside code blocks, given what it is. -/
def textLine (s : Scan) (line : Line) : Scan :=
  match line.kind with
  | .fence opening =>
    let s := s.closeTag
    -- the directives in front of a fence are for the whole description
    { s with
      tags := s.tags.addPlatforms (stripDirectives line.directives).2
      mode := .fence ⟨opening, line.rest, []⟩ }
  | .tag name value =>
    let s := s.closeTag
    match TagKey.ofName? name with
    | some key => { s with mode := .tag ⟨key, value, line.directives, [trimEnd line.raw]⟩ }
    -- a tag of another name is prose, and what follows it is no value
    | none => addProse { s with notices := s.notices ++ [.unknownTag name] } line.raw
  | .blank => s.closeTag.addBlank
  | .plain =>
    match s.mode with
    -- the line goes on with the value of the open tag
    | .tag t =>
      { s with
        mode := .tag { t with
          value := t.value ++ ' ' :: trim line.raw
          rawLines := t.rawLines ++ [trimEnd line.raw] } }
    | _ => s.addProse line.raw

/-- The scan after one more line. -/
def step (s : Scan) (line : Text) : Scan :=
  match s.mode with
  | .fence f => s.fenceLine f line
  | .tag _ => s.textLine (.whole line)
  | .prose => s.textLine (.ofText line)

/-- The lines in order. -/
def run (s : Scan) (ls : List Text) : Scan := ls.foldl step s

/-- The end of the text: an open tag is closed, and an open code block is prose after all. -/
def finish (s : Scan) : Scan :=
  let s := s.closeTag
  match s.mode with
  | .fence f =>
    { s with
      prose := s.prose ++ f.firstLine :: f.body
      mode := .prose
      notices := s.notices ++ [.unclosedFence f.opening.language] }
  | _ => s

/-- The description that a finished scan has read. -/
def description (s : Scan) : Description :=
  let rest := proseText s.prose
  match s.opening? with
  | some text => ⟨text, s.examples, rest⟩
  | none => ⟨rest, s.examples, []⟩

@[simp] theorem run_nil (s : Scan) : s.run [] = s := rfl

@[simp] theorem run_cons (s : Scan) (l : Text) (ls : List Text) :
    s.run (l :: ls) = (s.step l).run ls := rfl

/-- Reading lines is reading their first part and then the rest. -/
theorem run_append (s : Scan) (ls ls' : List Text) :
    s.run (ls ++ ls') = (s.run ls).run ls' := by
  simp [run]

end Scan

/-! ## The whole text -/

/-- What a text gives: its description, its tags and the notices on the way. -/
structure Extracted where
  description : Description
  tags : TagSet
  notices : List Notice
deriving DecidableEq, Repr

/-- The description as text, with tags and directives gone. -/
def Extracted.cleanText (e : Extracted) : Text := e.description.joined

/-- The lines that are read of a text: line feeds alone end a line, and the common indentation is
gone. -/
def contentLines (s : Text) : List Text := lines (unindent (unixLines s))

/-- The lines that are read of a text are its lines, ended alike and without their common
indentation. -/
theorem contentLines_eq (s : Text) : contentLines s = outdentLines (lines (unixLines s)) :=
  lines_unindent (unixLines s)

/-- The description and tags of a text. Nothing in a text is an error. -/
def extract (s : Text) : Extracted :=
  let scan := (Scan.start.run (contentLines s)).finish
  ⟨scan.description, scan.tags, scan.notices⟩

end ComponentPages
