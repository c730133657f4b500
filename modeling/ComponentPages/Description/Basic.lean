import ComponentPages.Text.Basic

/-!
# Descriptions

A description as it is shown: opening prose, code examples with the prose before each, closing
prose.

- **`Example`**, **`Description`** — the types.
- **`Description.joined`** — the text that a description was read from, up to its tags.
-/

namespace ComponentPages

/-- A fenced code block of a description. -/
structure Example where
  /-- The info string after the opening fence. -/
  language : Text
  /-- The prose between the example before and this one. -/
  intro : Text
  /-- The block with its fences. -/
  raw : Text
  /-- The lines between the fences. -/
  code : Text
deriving DecidableEq, Repr, Inhabited

/-- A description split into prose, examples and what comes after them. -/
structure Description where
  /-- The prose before the first example. -/
  text : Text
  /-- The examples in order. -/
  examples : List Example
  /-- The prose after the last example. -/
  footer : Text
deriving DecidableEq, Repr, Inhabited

/-- A text as a section of its own, or no section where it is empty. -/
def sectionOf (s : Text) : List Text := if s.isEmpty then [] else [s]

@[simp] theorem sectionOf_nil : sectionOf [] = [] := rfl

@[simp] theorem sectionOf_cons (c : Char) (s : Text) : sectionOf (c :: s) = [c :: s] := rfl

/-- Sections with a blank line between neighbours. -/
def joinSections (parts : List Text) : Text := joinWith ['\n', '\n'] parts

/-- The sections of an example: its intro, where it has one, and the block. -/
def Example.sections (e : Example) : List Text := sectionOf e.intro ++ [e.raw]

/-- The sections of a description in order. -/
def Description.sections (d : Description) : List Text :=
  sectionOf d.text ++ d.examples.flatMap Example.sections ++ sectionOf d.footer

/-- All parts of a description, a blank line between neighbours. -/
def Description.joined (d : Description) : Text := joinSections d.sections

end ComponentPages
