import ComponentPages.Text.Basic

/-!
# Code in a table cell

A value as inline code that does not end the cell it stands in.

- **`codeCell`** — backticks around the value, or a code element where the value has a backtick or
  a pipe.
-/

namespace ComponentPages

/-- The text on one line: every line end is a space. -/
def onOneLine (s : Text) : Text := (unixLines s).map fun c => if c = '\n' then ' ' else c

/-- A character inside a code element: markup characters and the pipe as entities. -/
def encodeEntity (c : Char) : Text :=
  if c = '&' then "&amp;".toList
  else if c = '<' then "&lt;".toList
  else if c = '>' then "&gt;".toList
  else if c = '|' then "&#124;".toList
  else [c]

/-- Whether a character rules out plain backticks. -/
def breaksCode (c : Char) : Bool := c == backtick || c == '|'

/-- A value as inline code that is safe in a table cell. -/
def codeCell (value : Text) : Text :=
  let flat := onOneLine value
  if flat.any breaksCode then
    "<code>".toList ++ flat.flatMap encodeEntity ++ "</code>".toList
  else backtick :: flat ++ [backtick]

end ComponentPages
