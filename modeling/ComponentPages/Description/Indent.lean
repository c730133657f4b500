import ComponentPages.Text.Basic

/-!
# Common indentation

Comment text is indented as its surroundings are. The indentation that all lines share is taken
away and the lines keep their places to each other.

- **`indentWidth`** — the number of spaces and tabs in front of a line.
- **`commonIndent`** — the least width over the lines that are not blank.
- **`unindent`** — the text with the common indentation removed and its blank lines emptied.
- **`lines_unindent`** — its lines.
-/

namespace ComponentPages

/-- The number of spaces and tabs that a line begins with. -/
def indentWidth (line : Text) : Nat := (line.takeWhile isIndent).length

/-- The least indentation of the lines that are not blank, zero if all are. -/
def commonIndent (ls : List Text) : Nat :=
  (((ls.filter fun l => !isBlankText l).map indentWidth).min?).getD 0

/-- A line without the first `n` characters, empty if it is blank. -/
def outdentLine (n : Nat) (line : Text) : Text :=
  if isBlankText line then [] else line.drop n

/-- The lines without their common indentation. -/
def outdentLines (ls : List Text) : List Text := ls.map (outdentLine (commonIndent ls))

/-- The text without the common indentation of its lines. -/
def unindent (s : Text) : Text := joinLines (outdentLines (lines s))

/-- The lines of the unindented text are the outdented lines. -/
theorem lines_unindent (s : Text) : lines (unindent s) = outdentLines (lines s) := by
  apply lines_joinLines
  · simpa [outdentLines] using lines_ne_nil s
  · intro l hl
    obtain ⟨line, hline, rfl⟩ := List.mem_map.1 hl
    have hnl : '\n' ∉ line := not_mem_of_mem_splitOn hline
    unfold outdentLine
    split
    · simp
    · exact fun hmem => hnl (List.mem_of_mem_drop hmem)

end ComponentPages
