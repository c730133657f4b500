/-!
# Blank characters

White space over all of Unicode, and the two characters that indent a line.

- **`isBlank`** — the twenty-five white-space characters.
- **`isIndent`** — space and tab.
-/

namespace ComponentPages

/-- White space: the characters that separate words and that trimming removes. -/
def isBlank (c : Char) : Bool :=
  let n := c.toNat
  -- tab to carriage return, the space, the next-line control and the no-break space
  (9 ≤ n && n ≤ 13) || n == 0x20 || n == 0x85 || n == 0xA0 ||
    -- the spaces of scripts and widths
    n == 0x1680 || (0x2000 ≤ n && n ≤ 0x200A) || n == 0x202F || n == 0x205F || n == 0x3000 ||
    -- the separators of lines and paragraphs
    n == 0x2028 || n == 0x2029

/-- Space and tab: the characters that indent a line and that a removed directive may leave
double. -/
def isIndent (c : Char) : Bool :=
  c == ' ' || c == '\t'

/-- Whatever indents is blank. -/
theorem isBlank_of_isIndent {c : Char} (h : isIndent c = true) : isBlank c = true := by
  simp only [isIndent, Bool.or_eq_true, beq_iff_eq] at h
  rcases h with rfl | rfl <;> rfl

/-- Every character that core's ASCII class calls white space is blank. -/
theorem isBlank_of_isWhitespace {c : Char} (h : c.isWhitespace = true) : isBlank c = true := by
  simp only [Char.isWhitespace, Bool.or_eq_true, decide_eq_true_eq] at h
  rcases h with ((rfl | rfl) | rfl) | rfl <;> rfl

end ComponentPages
