import ComponentPages.Proofs.ToldParts

/-!
# Code cells read back

A value that stands as code in a table cell can be read out of the cell again, whatever it holds:
entities, code elements and backticks of its own are told from those of the cell.

- **`spacesForLineEnds`** — the value as it is read back: a space for each line end.
- **`encodeMarkup`**, **`encodePipe`** — the two stages in which a code element is escaped, one
  character at a time.
- **`unescape`** — a text with the four entities of a cell replaced, in one pass from its front.
- **`readCode?`** — the value in a cell: what stands in its code element, or else between its
  backticks.
- **`readCode?_codeCell`** — a cell is one line without a pipe, reads back as its value, and is
  the cell of no other value.
-/

namespace ComponentPages

/-! ## Line ends -/

/-- The text with a space for each line end, of one character or of two. -/
def spacesForLineEnds : Text → Text
  | '\r' :: '\n' :: rest => ' ' :: spacesForLineEnds rest
  | '\n' :: rest => ' ' :: spacesForLineEnds rest
  | c :: rest => c :: spacesForLineEnds rest
  | [] => []

/-- Line ends of both kinds are made into line feeds first, and those into spaces. -/
theorem onOneLine_eq (s : Text) : onOneLine s = spacesForLineEnds s := by
  fun_induction spacesForLineEnds s with
  | case1 rest ih => simpa [onOneLine, unixLines] using ih
  | case2 rest ih => simpa [onOneLine, unixLines] using ih
  | case3 c rest hpair hline ih =>
    have hc : c ≠ '\n' := fun heq => hline heq
    have hunix : unixLines (c :: rest) = c :: unixLines rest := by
      rw [unixLines]
      exact fun tail hcr hrest => hpair tail hcr hrest
    rw [onOneLine, hunix, List.map_cons, if_neg hc]
    exact congrArg (c :: ·) ih
  | case4 => rfl

/-! ## Two stages of escaping -/

/-- A character that markup is made of, as an entity. -/
def encodeMarkup (c : Char) : Text :=
  if c = '&' then "&amp;".toList
  else if c = '<' then "&lt;".toList
  else if c = '>' then "&gt;".toList
  else [c]

/-- The pipe as an entity. -/
def encodePipe (c : Char) : Text := if c = '|' then "&#124;".toList else [c]

/-- No pipe is left where each is an entity. -/
theorem pipe_not_mem_encodePipe (s : Text) : '|' ∉ s.flatMap encodePipe := by
  intro hmem
  obtain ⟨c, -, hc⟩ := List.mem_flatMap.1 hmem
  unfold encodePipe at hc
  split at hc
  · exact absurd hc (by decide)
  · next hne => exact hne (List.mem_singleton.1 hc).symm

/-- The pipe is escaped in what the first stage leaves: the entities of that stage hold none. -/
theorem encodePipe_encodeMarkup (c : Char) :
    (encodeMarkup c).flatMap encodePipe = encodeEntity c := by
  unfold encodeMarkup encodeEntity
  split_ifs with hamp hlt hgt hpipe
  · decide
  · decide
  · decide
  · rw [List.flatMap_singleton, encodePipe, if_pos hpipe]
  · rw [List.flatMap_singleton, encodePipe, if_neg hpipe]

/-- One pass over the characters is as good as the two stages. -/
theorem flatMap_encodeEntity (s : Text) :
    s.flatMap encodeEntity = (s.flatMap encodeMarkup).flatMap encodePipe := by
  rw [List.flatMap_assoc]
  exact congrArg s.flatMap (funext fun c => (encodePipe_encodeMarkup c).symm)

/-! ## One pass of unescaping -/

/-- The text with each of the four entities replaced by its character, from the front on: what an
entity was replaced by is not read again. -/
def unescape : Text → Text
  | '&' :: 'a' :: 'm' :: 'p' :: ';' :: rest => '&' :: unescape rest
  | '&' :: 'l' :: 't' :: ';' :: rest => '<' :: unescape rest
  | '&' :: 'g' :: 't' :: ';' :: rest => '>' :: unescape rest
  | '&' :: '#' :: '1' :: '2' :: '4' :: ';' :: rest => '|' :: unescape rest
  | c :: rest => c :: unescape rest
  | [] => []

/-- A character that begins no entity is left as it is. -/
theorem unescape_cons {c : Char} (hc : c ≠ '&') (rest : Text) :
    unescape (c :: rest) = c :: unescape rest := by
  rw [unescape] <;> exact fun _ heq => absurd heq hc

/-- An escaped character is read back, whatever follows it. -/
theorem unescape_encodeEntity_append (c : Char) (rest : Text) :
    unescape (encodeEntity c ++ rest) = c :: unescape rest := by
  unfold encodeEntity
  split_ifs with hamp hlt hgt hpipe
  · rw [hamp]; rfl
  · rw [hlt]; rfl
  · rw [hgt]; rfl
  · rw [hpipe]; rfl
  · exact unescape_cons hamp rest

/-- An escaped text is read back. -/
theorem unescape_flatMap_encodeEntity (s : Text) : unescape (s.flatMap encodeEntity) = s := by
  induction s with
  | nil => rfl
  | cons c s ih => rw [List.flatMap_cons, unescape_encodeEntity_append, ih]

/-! ## Reading -/

/-- What comes before `part` in a text that ends with it. -/
def beforePart? (part s : Text) : Option Text :=
  (afterPart? part.reverse s.reverse).map List.reverse

/-- What stands between `front` at the front of a text and `back` at its end. -/
def between? (front back s : Text) : Option Text :=
  (afterPart? front s).bind (beforePart? back)

/-- The value that stands in a cell as code. -/
def readCode? (cell : Text) : Option Text :=
  ((between? "<code>".toList "</code>".toList cell).map unescape).or
    (between? [backtick] [backtick] cell)

/-- Reading a part off the end undoes putting it there. -/
theorem beforePart?_append (s part : Text) : beforePart? part (s ++ part) = some s := by
  rw [beforePart?, List.reverse_append, afterPart?_append, Option.map_some, List.reverse_reverse]

/-- What was put between two parts is read back. -/
theorem between?_append (front s back : Text) :
    between? front back (front ++ s ++ back) = some s := by
  rw [between?, List.append_assoc, afterPart?_append, Option.bind_some, beforePart?_append]

/-! ## Cells -/

/-- A value without backticks and pipes has no code element: its cell begins with a backtick. -/
theorem between?_code_backtick (s : Text) :
    between? "<code>".toList "</code>".toList (backtick :: s) = none := rfl

/-- A cell reads back as its value on one line. -/
theorem readCode?_codeCell_eq (value : Text) :
    readCode? (codeCell value) = some (onOneLine value) := by
  unfold codeCell
  dsimp only
  split
  · rw [readCode?, between?_append, Option.map_some, unescape_flatMap_encodeEntity, Option.some_or]
  · have hplain : backtick :: onOneLine value ++ [backtick] =
        [backtick] ++ onOneLine value ++ [backtick] := rfl
    rw [readCode?, List.cons_append, between?_code_backtick, Option.map_none, Option.none_or,
      ← List.cons_append, hplain, between?_append]

/-- No pipe of a value is left in its cell. -/
theorem pipe_not_mem_codeCell (value : Text) : '|' ∉ codeCell value := by
  unfold codeCell
  dsimp only
  split
  · rw [flatMap_encodeEntity, List.mem_append, List.mem_append, not_or, not_or]
    exact ⟨⟨by decide, pipe_not_mem_encodePipe _⟩, by decide⟩
  · next hnone =>
    have hflat : '|' ∉ onOneLine value := fun hmem =>
      hnone (List.any_eq_true.2 ⟨'|', hmem, by decide⟩)
    rw [List.cons_append, List.mem_cons, List.mem_append, not_or, not_or]
    exact ⟨by decide, hflat, by decide⟩

/-- **A code cell reads back.** It is one line without a pipe, so that it ends neither its row nor
itself, and it is read as its value with a space for each line end. So two values have the same
cell exactly if they are equal up to that. -/
theorem readCode?_codeCell :
    (∀ v, '\n' ∉ codeCell v ∧ '|' ∉ codeCell v ∧
      readCode? (codeCell v) = some (spacesForLineEnds v)) ∧
    ∀ v w, codeCell v = codeCell w ↔ spacesForLineEnds v = spacesForLineEnds w := by
  have hread (v : Text) : readCode? (codeCell v) = some (spacesForLineEnds v) := by
    rw [readCode?_codeCell_eq, onOneLine_eq]
  refine ⟨fun v => ⟨newline_not_mem_codeCell v, pipe_not_mem_codeCell v, hread v⟩,
    fun v w => ⟨fun hcell => ?_, fun hvalue => ?_⟩⟩
  -- the cell tells the value
  · have hsome : some (spacesForLineEnds v) = some (spacesForLineEnds w) := by
      rw [← hread v, ← hread w, hcell]
    exact Option.some.inj hsome
  -- the cell is made from the value on one line
  · rw [← onOneLine_eq, ← onOneLine_eq] at hvalue
    unfold codeCell
    rw [hvalue]

/-- An entity of the value is told from that of its pipe. -/
example : codeCell "&#124; | `".toList = "<code>&amp;#124; &#124; `</code>".toList ∧
    readCode? "<code>&amp;#124; &#124; `</code>".toList = some "&#124; | `".toList := by decide

end ComponentPages
