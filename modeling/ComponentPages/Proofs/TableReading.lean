import ComponentPages.Proofs.Lines
import ComponentPages.Table

/-!
# Reading a table

A table is read line by line, and a line is cut at its pipes, where a pipe after a backslash is part
of a cell. Every table that is written is read back: its columns, one line of dashes, and one line
for each row with a cell under every column.

- **`cutPipes`**, **`tableCells?`** — the pieces of a line between its pipes, and its cells.
- **`NoBarePipe`**, **`noBarePipe_cellText`** — what is written in a cell has no pipe that ends it.
- **`tableCells?_tableLine`**, **`length_tableLine`** — the cells and the length of a written line.
- **`read_renderTable`** — the whole table.
-/

namespace ComponentPages

/-! ## The reader -/

/-- A text cut at its pipes, those after a backslash left alone, given whether a backslash stands
before it. -/
def cutPipesFrom (afterBackslash : Bool) : Text → List Text
  | [] => [[]]
  | c :: rest =>
    if c = '|' ∧ !afterBackslash then [] :: cutPipesFrom false rest
    else
      match cutPipesFrom (c == '\\') rest with
      -- never met: there is always a first piece
      | [] => [[c]]
      | piece :: pieces => (c :: piece) :: pieces

/-- The pieces of a line between its pipes, where a pipe after a backslash is like any other
character. -/
def cutPipes (line : Text) : List Text := cutPipesFrom false line

/-- The cells of a line without the blanks around them. Nothing may stand before the first pipe or
after the last. -/
def tableCells? (line : Text) : Option (List Text) :=
  match cutPipes line with
  | [] :: pieces => if pieces.getLast? = some [] then some (pieces.dropLast.map trim) else none
  | _ => none

/-- A pipe ends the piece before it. -/
theorem cutPipesFrom_pipe (rest : Text) :
    cutPipesFrom false ('|' :: rest) = [] :: cutPipesFrom false rest := by
  rw [cutPipesFrom, if_pos ⟨rfl, rfl⟩]

/-- Any other character goes into the first piece. -/
theorem cutPipesFrom_cons {b : Bool} {c : Char} {rest piece : Text} {pieces : List Text}
    (hc : c = '|' → b = true) (hrest : cutPipesFrom (c == '\\') rest = piece :: pieces) :
    cutPipesFrom b (c :: rest) = (c :: piece) :: pieces := by
  rw [cutPipesFrom, if_neg, hrest]
  rintro ⟨hpipe, hb⟩
  rw [hc hpipe] at hb
  cases hb

/-! ## Texts without a bare pipe -/

/-- No pipe of the text ends a piece: each has a backslash before it. -/
def NoBarePipe (afterBackslash : Bool) : Text → Prop
  | [] => True
  | c :: rest => (c = '|' → afterBackslash = true) ∧ NoBarePipe (c == '\\') rest

/-- Without pipes there is no bare one. -/
theorem noBarePipe_of_not_mem {b : Bool} {s : Text} (h : '|' ∉ s) : NoBarePipe b s := by
  induction s generalizing b with
  | nil => trivial
  | cons c rest ih =>
    rw [List.mem_cons, not_or] at h
    exact ⟨fun hc => absurd hc.symm h.1, ih h.2⟩

/-- What follows a text without a bare pipe may hold none either. -/
theorem NoBarePipe.append {b : Bool} {s t : Text} (hs : NoBarePipe b s) (ht : '|' ∉ t) :
    NoBarePipe b (s ++ t) := by
  induction s generalizing b with
  | nil => exact noBarePipe_of_not_mem ht
  | cons c rest ih => exact ⟨hs.1, ih hs.2⟩

/-- What is written of a text has no bare pipe. A carriage return is left out, so a backslash may
come to stand before what follows it, and must not be counted on. -/
theorem noBarePipe_cellTextFrom {b b' : Bool} (hb : b = true → b' = true) (s : Text) :
    NoBarePipe b' (cellTextFrom b s) := by
  induction s generalizing b b' with
  | nil => trivial
  | cons c rest ih =>
    rw [cellTextFrom]
    split
    · next hc =>
      rw [hc, List.nil_append]
      exact ih fun h => by cases h
    · split
      · next hc =>
        rw [hc]
        exact ⟨fun h => absurd h (by decide), ih fun h => by cases h⟩
      · split
        · next hpipe =>
          rw [hpipe.1]
          exact ⟨fun h => absurd h (by decide), fun _ => rfl, ih fun h => by cases h⟩
        · next hpipe =>
          refine ⟨fun hc => hb ?_, ih id⟩
          by_contra hnot
          exact hpipe ⟨hc, by simpa using hnot⟩

/-- **A cell has no bare pipe.** -/
theorem noBarePipe_cellText (s : Text) : NoBarePipe false (cellText s) :=
  noBarePipe_cellTextFrom id s

/-- A cell is on one line. -/
theorem newline_not_mem_cellText (s : Text) : '\n' ∉ cellText s := by
  suffices h : ∀ b, '\n' ∉ cellTextFrom b s from h false
  induction s with
  | nil => simp [cellTextFrom]
  | cons c rest ih =>
    intro b
    rw [cellTextFrom, List.mem_append, not_or]
    refine ⟨?_, ih _⟩
    split
    · simp
    · split
      · simp
      · next hc => split <;> simp [Ne.symm hc]

/-- A text without a bare pipe and the space after it are one piece. -/
theorem cutPipesFrom_space_pipe {b : Bool} {s : Text} (h : NoBarePipe b s) (rest : Text) :
    cutPipesFrom b (s ++ ' ' :: '|' :: rest) = (s ++ [' ']) :: cutPipesFrom false rest := by
  induction s generalizing b with
  | nil => exact cutPipesFrom_cons (by simp) (cutPipesFrom_pipe rest)
  | cons c s ih => exact cutPipesFrom_cons h.1 (ih h.2)

/-! ## Written lines -/

/-- A text that fits is followed by at least one space where it is padded to one more than the
width. -/
theorem exists_padTo_succ {width : Nat} {s : Text} (h : s.length ≤ width) :
    ∃ n, padTo (width + 1) s = (s ++ List.replicate n ' ') ++ [' '] := by
  refine ⟨width - s.length, ?_⟩
  rw [padTo, Nat.succ_sub h, List.replicate_succ', List.append_assoc]

/-- Padding adds blanks alone. -/
theorem trim_padTo (width : Nat) (s : Text) : trim (' ' :: padTo width s) = trim s := by
  have hblanks : isBlankText (List.replicate (width - s.length) ' ') = true :=
    List.all_eq_true.2 fun c hc => by rw [List.eq_of_mem_replicate hc]; rfl
  have hstart : trimStart (' ' :: padTo width s) = trimStart (padTo width s) :=
    trimStart_append_of_blank (s := [' ']) rfl (padTo width s)
  rw [← trim_trimStart, hstart, trim_trimStart, ← trim_trimEnd, padTo,
    trimEnd_append_of_blank s hblanks, trim_trimEnd]

/-- A padded text is as long as the width, where it fits. -/
theorem length_padTo {width : Nat} {s : Text} (h : s.length ≤ width) :
    (padTo width s).length = width := by
  rw [padTo, List.length_append, List.length_replicate]
  omega

/-- What can be written into a line: texts that fit, on one line and without a bare pipe. -/
structure FitsLine (cells : List (Text × Nat)) : Prop where
  noPipe : ∀ c ∈ cells, NoBarePipe false c.1
  oneLine : ∀ c ∈ cells, '\n' ∉ c.1
  fits : ∀ c ∈ cells, c.1.length ≤ c.2

theorem FitsLine.of_cons {c : Text × Nat} {cells : List (Text × Nat)} (h : FitsLine (c :: cells)) :
    FitsLine cells where
  noPipe d hd := h.noPipe d (List.mem_cons_of_mem _ hd)
  oneLine d hd := h.oneLine d (List.mem_cons_of_mem _ hd)
  fits d hd := h.fits d (List.mem_cons_of_mem _ hd)

/-- The pieces of the cells of a line are the padded cells, and nothing after the last pipe. -/
theorem cutPipesFrom_cells {cells : List (Text × Nat)} (h : FitsLine cells) :
    cutPipesFrom false (cells.flatMap fun c => ' ' :: padTo (c.2 + 1) c.1 ++ ['|']) =
      (cells.map fun c => ' ' :: padTo (c.2 + 1) c.1) ++ [[]] := by
  induction cells with
  | nil => rfl
  | cons c cells ih =>
    have hfirst : c ∈ c :: cells := List.mem_cons_self ..
    obtain ⟨n, hpad⟩ := exists_padTo_succ (h.fits c hfirst)
    have hpiece : NoBarePipe false (' ' :: (c.1 ++ List.replicate n ' ')) := by
      refine ⟨by simp, (h.noPipe c hfirst).append fun hmem => ?_⟩
      cases List.eq_of_mem_replicate hmem
    have hcut := cutPipesFrom_space_pipe hpiece
      (cells.flatMap fun c => ' ' :: padTo (c.2 + 1) c.1 ++ ['|'])
    rw [ih h.of_cons] at hcut
    rw [List.flatMap_cons, List.map_cons, hpad]
    simpa using hcut

/-- **The cells of a written line** are the texts that were written, up to blanks around them. -/
theorem tableCells?_tableLine {cells : List (Text × Nat)} (h : FitsLine cells) :
    tableCells? (tableLine cells) = some (cells.map fun c => trim c.1) := by
  have hcut : cutPipes (tableLine cells) =
      [] :: ((cells.map fun c => ' ' :: padTo (c.2 + 1) c.1) ++ [[]]) := by
    rw [cutPipes, tableLine, cutPipesFrom_pipe]
    exact congrArg ([] :: ·) (cutPipesFrom_cells h)
  rw [tableCells?, hcut]
  dsimp only
  rw [if_pos (List.getLast?_concat ..), List.dropLast_concat, List.map_map]
  exact congrArg some (List.map_congr_left fun c _ => trim_padTo (c.2 + 1) c.1)

/-- **The length of a written line** depends on the widths alone. -/
theorem length_tableLine {cells : List (Text × Nat)} (h : FitsLine cells) :
    (tableLine cells).length = 1 + (cells.map Prod.snd).foldr (fun w n => w + 3 + n) 0 := by
  rw [tableLine, List.length_cons, Nat.add_comm]
  congr 1
  induction cells with
  | nil => rfl
  | cons c cells ih =>
    have hfits := h.fits c (List.mem_cons_self ..)
    rw [List.flatMap_cons, List.length_append, ih h.of_cons, List.map_cons, List.foldr_cons,
      List.length_append, List.length_cons, length_padTo (by omega), List.length_singleton]

/-- A written line is one line. -/
theorem newline_not_mem_tableLine {cells : List (Text × Nat)} (h : FitsLine cells) :
    '\n' ∉ tableLine cells := by
  rw [tableLine, List.mem_cons, not_or]
  refine ⟨by decide, fun hmem => ?_⟩
  obtain ⟨c, hc, hcell⟩ := List.mem_flatMap.1 hmem
  simp only [padTo, List.cons_append, List.append_assoc, List.mem_cons, List.mem_append,
    List.mem_replicate] at hcell
  rcases hcell with hspace | hcell | hspace | hpipe
  · cases hspace
  · exact h.oneLine c hc hcell
  · cases hspace.2
  · simp at hpipe

/-! ## Columns -/

/-- A running maximum is at least what it starts with and all it has met. -/
theorem le_foldl_max (ns : List Nat) (n : Nat) :
    n ≤ ns.foldl max n ∧ ∀ m ∈ ns, m ≤ ns.foldl max n := by
  induction ns generalizing n with
  | nil => exact ⟨Nat.le_refl n, fun m hm => by cases hm⟩
  | cons k ns ih =>
    obtain ⟨hstart, hmet⟩ := ih (max n k)
    refine ⟨(Nat.le_max_left n k).trans hstart, fun m hm => ?_⟩
    rcases List.mem_cons.1 hm with rfl | hm
    · exact (Nat.le_max_right n m).trans hstart
    · exact hmet m hm

/-- A column is as wide as its name. -/
theorem length_le_columnWidth (rows : List TableRow) (column : Text) :
    column.length ≤ columnWidth rows column :=
  (le_foldl_max _ _).1

/-- The cell of a row in a column is the first with the name of the column. -/
theorem cellIn_eq (row : TableRow) (column : Text) :
    cellIn row column =
      ((row.entries.find? fun e => cellText e.1 = column).map fun e => cellText e.2).getD [] := by
  rw [cellIn, writtenCells, List.find?_map, Option.map_map]
  rfl

/-- A cell is empty or the written text of an entry under a column of that name. -/
theorem cellIn_cases (row : TableRow) (column : Text) :
    cellIn row column = [] ∨
      ∃ e ∈ row.entries, cellText e.1 = column ∧ cellIn row column = cellText e.2 := by
  rw [cellIn_eq]
  cases hfind : row.entries.find? fun e => decide (cellText e.1 = column) with
  | none => exact .inl rfl
  | some e =>
    exact .inr ⟨e, List.mem_of_find?_eq_some hfind, by simpa using List.find?_some hfind, rfl⟩

/-- A column is as wide as each of its cells. -/
theorem length_cellIn_le {rows : List TableRow} {row : TableRow} (hrow : row ∈ rows)
    (column : Text) : (cellIn row column).length ≤ columnWidth rows column := by
  rcases cellIn_cases row column with hnil | ⟨e, he, hcolumn, hcell⟩
  · rw [hnil]
    exact Nat.zero_le _
  · rw [hcell]
    refine (le_foldl_max _ _).2 _ (List.mem_map.2 ⟨(cellText e.1, cellText e.2), ?_, rfl⟩)
    refine List.mem_filter.2 ⟨List.mem_flatMap.2 ⟨row, hrow, ?_⟩, by simpa using hcolumn⟩
    exact List.mem_map.2 ⟨e, he, rfl⟩

/-- The columns are the distinct names of the cells, in the order in which they come up. -/
theorem columns_eq (rows : List TableRow) :
    columns rows = (rows.flatMap fun row => row.keys.map cellText).eraseDups := by
  rw [columns, List.map_flatMap]
  congr 2
  funext row
  rw [writtenCells, OrderedMap.keys, keysOf, List.map_map, List.map_map]
  rfl

/-- A column is the written form of a name. -/
theorem exists_of_mem_columns {rows : List TableRow} {column : Text} (h : column ∈ columns rows) :
    ∃ name, column = cellText name := by
  rw [columns_eq, List.mem_eraseDups, List.mem_flatMap] at h
  obtain ⟨row, -, hcolumn⟩ := h
  obtain ⟨name, -, rfl⟩ := List.mem_map.1 hcolumn
  exact ⟨name, rfl⟩

/-- There are columns where there are cells. -/
theorem columns_ne_nil {rows : List TableRow} (h : ∃ row ∈ rows, row.entries ≠ []) :
    columns rows ≠ [] := by
  obtain ⟨row, hrow, hne⟩ := h
  obtain ⟨e, es, hentries⟩ := List.exists_cons_of_ne_nil hne
  refine List.ne_nil_of_mem (a := cellText e.1) ?_
  rw [columns_eq, List.mem_eraseDups, List.mem_flatMap]
  refine ⟨row, hrow, List.mem_map.2 ⟨e.1, ?_, rfl⟩⟩
  rw [OrderedMap.keys, keysOf, hentries]
  exact List.mem_cons_self ..

/-! ## The table -/

/-- The line of the names fits. -/
theorem fitsLine_header (rows : List TableRow) :
    FitsLine ((columns rows).map fun c => (c, columnWidth rows c)) := by
  refine ⟨fun c hc => ?_, fun c hc => ?_, fun c hc => ?_⟩ <;>
    obtain ⟨column, hcolumn, rfl⟩ := List.mem_map.1 hc
  · obtain ⟨name, rfl⟩ := exists_of_mem_columns hcolumn
    exact noBarePipe_cellText name
  · obtain ⟨name, rfl⟩ := exists_of_mem_columns hcolumn
    exact newline_not_mem_cellText name
  · exact length_le_columnWidth rows column

/-- The line of dashes fits. -/
theorem fitsLine_divider (widths : List Nat) :
    FitsLine (widths.map fun w => (dividerCell w, w)) := by
  have hdash {w : Nat} {c : Char} (hc : c ∈ dividerCell w) : c = '-' := List.eq_of_mem_replicate hc
  refine ⟨fun c hc => ?_, fun c hc => ?_, fun c hc => ?_⟩ <;>
    obtain ⟨w, -, rfl⟩ := List.mem_map.1 hc
  · exact noBarePipe_of_not_mem fun hmem => by cases hdash hmem
  · exact fun hmem => by cases hdash hmem
  · exact (List.length_replicate ..).le

/-- The line of a row fits. -/
theorem fitsLine_row {rows : List TableRow} {row : TableRow} (hrow : row ∈ rows)
    (columns : List Text) :
    FitsLine (columns.map fun c => (cellIn row c, columnWidth rows c)) := by
  refine ⟨fun c hc => ?_, fun c hc => ?_, fun c hc => ?_⟩ <;>
    obtain ⟨column, -, rfl⟩ := List.mem_map.1 hc
  · rcases cellIn_cases row column with hnil | ⟨e, -, -, hcell⟩
    · rw [hnil]; trivial
    · rw [hcell]; exact noBarePipe_cellText e.2
  · rcases cellIn_cases row column with hnil | ⟨e, -, -, hcell⟩
    · rw [hnil]; exact List.not_mem_nil
    · rw [hcell]; exact newline_not_mem_cellText e.2
  · exact length_cellIn_le hrow column

/-- Lines with a line end each are the lines of the text, and nothing after the last line end. -/
theorem lines_flatMap_newline {ls : List Text} (h : ∀ l ∈ ls, '\n' ∉ l) :
    lines (ls.flatMap fun l => l ++ ['\n']) = ls ++ [[]] := by
  induction ls with
  | nil => rfl
  | cons l ls ih =>
    have hl : lines l = [l] := splitOn_of_not_mem (h l (List.mem_cons_self ..))
    have hrest := ih fun m hm => h m (List.mem_cons_of_mem _ hm)
    rw [List.flatMap_cons, List.append_assoc, List.singleton_append, lines_append_newline, hl,
      hrest, List.singleton_append, List.cons_append]

/-- The lines of a table are its header, its divider and one for each row, of cells with their
widths. -/
theorem tableLines_eq (rows : List TableRow) (columns : List Text) :
    tableLines rows columns =
      tableLine (columns.map fun c => (c, columnWidth rows c)) ::
        tableLine ((columns.map (columnWidth rows)).map fun w => (dividerCell w, w)) ::
          rows.map fun row =>
            tableLine (columns.map fun c => (cellIn row c, columnWidth rows c)) := by
  have hheader : columns.zip (columns.map (columnWidth rows)) =
      columns.map fun c => (c, columnWidth rows c) := by
    simpa using List.zip_map' (f := id) (g := columnWidth rows) (l := columns)
  rw [tableLines, hheader]
  simp only [List.zip_map']

/-- A table that has columns is its lines. -/
theorem renderTable_of_ne_nil {rows : List TableRow} (h : columns rows ≠ []) :
    renderTable rows = (tableLines rows (columns rows)).flatMap fun line => line ++ ['\n'] := by
  unfold renderTable
  split
  · next hnil => exact absurd hnil h
  · rfl

/-- **A table is read back.** Where there is a cell, the lines of the table are one with the
distinct names of its columns in the order in which they come up, one of dashes, and one for each
row, which has under each name the first cell of the row with this name or else a blank one. All
lines are equally long, and the last one is ended. -/
theorem read_renderTable {rows : List TableRow} (h : ∃ row ∈ rows, row.entries ≠ []) :
    let names := (rows.flatMap fun row => row.keys.map cellText).eraseDups
    ∃ header divider body,
      lines (renderTable rows) = header :: divider :: body ++ [[]] ∧
        tableCells? header = some (names.map trim) ∧
        (∃ widths : List Nat, widths.length = names.length ∧
          tableCells? divider = some (widths.map fun w => List.replicate w '-')) ∧
        body.map tableCells? = rows.map (fun row => some (names.map fun name =>
          trim (((row.entries.find? fun e => cellText e.1 = name).map
            fun e => cellText e.2).getD []))) ∧
        ∀ l ∈ divider :: body, l.length = header.length := by
  intro names
  have hnames : columns rows = names := columns_eq rows
  have hheader := fitsLine_header rows
  have hdivider := fitsLine_divider ((columns rows).map (columnWidth rows))
  have hrow {row : TableRow} (hmem : row ∈ rows) := fitsLine_row hmem (columns rows)
  rw [renderTable_of_ne_nil (columns_ne_nil h), tableLines_eq]
  refine ⟨_, _, _, lines_flatMap_newline fun l hl => ?_, ?_,
    ⟨(columns rows).map (columnWidth rows), ?_, ?_⟩, ?_, fun l hl => ?_⟩
  · rcases List.mem_cons.1 hl with rfl | hl
    · exact newline_not_mem_tableLine hheader
    · rcases List.mem_cons.1 hl with rfl | hl
      · exact newline_not_mem_tableLine hdivider
      · obtain ⟨row, hmem, rfl⟩ := List.mem_map.1 hl
        exact newline_not_mem_tableLine (hrow hmem)
  · rw [tableCells?_tableLine hheader, List.map_map, ← hnames]
    rfl
  · rw [List.length_map, hnames]
  · rw [tableCells?_tableLine hdivider, List.map_map]
    exact congrArg some (List.map_congr_left fun w _ => trim_replicate rfl w)
  · rw [List.map_map]
    refine List.map_congr_left fun row hmem => ?_
    rw [Function.comp_apply, tableCells?_tableLine (hrow hmem), List.map_map, ← hnames]
    exact congrArg some (List.map_congr_left fun name _ => congrArg trim (cellIn_eq row name))
  · have hlength : l.length = 1 +
        ((columns rows).map (columnWidth rows)).foldr (fun w n => w + 3 + n) 0 := by
      rcases List.mem_cons.1 hl with rfl | hl
      · rw [length_tableLine hdivider, List.map_map (g := Prod.snd)]
        simp only [Function.comp_def, List.map_id']
      · obtain ⟨row, hmem, rfl⟩ := List.mem_map.1 hl
        rw [length_tableLine (hrow hmem), List.map_map (g := Prod.snd)]
        rfl
    rw [hlength, length_tableLine hheader, List.map_map (g := Prod.snd)]
    rfl

/-- Three rows: two with names that are written alike, cells that hold pipes and line ends or end in
a backslash, and a row without cells. -/
def raggedRows : List TableRow :=
  [.ofList [("a|b".toList, "x\\|y|".toList), ("c\r\nd\\".toList, "one\ntwo\\".toList)],
    .ofList [(" e".toList, "\\\r|".toList), ("a|b".toList, []), ("a\\|b".toList, "z".toList)],
    .empty]

/-- The names that are written alike are one column, whose first cell counts. -/
theorem read_renderTable_ragged :
    (∃ row ∈ raggedRows, row.entries ≠ []) ∧
      ∃ header divider body,
        lines (renderTable raggedRows) = header :: divider :: body ++ [[]] ∧
          tableCells? header = some (["a\\|b", "c d\\", "e"].map String.toList) ∧
          (∃ widths : List Nat, widths.length = 3 ∧
            tableCells? divider = some (widths.map fun w => List.replicate w '-')) ∧
          body.map tableCells? =
            ([["x\\|y\\|", "one two\\", ""], ["", "", "\\\\|"], ["", "", ""]].map fun cells =>
              some (cells.map String.toList)) ∧
          ∀ l ∈ divider :: body, l.length = header.length := by
  have hcells : ∃ row ∈ raggedRows, row.entries ≠ [] := by decide
  obtain ⟨header, divider, body, hlines, hheader, hdivider, hbody, hlength⟩ :=
    read_renderTable hcells
  refine ⟨hcells, header, divider, body, hlines, ?_, ?_, ?_, hlength⟩
  · rw [hheader]
    decide +kernel
  · obtain ⟨widths, hwidths, hdashes⟩ := hdivider
    refine ⟨widths, ?_, hdashes⟩
    rw [hwidths]
    decide +kernel
  · rw [hbody]
    decide +kernel

end ComponentPages
