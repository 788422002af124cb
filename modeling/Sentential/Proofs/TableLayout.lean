import Sentential.Proofs.Answers

/-!
# The layout of a printed table

A line of cells begins with a bar and each cell is followed by one, so that the cell of a column
begins at `columnStart` and the whole line has `lineLength` characters (`columnText_barred`,
`length_barred`). A truth value is a single letter among blanks in its cell, at the place that
centring gives it (`truthCell_eq`), whatever the palette adds around the letter.

`lines_layout` describes every line of a plain table in these terms. In a row nothing but the
letters of the truth values is read as a value, so that all values can be read back from the lines,
whatever the names and the title hold.
-/

namespace Sentential

open Text

/-! ## Lines of cells -/

/-- Where the cell of a column begins in a line with cells of the given widths. -/
def columnStart (widths : List Nat) (column : Nat) : Nat :=
  2 + ((widths.take column).map (· + 3)).sum

/-- The length of a line with cells of the given widths. -/
def lineLength (widths : List Nat) : Nat := 1 + (widths.map (· + 3)).sum

/-- The cell of a column in a line with cells of the given widths. -/
def columnText (widths : List Nat) (column : Nat) (line : List Char) : List Char :=
  (line.drop (columnStart widths column)).take (widths.getD column 0)

/-- A cell with the blanks beside it and the bar behind it. -/
def cellAndBar (cell : List Char) : List Char := ' ' :: cell ++ [' ', '|']

theorem length_cellAndBar (cell : List Char) : (cellAndBar cell).length = cell.length + 3 := by
  simp [cellAndBar]

theorem length_flatMap_cellAndBar (cells : List (List Char)) :
    (cells.flatMap cellAndBar).length = ((cells.map List.length).map (· + 3)).sum := by
  induction cells with
  | nil => rfl
  | cons cell rest ih =>
      rw [List.flatMap_cons, List.length_append, ih, length_cellAndBar]
      rfl

/-- A line is a bar and then the cells with their bars. -/
theorem barred_eq {cells : List (List Char)} (h : cells ≠ []) :
    barred cells = '|' :: cells.flatMap cellAndBar := by
  obtain ⟨first, rest, rfl⟩ := List.exists_cons_of_ne_nil h
  -- the bar between two cells is the bar behind the first of them
  have hrest : ∀ first : List Char,
      ' ' :: [' ', '|', ' '].intercalate (first :: rest) ++ [' ', '|'] =
        (first :: rest).flatMap cellAndBar := by
    induction rest with
    | nil =>
        intro first
        simp [cellAndBar]
    | cons second rest ih =>
        intro first
        have := ih (List.cons_ne_nil _ _) second
        rw [List.flatMap_cons, ← this, List.intercalate_cons_cons, cellAndBar]
        simp
  rw [barred, ← hrest first]
  rfl

theorem length_barred {cells : List (List Char)} (h : cells ≠ []) :
    (barred cells).length = lineLength (cells.map List.length) := by
  rw [barred_eq h, List.length_cons, length_flatMap_cellAndBar, lineLength, Nat.add_comm]

/-- Each cell stands in its column. -/
theorem columnText_barred {cells : List (List Char)} {column : Nat} {cell : List Char}
    (h : cells[column]? = some cell) :
    columnText (cells.map List.length) column (barred cells) = cell := by
  obtain ⟨hlt, hcell⟩ := List.getElem?_eq_some_iff.1 h
  have hne : cells ≠ [] := List.ne_nil_of_length_pos (Nat.lt_of_le_of_lt (Nat.zero_le _) hlt)
  have hsplit : cells = cells.take column ++ cell :: cells.drop (column + 1) := by
    rw [← hcell, List.getElem_cons_drop, List.take_append_drop]
  have hwidth : (cells.map List.length).getD column 0 = cell.length := by
    rw [List.getD_eq_getElem?_getD, List.getElem?_map, h]
    rfl
  have hstart : columnStart (cells.map List.length) column =
      ('|' :: (cells.take column).flatMap cellAndBar ++ [' ']).length := by
    rw [columnStart, ← List.map_take, ← length_flatMap_cellAndBar]
    simp only [List.length_append, List.length_cons, List.length_nil]
    omega
  have hline : barred cells = ('|' :: (cells.take column).flatMap cellAndBar ++ [' ']) ++
      (cell ++ ([' ', '|'] ++ (cells.drop (column + 1)).flatMap cellAndBar)) := by
    rw [barred_eq hne]
    conv_lhs => rw [hsplit]
    rw [List.flatMap_append, List.flatMap_cons, cellAndBar]
    simp only [List.cons_append, List.append_assoc, List.nil_append]
  rw [columnText, hwidth, hstart, hline, List.drop_left, List.take_left]

/-! ## Cells of truth values -/

/-- The number of characters that a palette adds to a letter. -/
def Palette.extra : Palette → Nat
  | .plain => 0
  | .coloured => 9

theorem Palette.length_letter (palette : Palette) (value : Bool) :
    (palette.letter value).length = palette.extra + 1 := by
  cases palette <;> cases value <;> rfl

theorem truthLetter_ne_blank (value : Bool) : ' ' ≠ truthLetter value := by
  cases value <;> decide

/-- A single letter is never left with an odd number of blanks in a field of odd width. -/
theorem leftPad_one (width : Nat) : leftPad width 1 = (width - 1) / 2 := by
  simp only [leftPad]
  rw [if_neg (by omega), Nat.add_zero]

/-- The cell of a truth value is its letter among blanks. -/
theorem truthCell_eq (palette : Palette) (width : Nat) (value : Bool) :
    truthCell palette width value =
      List.replicate ((width - 1) / 2) ' ' ++ palette.letter value ++
        List.replicate (width - 1 - (width - 1) / 2) ' ' := by
  have hblanks : ∀ n : Nat, (List.replicate n ' ').flatMap
      (fun c => if c = truthLetter value then palette.letter value else [c]) =
        List.replicate n ' ' := by
    intro n
    induction n with
    | zero => rfl
    | succ n ih =>
        rw [List.replicate_succ, List.flatMap_cons, ih, if_neg (truthLetter_ne_blank value)]
        rfl
  simp only [truthCell, centre, List.length_singleton, leftPad_one, List.flatMap_append, hblanks]
  rw [List.flatMap_singleton, if_pos rfl]

theorem length_truthCell (palette : Palette) {width : Nat} (h : 0 < width) (value : Bool) :
    (truthCell palette width value).length = width + palette.extra := by
  rw [truthCell_eq]
  simp only [List.length_append, List.length_replicate, palette.length_letter]
  omega

/-! ## Lines of headings and of truth values -/

/-- The cells of the headings are as wide as their columns. -/
theorem map_length_headingCells (headings : List (List Char)) :
    (headings.map fun h => centre (columnWidth h) h).map List.length =
      headings.map columnWidth := by
  rw [List.map_map]
  apply List.map_congr_left
  intro h _
  rw [Function.comp_apply, length_centre, columnWidth, Nat.max_assoc, Nat.max_self]

theorem length_headingLine {headings : List (List Char)} (hne : headings ≠ []) :
    (headingLine headings).length = lineLength (headings.map columnWidth) := by
  rw [headingLine, length_barred (mt List.map_eq_nil_iff.1 hne), map_length_headingCells]

theorem columnText_headingLine {headings : List (List Char)} {column : Nat} {heading : List Char}
    (h : headings[column]? = some heading) :
    columnText (headings.map columnWidth) column (headingLine headings) =
      centre (columnWidth heading) heading := by
  rw [← map_length_headingCells, headingLine]
  apply columnText_barred
  rw [List.getElem?_map, h]
  rfl

section ValueLine

variable {palette : Palette} {headings : List (List Char)} {values : List Bool}

theorem columnWidth_pos (heading : List Char) : 0 < columnWidth heading :=
  Nat.le_max_left 1 heading.length

theorem zip_ne_nil (hne : headings ≠ []) (h : headings.length = values.length) :
    headings.zip values ≠ [] := by
  rw [ne_eq, List.zip_eq_nil_iff]
  rintro (hnil | rfl)
  · exact hne hnil
  · exact hne (List.length_eq_zero_iff.1 h)

/-- The cells of a line of values are as wide as the headings, and as much wider as the palette
makes them. -/
theorem map_length_cells (h : headings.length ≤ values.length) :
    ((headings.zip values).map fun (heading, value) =>
        truthCell palette (columnWidth heading) value).map List.length =
      (headings.map columnWidth).map (· + palette.extra) := by
  have hfst : (headings.zip values).map Prod.fst = headings := List.map_fst_zip h
  conv_rhs => rw [← hfst]
  rw [List.map_map, List.map_map, List.map_map]
  apply List.map_congr_left
  intro p _
  exact length_truthCell palette (columnWidth_pos p.1) p.2

theorem length_valueLine (hne : headings ≠ []) (h : headings.length = values.length) :
    (valueLine palette headings values).length =
      lineLength ((headings.map columnWidth).map (· + palette.extra)) := by
  rw [valueLine, length_barred (mt List.map_eq_nil_iff.1 (zip_ne_nil hne h)),
    map_length_cells (Nat.le_of_eq h)]

/-- The cell of a value under a heading, with the blanks beside it and the bar behind it. -/
def valueField (palette : Palette) (field : List Char × Bool) : List Char :=
  cellAndBar (truthCell palette (columnWidth field.1) field.2)

theorem valueField_eq (palette : Palette) (field : List Char × Bool) :
    valueField palette field =
      [' '] ++ List.replicate ((columnWidth field.1 - 1) / 2) ' ' ++ palette.letter field.2 ++
        List.replicate (columnWidth field.1 - 1 - (columnWidth field.1 - 1) / 2) ' ' ++
          [' ', '|'] := by
  rw [valueField, truthCell_eq, cellAndBar]
  simp only [List.append_assoc, List.cons_append, List.nil_append]

/-- A line of values is a bar and then the fields of the values. -/
theorem valueLine_eq (palette : Palette) (hne : headings ≠ [])
    (h : headings.length = values.length) :
    valueLine palette headings values =
      '|' :: (headings.zip values).flatMap (valueField palette) := by
  rw [valueLine, barred_eq (mt List.map_eq_nil_iff.1 (zip_ne_nil hne h)), List.flatMap_map]
  rfl

/-- Each value of a line stands in its column. -/
theorem columnText_valueLine (h : headings.length = values.length) {column : Nat}
    {heading : List Char} {value : Bool} (hheading : headings[column]? = some heading)
    (hvalue : values[column]? = some value) :
    columnText ((headings.map columnWidth).map (· + palette.extra)) column
        (valueLine palette headings values) =
      truthCell palette (columnWidth heading) value := by
  rw [← map_length_cells (Nat.le_of_eq h), valueLine]
  apply columnText_barred
  have hzip : (headings.zip values)[column]? = some (heading, value) :=
    List.getElem?_zip_eq_some.2 ⟨hheading, hvalue⟩
  rw [List.getElem?_map, hzip]
  rfl

end ValueLine

/-- The truth value that a letter stands for. -/
def truthValue? (c : Char) : Option Bool :=
  if c = truthLetter true then some true
  else if c = truthLetter false then some false
  else none

/-- The truth values whose letters stand in a line. -/
def readValues (line : List Char) : List Bool := line.filterMap truthValue?

theorem readValues_append (as bs : List Char) :
    readValues (as ++ bs) = readValues as ++ readValues bs :=
  List.filterMap_append

theorem readValues_blanks (n : Nat) : readValues (List.replicate n ' ') = [] :=
  List.filterMap_replicate_of_none (by decide)

theorem readValues_letter (value : Bool) : readValues [truthLetter value] = [value] := by
  cases value <;> decide

/-- A field holds one value, and there is none in its blanks and its bar. -/
theorem readValues_valueField (field : List Char × Bool) :
    readValues (valueField .plain field) = [field.2] := by
  have hopen : readValues [' '] = [] := by decide
  have hclose : readValues [' ', '|'] = [] := by decide
  simp only [valueField_eq, readValues_append, hopen, hclose, readValues_blanks, Palette.letter,
    readValues_letter]
  rfl

/-- Nothing but its values is read from a line of values. -/
theorem readValues_valueLine {headings : List (List Char)} {values : List Bool}
    (hne : headings ≠ [])
    (h : headings.length = values.length) :
    readValues (valueLine .plain headings values) = values := by
  have hfields : ∀ fields : List (List Char × Bool),
      readValues (fields.flatMap (valueField .plain)) = fields.map Prod.snd := by
    intro fields
    induction fields with
    | nil => rfl
    | cons field rest ih =>
        rw [List.flatMap_cons, readValues_append, ih, readValues_valueField]
        rfl
  have hbar : readValues ['|'] = [] := by decide
  rw [valueLine_eq _ hne h, ← List.singleton_append, readValues_append, hbar, hfields,
    List.map_snd_zip (Nat.le_of_eq h.symm)]
  rfl

/-- The values of the rows of a table, read from its lines: the heading, the rule below it and the
rule at the end are left out. -/
def readTable (lines : List (List Char)) : List (List Bool) :=
  (lines.drop 2).dropLast.map readValues

/-! ## Tables -/

namespace TruthTable

/-- The values of a row under the columns, the value of the formula last. -/
def Row.valuesUnder (columns : List String) (r : Row) : List Bool :=
  columns.map r.assignment.valuation ++ [r.value]

/-- The widths of the columns of a table: at least one, and enough for the heading. -/
def widths (t : TruthTable) (title : String) : List Nat :=
  (t.columns ++ [title]).map fun heading => max 1 heading.length

/-- The headings of a table as texts. -/
def headings (t : TruthTable) (title : String) : List (List Char) :=
  (t.columns ++ [title]).map String.toList

variable {t : TruthTable} {title? : Option String} {title : String}

theorem map_columnWidth_headings (t : TruthTable) (title : String) :
    (t.headings title).map columnWidth = t.widths title := by
  rw [headings, List.map_map]
  apply List.map_congr_left
  intro heading _
  rw [Function.comp_apply, columnWidth, String.length_toList]

theorem headings_ne_nil (t : TruthTable) (title : String) : t.headings title ≠ [] := by
  simp [headings]

theorem length_headings (t : TruthTable) (title : String) (r : Row) :
    (t.headings title).length = (r.valuesUnder t.columns).length := by
  simp [headings, Row.valuesUnder]

/-- The line of a row. -/
def rowLine (t : TruthTable) (palette : Palette) (title : String) (r : Row) : List Char :=
  valueLine palette (t.headings title) (r.valuesUnder t.columns)

/-- The rule below the headings and at the end. -/
def rule (t : TruthTable) (title : String) : List Char :=
  List.replicate (headingLine (t.headings title)).length '-'

theorem length_heading (t : TruthTable) (title : String) :
    (headingLine (t.headings title)).length = lineLength (t.widths title) := by
  rw [length_headingLine (headings_ne_nil t title), map_columnWidth_headings]

theorem length_rule (t : TruthTable) (title : String) :
    (t.rule title).length = lineLength (t.widths title) := by
  rw [rule, List.length_replicate, length_heading]

theorem length_rowLine (t : TruthTable) (palette : Palette) (title : String) (r : Row) :
    (t.rowLine palette title r).length = lineLength ((t.widths title).map (· + palette.extra)) := by
  rw [rowLine, length_valueLine (headings_ne_nil t title) (length_headings t title r),
    map_columnWidth_headings]

/-- The cell of a column in the line of a row is the letter of the value among blanks. -/
theorem columnText_rowLine {r : Row} {column width : Nat} {value : Bool}
    (hwidth : (t.widths title)[column]? = some width)
    (hvalue : (r.valuesUnder t.columns)[column]? = some value) (palette : Palette) :
    columnText ((t.widths title).map (· + palette.extra)) column (t.rowLine palette title r) =
      List.replicate ((width - 1) / 2) ' ' ++ palette.letter value ++
        List.replicate (width - 1 - (width - 1) / 2) ' ' := by
  rw [← map_columnWidth_headings] at hwidth ⊢
  rw [List.getElem?_map] at hwidth
  obtain ⟨heading, hcell, rfl⟩ := Option.map_eq_some_iff.1 hwidth
  rw [rowLine, columnText_valueLine (length_headings t title r) hcell hvalue, truthCell_eq]

/-- The lines of a table whose rows have a value for each column, with any palette. -/
theorem lines_eq (htitle : t.titleText title? = .ok title)
    (hrows : ∀ r ∈ t.rows, r.assignment.Covers t.columns) (palette : Palette) :
    t.lines title? palette =
      .ok ([headingLine (t.headings title), t.rule title] ++ t.rows.map (t.rowLine palette title) ++
        [t.rule title]) := by
  have hvalues :
      t.rows.mapM (Row.values t.columns) = .ok (t.rows.map (Row.valuesUnder t.columns)) := by
    apply mapM_eq_ok
    intro r hr
    exact values_of_covers (hrows r hr)
  have hbody : (t.rows.map (Row.valuesUnder t.columns)).map (valueLine palette (t.headings title)) =
      t.rows.map (t.rowLine palette title) := by
    rw [List.map_map]
    rfl
  rw [lines, htitle, hvalues, ← hbody]
  rfl

/-- The line of a row of the table, found by its number. -/
theorem rowLine_of_getElem? {palette : Palette} {i : Nat} {line : List Char} {r : Row}
    (hline : (t.rows.map (t.rowLine palette title))[i]? = some line) (hr : t.rows[i]? = some r) :
    line = t.rowLine palette title r := by
  rw [List.getElem?_map, hr] at hline
  exact (Option.some.inj hline).symm

/-- The text of a table are its lines with line feeds between them. -/
theorem render_eq {palette : Palette} {ls : List (List Char)}
    (h : t.lines title? palette = .ok ls) :
    t.render title? palette = .ok (String.ofList (['\n'].intercalate ls)) := by
  rw [render, h]
  rfl

/-- The lines of a plain table whose rows have a value for each column are the headings, a rule, one
line for each row in the order of the rows, and the rule again. All of them have the same length,
which the widths of the columns determine. In the line of a row the cell of each column holds
nothing but blanks and, at the place that centring gives a single character, the letter of the
value; the values of all rows can be read back from the lines. -/
theorem lines_layout (htitle : t.titleText title? = .ok title)
    (hrows : ∀ r ∈ t.rows, r.assignment.Covers t.columns) :
    ∃ (heading rule : List Char) (body : List (List Char)),
      t.lines title? .plain = .ok ([heading, rule] ++ body ++ [rule]) ∧
      t.render title? .plain =
        .ok (String.ofList (['\n'].intercalate ([heading, rule] ++ body ++ [rule]))) ∧
      (∀ line ∈ [heading, rule] ++ body ++ [rule], line.length = lineLength (t.widths title)) ∧
      (∀ c ∈ rule, c = '-') ∧
      (∀ column name, (t.columns ++ [title])[column]? = some name →
        columnText (t.widths title) column heading = centre (max 1 name.length) name.toList) ∧
      body.length = t.rows.length ∧
      (∀ (i : Nat) (line : List Char) (r : Row), body[i]? = some line → t.rows[i]? = some r →
        ∀ (column width : Nat) (value : Bool), (t.widths title)[column]? = some width →
          (r.valuesUnder t.columns)[column]? = some value →
          columnText (t.widths title) column line =
            List.replicate ((width - 1) / 2) ' ' ++ [truthLetter value] ++
              List.replicate (width - 1 - (width - 1) / 2) ' ') ∧
      readTable ([heading, rule] ++ body ++ [rule]) = t.rows.map (Row.valuesUnder t.columns) := by
  have hlines := lines_eq htitle hrows .plain
  have hwidths : (t.widths title).map (· + Palette.plain.extra) = t.widths title := List.map_id _
  refine ⟨_, _, _, hlines, render_eq hlines, ?_, ?_, ?_, ?_, ?_, ?_⟩
  · intro line hline
    simp only [List.mem_append, List.mem_cons, List.not_mem_nil, or_false, List.mem_map] at hline
    rcases hline with ((rfl | rfl) | ⟨r, -, rfl⟩) | rfl
    · exact length_heading t title
    · exact length_rule t title
    · rw [length_rowLine, hwidths]
    · exact length_rule t title
  · intro c hc
    exact (List.mem_replicate.1 hc).2
  · intro column name hname
    have hcell : (t.headings title)[column]? = some name.toList := by
      rw [headings, List.getElem?_map, hname]
      rfl
    rw [← map_columnWidth_headings, columnText_headingLine hcell, columnWidth, String.length_toList]
  · exact List.length_map _
  · intro i line r hline hr column width value hwidth hvalue
    have hcell := columnText_rowLine hwidth hvalue .plain
    rw [hwidths] at hcell
    rw [rowLine_of_getElem? hline hr, hcell]
    rfl
  · have hbody :
        (([headingLine (t.headings title), t.rule title] ++ t.rows.map (t.rowLine .plain title) ++
          [t.rule title]).drop 2).dropLast = t.rows.map (t.rowLine .plain title) :=
      List.dropLast_concat
    rw [readTable, hbody, List.map_map]
    apply List.map_congr_left
    intro r _
    exact readValues_valueLine (headings_ne_nil t title) (length_headings t title r)

/-- An empty name, a name with a bar and a line feed, and a title of even width. -/
theorem lines_layout_odd_names :
    let t : TruthTable :=
      ⟨.const true, ["", "a|b\nc"], [⟨⟨[("a|b\nc", true), ("", false)]⟩, true⟩]⟩
    t.titleText (some "door") = .ok "door" ∧ (∀ r ∈ t.rows, r.assignment.Covers t.columns) ∧
      t.widths "door" = [1, 5, 4] ∧
      ∃ ls, t.lines (some "door") .plain = .ok ls ∧ (∀ line ∈ ls, line.length = 20) ∧
        ls[2]? = some "| F |   T   |  T   |".toList ∧ readTable ls = [[false, true, true]] := by
  intro t
  have htitle : t.titleText (some "door") = .ok "door" := rfl
  have hrows : ∀ r ∈ t.rows, r.assignment.Covers t.columns := by decide
  have hwidths : t.widths "door" = [1, 5, 4] := by decide
  obtain ⟨heading, rule, body, hlines, -, hlength, -, -, -, -, hread⟩ := lines_layout htitle hrows
  have hthird : (t.lines (some "door") .plain).map (fun ls => ls[2]?) =
      .ok (some "| F |   T   |  T   |".toList) := by decide +kernel
  rw [hlines] at hthird
  rw [hwidths] at hlength
  exact ⟨htitle, hrows, hwidths, _, hlines, hlength, Except.ok.inj hthird, hread⟩

end TruthTable

end Sentential
