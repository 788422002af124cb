import Sentential.Semantics.TruthTable
import Sentential.Text.Centre

/-!
# The text of truth tables

A table is printed with one column per variable and a last column, headed by a title, for the value
of the formula. Every cell is centred in the width of its column, which is that of the heading but
at least one. Values are written `T` and `F`; a `Palette` decides whether they are wrapped in
terminal colours, which takes place after centring, so that colours leave the layout alone.
-/

namespace Sentential

open Text

/-- Whether truth values are coloured. -/
inductive Palette where
  | plain
  | coloured
  deriving DecidableEq

/-- The letter of a truth value. -/
def truthLetter : Bool → Char
  | true => 'T'
  | false => 'F'

/-- The terminal sequence that begins the colour of a truth value: green or red. -/
def colourStart : Bool → List Char
  | true => ['\x1b', '[', '3', '2', 'm']
  | false => ['\x1b', '[', '3', '1', 'm']

/-- The terminal sequence that ends a colour. -/
def colourEnd : List Char := ['\x1b', '[', '0', 'm']

/-- The letter of a truth value in its colour. -/
def Palette.letter (palette : Palette) (value : Bool) : List Char :=
  match palette with
  | .plain => [truthLetter value]
  | .coloured => colourStart value ++ [truthLetter value] ++ colourEnd

/-- The cell of a truth value in a column of the given width. -/
def truthCell (palette : Palette) (width : Nat) (value : Bool) : List Char :=
  (centre width [truthLetter value]).flatMap fun c =>
    if c = truthLetter value then palette.letter value else [c]

/-- A line of cells with bars around them. -/
def barred (cells : List (List Char)) : List Char :=
  ['|', ' '] ++ [' ', '|', ' '].intercalate cells ++ [' ', '|']

/-- The width of a column. -/
def columnWidth (heading : List Char) : Nat := max 1 heading.length

/-- The line of headings. -/
def headingLine (headings : List (List Char)) : List Char :=
  barred (headings.map fun h => centre (columnWidth h) h)

/-- The line of one row of values. -/
def valueLine (palette : Palette) (headings : List (List Char)) (values : List Bool) : List Char :=
  barred ((headings.zip values).map fun (h, value) => truthCell palette (columnWidth h) value)

/-- The lines of a table: headings, a rule, the rows, and the rule again. -/
def tableLines (palette : Palette) (headings : List (List Char)) (rows : List (List Bool)) :
    List (List Char) :=
  let heading := headingLine headings
  let rule := List.replicate heading.length '-'
  [heading, rule] ++ rows.map (valueLine palette headings) ++ [rule]

/-- Why a table cannot be printed. -/
inductive RenderFault where
  /-- The title is the text of the formula, which is nested too deeply. -/
  | title (fault : EvaluationFault)
  /-- A row has no value for a column. -/
  | missing (name : String)
  deriving DecidableEq

/-- The wording of a render fault. -/
def RenderFault.message : RenderFault → String
  | .title fault => fault.message
  | .missing name => quoted name

namespace TruthTable

/-- The values of a row in the order of the columns, the value of the formula last. -/
def Row.values (columns : List String) (r : Row) : Except RenderFault (List Bool) := do
  let values ← columns.mapM fun name =>
    match r.assignment.value? name with
    | some value => .ok value
    | none => .error (.missing name)
  pure (values ++ [r.value])

/-- The title of a table: the given one, or the text of its formula. -/
def titleText (t : TruthTable) (title? : Option String) : Except RenderFault String :=
  match title? with
  | some title => .ok title
  | none => t.formula.boundedRender.mapError .title

/-- The lines of a table. -/
def lines (t : TruthTable) (title? : Option String) (palette : Palette) :
    Except RenderFault (List (List Char)) := do
  let title ← t.titleText title?
  let rows ← t.rows.mapM (Row.values t.columns)
  pure (tableLines palette ((t.columns ++ [title]).map String.toList) rows)

/-- The text of a table, without a line feed at its end. -/
def render (t : TruthTable) (title? : Option String) (palette : Palette) :
    Except RenderFault String := do
  let lines ← t.lines title? palette
  pure (String.ofList (['\n'].intercalate lines))

end TruthTable

/-- The text of a single value: the formula, an arrow, and the value. -/
def resultText (palette : Palette) (title : String) (value : Bool) : String :=
  title ++ " => " ++ String.ofList (truthCell palette 1 value)

end Sentential
