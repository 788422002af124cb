import Sentential.Log.Traced
import Sentential.Semantics.Evaluation

/-!
# Truth tables

A `TruthTable` lists the value of a formula under assignments of its variables.
`TruthTable.ofFormula` evaluates a formula under every assignment, unless it has more variables than
a limit allows or the number of rows cannot be written, and `TruthTable.classification` says whether
the formula is true in all rows, in none, or in some.
-/

namespace Sentential

/-- One assignment and the value of the formula under it. -/
structure TruthTable.Row where
  assignment : Assignment
  value : Bool
  deriving DecidableEq

/-- The values of a formula under assignments of its variables. -/
structure TruthTable where
  formula : Formula
  /-- The distinct variables, one for each column. -/
  columns : List String
  rows : List TruthTable.Row
  deriving DecidableEq

/-- How the values of a truth table are spread. -/
inductive Classification where
  | tautology
  | contradiction
  | contingent
  deriving DecidableEq

/-- The name of a classification. -/
def Classification.name : Classification → String
  | .tautology => "tautology"
  | .contradiction => "contradiction"
  | .contingent => "contingent"

/-- The number of variables that a truth table may have if nothing else is said. -/
def defaultMaxVariables : Int := 16

namespace TruthTable

/-- The values of the rows. -/
def results (t : TruthTable) : List Bool := t.rows.map Row.value

/-- Every row is true. -/
def isTautology (t : TruthTable) : Bool := t.results.all id

/-- Some row is true. -/
def isSatisfiable (t : TruthTable) : Bool := t.results.any id

/-- No row is true. -/
def isContradiction (t : TruthTable) : Bool := !t.isSatisfiable

/-- The classification of a table; a table without rows is a tautology. -/
def classification (t : TruthTable) : Classification :=
  if t.isTautology then .tautology
  else if t.isContradiction then .contradiction
  else .contingent

/-- The row of an assignment, with at most `walk` operators on any path. -/
def rowWithin (walk : Nat) (f : Formula) (a : Assignment) : Except EvaluationFault Row :=
  (f.evaluateWithin walk a).map fun value => ⟨a, value⟩

/-- The truth table of a formula with at most `limit` variables and at most `walk` operators on any
path. -/
def ofFormulaWithin (walk : Nat) (f : Formula) (limit : Int) :
    Traced EvaluationFault TruthTable := do
  let names ← .ofExcept (f.boundedNamesWithin walk)
  let columns := names.eraseDups
  match EvaluationFault.refusal? columns.length limit with
  | some fault => .fail fault
  | none => do
      .note (.enumerating (Assignment.rowCount columns.length) columns)
      let rows ← .ofExcept ((Assignment.rows columns).mapM (rowWithin walk f))
      pure ⟨f, columns, rows⟩

/-- The truth table of a formula with at most `limit` variables that is not too deep. -/
def ofFormula (f : Formula) (limit : Int) : Traced EvaluationFault TruthTable :=
  ofFormulaWithin walkLimit f limit

end TruthTable

end Sentential
