import Sentential.Formula.Basic
import Sentential.Decimal.PowerOfTwo
import Sentential.Semantics.Assignment

/-!
# Evaluation

`Formula.evaluate` computes the truth value of a formula under an assignment. Both operands of a
connective are evaluated, from left to right, so the first variable without a value is reported even
if the value of the formula is settled without it. A walk over a formula enters at most `walkLimit`
operators on any path. `EvaluationFault` lists what can go wrong with a formula that has been
parsed, and `EvaluationFault.refusal?` tells why a formula is given no truth table.
-/

namespace Sentential

/-- The truth function of a connective. -/
def Connective.apply : Connective → Bool → Bool → Bool
  | .and, x, y => x && y
  | .or, x, y => x || y
  | .xor, x, y => x != y
  | .implies, x, y => !x || y
  | .equals, x, y => x == y
  | .notEquals, x, y => x != y

/-- The walks over a formula. -/
inductive Walk where
  | traverse
  | evaluate
  | render
  deriving DecidableEq

/-- The wording of a walk. -/
def Walk.name : Walk → String
  | .traverse => "traverse"
  | .evaluate => "evaluate"
  | .render => "render"

/-- What can go wrong with a formula that has been parsed. -/
inductive EvaluationFault where
  /-- A variable has no value. -/
  | unbound (name : String)
  /-- A truth table would have more columns than the limit. -/
  | tooManyVariables (count : Nat) (limit : Int)
  /-- A number of rows cannot be written, be it that of the truth table or that at the limit. -/
  | unwritableRows (why : Decimal.Unwritable)
  /-- The operators are nested too deeply for a walk. -/
  | tooDeep (walk : Walk)
  deriving DecidableEq

/-- The wording of an evaluation fault. -/
def EvaluationFault.message : EvaluationFault → String
  | .unbound name => s!"Variable '{name}' does not have a value"
  | .tooManyVariables count limit =>
      s!"Formula has {count} variables, truth tables are limited to {limit} "
        ++ s!"({Decimal.powerOfTwo limit} rows)"
  | .unwritableRows why => why.message
  | .tooDeep walk => s!"Formula nesting is too deep to {walk.name}"

/-- The fault of a formula with more variables than the limit. -/
def EvaluationFault.overLimit (count : Nat) (limit : Int) : EvaluationFault :=
  match Decimal.unwritable? limit with
  | some why => .unwritableRows why
  | none => .tooManyVariables count limit

/-- Why a formula with `count` variables is given no truth table at a limit, if it is given none.
Within the limit the number of rows is written all the same. -/
def EvaluationFault.refusal? (count : Nat) (limit : Int) : Option EvaluationFault :=
  if limit < count then some (.overLimit count limit)
  else (Decimal.unwritable? count).map .unwritableRows

/-- The height up to which formulas are traversed and evaluated. -/
def walkLimit : Nat := 495

/-- The height up to which formulas are rendered. -/
def renderLimit : Nat := 330

namespace Formula

/-- Evaluates a formula, entering at most `limit` operators on any path. -/
def evaluateWithin (limit : Nat) (a : Assignment) : Formula → Except EvaluationFault Bool
  | .const value => .ok value
  | .var name =>
      match a.value? name with
      | some value => .ok value
      | none => .error (.unbound name)
  | .neg operand =>
      match limit with
      | 0 => .error (.tooDeep .evaluate)
      | rest + 1 => do
          let x ← operand.evaluateWithin rest a
          pure (!x)
  | .binary op left right =>
      match limit with
      | 0 => .error (.tooDeep .evaluate)
      | rest + 1 => do
          let x ← left.evaluateWithin rest a
          let y ← right.evaluateWithin rest a
          pure (op.apply x y)

/-- The truth value of a formula under an assignment. -/
def evaluate (f : Formula) (a : Assignment) : Except EvaluationFault Bool :=
  f.evaluateWithin walkLimit a

/-- The truth value of a formula under a valuation of all names. -/
def holds (valuation : String → Bool) : Formula → Bool
  | .const value => value
  | .var name => valuation name
  | .neg operand => !operand.holds valuation
  | .binary op left right => op.apply (left.holds valuation) (right.holds valuation)

/-- The variable occurrences of a formula with at most `limit` operators on any path. -/
def boundedNamesWithin (limit : Nat) (f : Formula) : Except EvaluationFault (List String) :=
  if f.height ≤ limit then .ok f.names else .error (.tooDeep .traverse)

/-- The variable occurrences of a formula that is not too deep. -/
def boundedNames (f : Formula) : Except EvaluationFault (List String) :=
  f.boundedNamesWithin walkLimit

/-- The text of a formula that is not too deep. -/
def boundedRender (f : Formula) : Except EvaluationFault String :=
  if f.height ≤ renderLimit then .ok f.render else .error (.tooDeep .render)

end Formula

end Sentential
