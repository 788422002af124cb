import Sentential.Formula.Symbol
import Sentential.Text.Quoted

/-!
# Formulas

Propositional formulas over named variables. `Formula.render` writes a formula as normalized text
with every binary node in parentheses, `Formula.names` lists the variable occurrences from left to
right and `Formula.distinctNames` the names without repetitions, `Formula.height` is the nesting of
operators, and `Formula.outline` spells the tree out node by node.
-/

namespace Sentential

/-- Propositional formulas. -/
inductive Formula where
  | const (value : Bool)
  | var (name : String)
  | neg (operand : Formula)
  | binary (op : Connective) (left right : Formula)
  deriving DecidableEq

namespace Formula

/-- Normalized text of a formula: negations are prefixed, binary nodes stand in parentheses. -/
def render : Formula → String
  | const value => String.singleton (constGlyph value)
  | var name => name
  | neg operand => String.singleton Operator.negation.glyph ++ operand.render
  | binary op left right =>
      "(" ++ left.render ++ " " ++ String.singleton op.glyph ++ " " ++ right.render ++ ")"

/-- The number of operators on the longest path to a leaf. -/
def height : Formula → Nat
  | const _ => 0
  | var _ => 0
  | neg operand => operand.height + 1
  | binary _ left right => max left.height right.height + 1

/-- The variable occurrences from left to right. -/
def names : Formula → List String
  | const _ => []
  | var name => [name]
  | neg operand => operand.names
  | binary _ left right => left.names ++ right.names

/-- The distinct variables in the order of their first occurrences. -/
def distinctNames (f : Formula) : List String := f.names.eraseDups

/-- The name of the root node. -/
def nodeName : Formula → String
  | const _ => "Constant"
  | var _ => "Variable"
  | neg _ => Operator.negation.nodeName
  | binary op _ _ => op.nodeName

/-- The tree spelled out: each node is its name with its labelled parts in parentheses. -/
def outline : Formula → String
  | const value => "Constant(value=" ++ (if value then "True" else "False") ++ ")"
  | var name => "Variable(name=" ++ Text.quoted name ++ ")"
  | neg operand => "Not(operand=" ++ operand.outline ++ ")"
  | binary op left right =>
      op.nodeName ++ "(left=" ++ left.outline ++ ", right=" ++ right.outline ++ ")"

end Formula

end Sentential
