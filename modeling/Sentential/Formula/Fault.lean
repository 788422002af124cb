import Sentential.Formula.Parentheses

/-!
# Why a text is no formula

`ParseFault` lists the causes for which parsing fails. A malformed fragment is reported as it stands
(`malformed`) or, if it is an operand, by its operator (`operand`), with the fault of the operand
kept as the cause. `ParseFault.message` is the wording.
-/

namespace Sentential

/-- What is wrong with a malformed fragment. -/
inductive Defect where
  /-- Nothing but blanks where an operand is due. -/
  | emptyOperand
  /-- Text between the start of an operand and its first negation. -/
  | textBeforeNegation
  /-- A quoted name without a visible character. -/
  | emptyQuotedName
  /-- A quotation mark inside a quoted name. -/
  | strayQuote
  /-- A reserved character, a parenthesis or a quotation mark inside a plain operand. -/
  | unexpectedSymbol
  /-- A blank inside a plain operand. -/
  | unexpectedBlank
  deriving DecidableEq

/-- The wording of a defect. -/
def Defect.message : Defect → String
  | emptyOperand => "Empty operand"
  | textBeforeNegation => s!"Unexpected text before '{Operator.negation.glyph}'"
  | emptyQuotedName => "Empty quoted name"
  | strayQuote => "Stray quote inside quoted name"
  | unexpectedSymbol => "Unexpected symbol inside operand"
  | unexpectedBlank => "Unexpected whitespace inside operand"

/-- The place of an operand beside its operator. -/
inductive Role where
  | only
  | left
  | right
  deriving DecidableEq

/-- The wording of a role. -/
def Role.message : Role → String
  | only => "operand"
  | left => "left operand"
  | right => "right operand"

/-- Why a text is no formula. -/
inductive ParseFault where
  /-- The parentheses do not pair up. -/
  | unbalanced (fault : Imbalance)
  /-- A fragment is malformed, and no operator is to blame. -/
  | malformed (defect : Defect) (text : String)
  /-- An operand is missing or invalid; `text` is the fragment of the operator. -/
  | operand (op : Operator) (role : Role) (missing : Bool) (text : String) (cause : ParseFault)
  /-- The text, of the given length, is nested too deeply. -/
  | tooDeep (length : Nat)
  deriving DecidableEq

namespace ParseFault

/-- The wording for a missing or invalid operand, given the wording of the cause. -/
def operandReason (op : Operator) (role : Role) (missing : Bool) (cause : String) : String :=
  if missing then s!"'{op.glyph}' is missing its {role.message}"
  else s!"'{op.glyph}' has an invalid {role.message} ({cause})"

/-- The wording of a fault. -/
def message : ParseFault → String
  | unbalanced fault => fault.message
  | malformed defect text => s!"{defect.message}: '{text}'"
  | operand op role missing text cause =>
      s!"{operandReason op role missing cause.message}: '{text}'"
  | tooDeep length => s!"Formula nesting is too deep to parse ({length} characters)"

/-- The wording of a fault without the offending fragment; a fault that has none is worded in
full. -/
def reason : ParseFault → String
  | malformed defect _ => defect.message
  | operand op role missing _ cause => operandReason op role missing cause.message
  | fault => fault.message

/-- The operator to which a fault is attributed. -/
def operator? : ParseFault → Option Operator
  | operand op .. => some op
  | _ => none

/-- The fault behind an invalid or missing operand. -/
def cause? : ParseFault → Option ParseFault
  | operand _ _ _ _ cause => some cause
  | _ => none

end ParseFault

end Sentential
