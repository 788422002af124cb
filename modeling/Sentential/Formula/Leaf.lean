import Sentential.Formula.Basic
import Sentential.Formula.Fault
import Sentential.Text.Blank

/-!
# Leaves

A leaf is the text of a constant or of a variable. A quoted name stands between quotation marks and
keeps them as part of the name; its inside must hold a visible character and no quotation mark. Any
other leaf is a constant glyph or a plain name, in which blanks, parentheses, quotation marks and
reserved characters have no place. `leaf` reads the text of a leaf.
-/

namespace Sentential

open Text

/-- Characters that a plain operand cannot contain, blanks apart. -/
def isForbidden (c : Char) : Bool :=
  isReserved c || c == openParen || c == closeParen || c == quoteMark

/-- The text begins and ends with a quotation mark of its own. -/
def isQuotedForm (cs : List Char) : Bool :=
  2 ≤ cs.length && cs.head? == some quoteMark && cs.getLast? == some quoteMark

/-- The text between the quotation marks of a quoted form. -/
def quotedInside (cs : List Char) : List Char := cs.tail.dropLast

/-- Reads the text of a leaf, without blanks at its ends. -/
def leaf (cs : List Char) : Except Defect Formula :=
  if isQuotedForm cs then
    if isAllBlank (quotedInside cs) then .error .emptyQuotedName
    else if quoteMark ∈ quotedInside cs then .error .strayQuote
    else .ok (.var (String.ofList cs))
  else if cs = [constGlyph true] then .ok (.const true)
  else if cs = [constGlyph false] then .ok (.const false)
  else if cs.any isForbidden then .error .unexpectedSymbol
  else if cs.any isBlank then .error .unexpectedBlank
  else .ok (.var (String.ofList cs))

end Sentential
