import Sentential.Decimal.Digits
import Sentential.Text.Blank
import Sentential.Text.Digit

/-!
# Reading integers

`readInteger?` reads a decimal integer: blanks, an optional sign, digits of any script with single
low lines between them, blanks. The information separators do not count as blanks here, and more
than `maxDigits` digits are refused. `isNegativeNumeral` recognises what looks like a negative
number on a command line.
-/

namespace Sentential.Decimal

open Text

/-- The blanks that may surround an integer. -/
def isPadding (c : Char) : Bool := isBlank c && !('\x1c' ≤ c && c ≤ '\x1f')

/-- The values of the digits of a numeral; each low line must stand between two digits. -/
def digitValues? : List Char → Option (List Nat)
  | [] => none
  | [c] => (digitValue? c).map fun d => [d]
  | c :: '_' :: rest =>
      match digitValue? c, digitValues? rest with
      | some d, some ds => some (d :: ds)
      | _, _ => none
  | c :: rest =>
      match digitValue? c, digitValues? rest with
      | some d, some ds => some (d :: ds)
      | _, _ => none

/-- The number with the given decimal digits. -/
def ofDigits (digits : List Nat) : Nat := digits.foldl (fun n d => 10 * n + d) 0

/-- Reads digits without a sign. -/
def readNatural? (cs : List Char) : Option Nat :=
  match digitValues? cs with
  | some digits => if digits.length ≤ maxDigits then some (ofDigits digits) else none
  | none => none

/-- Reads an integer. -/
def readInteger? (s : String) : Option Int :=
  let body := ((s.toList.dropWhile isPadding).reverse.dropWhile isPadding).reverse
  match body with
  | '+' :: digits => (readNatural? digits).map Int.ofNat
  | '-' :: digits => (readNatural? digits).map fun n => -(n : Int)
  | digits => (readNatural? digits).map Int.ofNat

/-- The text without a line feed at its end. -/
def dropFinalLineFeed (cs : List Char) : List Char :=
  if cs.getLast? = some '\n' then cs.dropLast else cs

/-- A minus sign and digits, with at most one point among them that is followed by a digit; a line
feed at the end is ignored. -/
def isNegativeNumeral (s : String) : Bool :=
  match dropFinalLineFeed s.toList with
  | '-' :: body =>
      match body.dropWhile isDigit with
      | [] => !body.isEmpty
      | '.' :: fraction => !fraction.isEmpty && fraction.all isDigit
      | _ => false
  | _ => false

end Sentential.Decimal
