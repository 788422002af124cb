/-!
# The length of integers

An integer that is read or written in decimal has at most `maxDigits` digits; `maxInteger` is the
largest number of that length.
-/

namespace Sentential.Decimal

/-- The number of digits that an integer may have. -/
def maxDigits : Nat := 4300

/-- The largest integer that can be written. -/
def maxInteger : Nat := Nat.pow 10 maxDigits - 1

end Sentential.Decimal
