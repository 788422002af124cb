import Sentential.Decimal.Digits

/-!
# Decimal text of powers of two

`powerOfTwo n` writes 2 to the power `n`. A power with an exponent of zero or more is an integer and
is written in full. A power with a negative exponent is rounded to binary floating point with 53
bits and least exponent -1074, and written with the fewest significant digits that read back as the
same number; of two such decimals the nearer is written, and of two equally near ones the even one.
It is positional from 0.0001 upwards and in scientific form below. `Unwritable` lists the reasons
for which a power of two has no text.

The numbers below are counted in units of `2 ^ (-1076)`, a quarter of the least positive number, so
that every bound is a natural number.
-/

namespace Sentential.Decimal

/-- The exponent of the unit in which small numbers are counted. -/
def unitExponent : Nat := 1076

/-- The number of units that make one. -/
def one : Nat := Nat.pow 2 unitExponent

/-- The numbers that are rounded to `2 ^ (-k)`, in units: those from `low` to `high`. -/
structure Neighbourhood where
  low : Nat
  value : Nat
  high : Nat
  /-- Whether the bounds belong to the neighbourhood. -/
  closed : Bool

/-- The neighbourhood of `2 ^ (-k)`. The gap to the next larger number is `2 ^ (-k - 52)`, and the
gap to the next smaller one half of that, as long as these exceed the least positive number. The
bounds lie in the middle of the gaps; a bound is rounded to the number whose last bit is even. -/
def Neighbourhood.ofPower (k : Nat) : Neighbourhood :=
  let value := Nat.pow 2 (unitExponent - k)
  ⟨value - (if k < 1022 then Nat.pow 2 (1022 - k) else 2), value,
    value + (if k < 1022 then Nat.pow 2 (1023 - k) else 2), k < 1074⟩

/-- Whether the decimal `digits / 10 ^ places` lies in the neighbourhood. -/
def Neighbourhood.holds (b : Neighbourhood) (digits places : Nat) : Bool :=
  let scaled := digits * one
  let low := b.low * Nat.pow 10 places
  let high := b.high * Nat.pow 10 places
  if b.closed then low ≤ scaled && scaled ≤ high else low < scaled && scaled < high

/-- The decimal with the given number of places that lies in the neighbourhood and is nearest to its
value, if there is one. -/
def Neighbourhood.nearest? (b : Neighbourhood) (places : Nat) : Option Nat :=
  let scaled := b.value * Nat.pow 10 places
  let below := scaled / one
  let rest := scaled % one
  let upward := one < 2 * rest || (one == 2 * rest && below % 2 == 1)
  match b.holds below places, b.holds (below + 1) places with
  | true, true => some (if upward then below + 1 else below)
  | true, false => some below
  | false, true => some (below + 1)
  | false, false => none

/-- The first decimal in the neighbourhood when the number of places grows from `places`, as its
digits and its places; at most `fuel` numbers of places are tried. -/
def Neighbourhood.shortest (b : Neighbourhood) (places : Nat) : Nat → Nat × Nat
  | 0 => (b.value * Nat.pow 10 places / one, places)
  | fuel + 1 =>
      match b.nearest? places with
      | some digits => (digits, places)
      | none => b.shortest (places + 1) fuel

/-- A number in positional or scientific form, from its digits and its decimal places. Trailing
zeros are dropped first. -/
def format (digits places : Nat) : String :=
  let all := (Nat.toDigits 10 digits)
  let significant := (all.reverse.dropWhile (· == '0')).reverse
  let dropped := all.length - significant.length
  let places := places - dropped
  if places < significant.length + 4 then
    String.ofList ('0' :: '.' :: List.replicate (places - significant.length) '0' ++ significant)
  else
    let exponent := places + 1 - significant.length
    let mantissa :=
      match significant with
      | first :: second :: rest => first :: '.' :: second :: rest
      | short => short
    let power := Nat.toDigits 10 exponent
    String.ofList (mantissa ++ ['e', '-'] ++ List.replicate (2 - power.length) '0' ++ power)

/-- The text of 2 to the power `n`. -/
def powerOfTwo : Int → String
  | .ofNat n => toString (Nat.pow 2 n)
  | .negSucc n =>
      let k := n + 1
      if 1074 < k then "0.0"
      else
        let (digits, places) := (Neighbourhood.ofPower k).shortest 1 unitExponent
        format digits places

/-- Why 2 to the power `n` cannot be written beside `n`. -/
inductive Unwritable where
  /-- One of the two integers has too many digits. -/
  | tooManyDigits
  /-- The negative exponent is beyond all floating point numbers. -/
  | exponentTooLarge
  deriving DecidableEq

/-- The wording of a reason. -/
def Unwritable.message : Unwritable → String
  | .tooManyDigits =>
      s!"Exceeds the limit ({maxDigits} digits) for integer string conversion; "
        ++ "use sys.set_int_max_str_digits() to increase the limit"
  | .exponentTooLarge => "int too large to convert to float"

/-- The least number that is rounded to none of the floating point numbers with 53 bits, of which
the largest is `2 ^ 1024 - 2 ^ 971`. -/
def floatingBound : Nat := Nat.pow 2 1024 - Nat.pow 2 970

/-- Why 2 to the power `n` cannot be written beside `n`, if it cannot. -/
def unwritable? (n : Int) : Option Unwritable :=
  if maxInteger < n.natAbs then some .tooManyDigits
  else
    match n with
    | .ofNat k => if maxInteger < Nat.pow 2 k then some .tooManyDigits else none
    | .negSucc k => if floatingBound ≤ k + 1 then some .exponentTooLarge else none

end Sentential.Decimal
