import Sentential.Text.Printable

/-!
# Quoted literals

`quoted` writes a text as a literal: between apostrophes, or between quotation marks when the text
holds an apostrophe and no quotation mark. A backslash and the delimiter are escaped by a backslash,
line feed, carriage return and tab by their letters, and any other unprintable character by its code
point in lower-case hexadecimal, with two, four or eight digits. `quotedList` writes a list of
literals in brackets.
-/

namespace Sentential.Text

/-- A number in lower-case hexadecimal, padded with zeros to at least `width` digits. -/
def hexadecimal (width n : Nat) : List Char :=
  let digits := Nat.toDigits 16 n
  List.replicate (width - digits.length) '0' ++ digits

/-- The delimiter of the literal of a text. -/
def delimiter (cs : List Char) : Char :=
  if cs.contains '\'' && !cs.contains '"' then '"' else '\''

/-- One character of a literal between the delimiters `quote`. -/
def escaped (quote c : Char) : List Char :=
  if c == '\\' || c == quote then ['\\', c]
  else if c == '\n' then ['\\', 'n']
  else if c == '\r' then ['\\', 'r']
  else if c == '\t' then ['\\', 't']
  else if isPrintable c then [c]
  else if c.toNat < 0x100 then '\\' :: 'x' :: hexadecimal 2 c.toNat
  else if c.toNat < 0x10000 then '\\' :: 'u' :: hexadecimal 4 c.toNat
  else '\\' :: 'U' :: hexadecimal 8 c.toNat

/-- The literal of a text. -/
def quoted (s : String) : String :=
  let cs := s.toList
  let quote := delimiter cs
  String.ofList (quote :: cs.flatMap (escaped quote) ++ [quote])

/-- The literals of a list, separated by commas, between brackets. -/
def quotedList (ss : List String) : String :=
  "[" ++ ", ".intercalate (ss.map quoted) ++ "]"

end Sentential.Text
