import Sentential.Text.CodePoints

/-!
# Blank characters and trimming

The blank characters are the white space of the Unicode character database together with the four
information separators U+001C to U+001F. Zero-width characters such as U+200B and U+FEFF are not
blank. `trim` removes the blank characters at both ends of a text and `isAllBlank` recognises the
texts of which it leaves nothing.
-/

namespace Sentential.Text

/-- The blank code points. -/
def blankRanges : List CodeRange :=
  [(0x9, 0xD), (0x1C, 0x20), (0x85, 0x85), (0xA0, 0xA0), (0x1680, 0x1680), (0x2000, 0x200A),
    (0x2028, 0x2029), (0x202F, 0x202F), (0x205F, 0x205F), (0x3000, 0x3000)]

/-- Blank characters. -/
def isBlank (c : Char) : Bool := covers blankRanges c.toNat

/-- Every character is blank. -/
def isAllBlank (cs : List Char) : Bool := cs.all isBlank

/-- The characters after the leading blanks. -/
def trimLeft (cs : List Char) : List Char := cs.dropWhile isBlank

/-- The characters before the trailing blanks. -/
def trimRight (cs : List Char) : List Char := (cs.reverse.dropWhile isBlank).reverse

/-- The characters without the blanks at either end. -/
def trim (cs : List Char) : List Char := trimRight (trimLeft cs)

/-- The text without the blanks at either end. -/
def trimmed (s : String) : String := String.ofList (trim s.toList)

theorem trimLeft_length_le (cs : List Char) : (trimLeft cs).length ≤ cs.length :=
  (List.dropWhile_sublist _).length_le

theorem trimRight_length_le (cs : List Char) : (trimRight cs).length ≤ cs.length := by
  simpa [trimRight] using
    (List.dropWhile_sublist (l := cs.reverse) (fun c => isBlank c)).length_le

theorem trim_length_le (cs : List Char) : (trim cs).length ≤ cs.length :=
  Nat.le_trans (trimRight_length_le _) (trimLeft_length_le _)

end Sentential.Text
