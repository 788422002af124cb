/-!
# Centred text

`centre width cs` pads a text with spaces on both sides to the given width. An odd amount of padding
cannot be split evenly: the extra space stands on the left when the width is odd and on the right
when it is even. A text that fills the width is left as it is.
-/

namespace Sentential.Text

/-- The number of spaces before a text of length `length` in a field of width `width`. -/
def leftPad (width length : Nat) : Nat :=
  let pad := width - length
  pad / 2 + (if pad % 2 = 1 ∧ width % 2 = 1 then 1 else 0)

/-- The text padded with spaces on both sides to the width. -/
def centre (width : Nat) (cs : List Char) : List Char :=
  let left := leftPad width cs.length
  List.replicate left ' ' ++ cs ++ List.replicate (width - cs.length - left) ' '

theorem leftPad_le (width length : Nat) : leftPad width length ≤ width - length := by
  dsimp only [leftPad]
  split <;> omega

/-- A centred text has the width of its field, or its own length if that is larger. -/
theorem length_centre (width : Nat) (cs : List Char) :
    (centre width cs).length = max width cs.length := by
  have := leftPad_le width cs.length
  simp only [centre, List.length_append, List.length_replicate]
  omega

end Sentential.Text
