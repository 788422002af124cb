import Sentential.Formula.Parentheses
import Sentential.Text.Blank

/-!
# Windows of a source text

A `Source` is the text of one formula, and a `Window` is a range of its positions. The parser never
copies text: it works on windows of the whole source, so that every position it reports is a
position of the source. `Source.slice` reads a window, `Source.core` narrows a window to the part
without the blanks at either end, and `Source.checkRange` checks the balance of a range whose ends
may be negative (counted from the end of the source) or lie outside it.
-/

namespace Sentential

/-- The characters of a formula, addressed by position. -/
structure Source where
  chars : Array Char

/-- The source of a text. -/
def Source.ofString (s : String) : Source := ⟨s.toList.toArray⟩

/-- The number of characters. -/
def Source.size (text : Source) : Nat := text.chars.size

/-- The positions from `start` up to, but not including, `stop`. -/
structure Window where
  start : Nat
  stop : Nat
  deriving DecidableEq

/-- The number of positions of a window. -/
def Window.size (w : Window) : Nat := w.stop - w.start

namespace Source

/-- All positions of a source. -/
def whole (text : Source) : Window := ⟨0, text.size⟩

/-- The characters of a window. -/
def slice (text : Source) (w : Window) : List Char := (text.chars.extract w.start w.stop).toList

/-- The characters of a window as a string. -/
def fragment (text : Source) (w : Window) : String := String.ofList (text.slice w)

/-- The part of a window without the blanks at either end. -/
def core (text : Source) (w : Window) : Window :=
  let cs := text.slice w
  let body := Text.trimLeft cs
  let start := w.start + (cs.length - body.length)
  ⟨start, start + (Text.trimRight body).length⟩

/-- Checks that the parentheses of a window pair up. -/
def checkWindow (text : Source) (w : Window) : Except Imbalance Unit :=
  checkPairs w.start (text.slice w)

/-- The slice of a window has as many characters as the window has positions inside the source. -/
theorem length_slice (text : Source) (w : Window) :
    (text.slice w).length = min w.stop text.size - w.start := by
  simp only [slice, size, Array.length_toList, Array.size_extract]

theorem length_slice_le (text : Source) (w : Window) : (text.slice w).length ≤ w.size := by
  rw [length_slice, Window.size]
  omega

theorem start_le_core_start (text : Source) (w : Window) : w.start ≤ (text.core w).start := by
  simp [core]

theorem core_start_le_core_stop (text : Source) (w : Window) :
    (text.core w).start ≤ (text.core w).stop := by
  simp [core]

/-- The core of a window ends within the window. -/
theorem core_stop_le (text : Source) (w : Window) :
    (text.core w).stop ≤ w.start + (text.slice w).length := by
  have h₁ := Text.trimLeft_length_le (text.slice w)
  have h₂ := Text.trimRight_length_le (Text.trimLeft (text.slice w))
  simp only [core]
  omega

theorem core_size_le (text : Source) (w : Window) : (text.core w).size ≤ w.size := by
  have h₁ := text.start_le_core_start w
  have h₂ := text.core_stop_le w
  have h₃ := text.length_slice_le w
  simp only [Window.size] at h₃ ⊢
  omega

/-! ## Ranges with ends anywhere -/

/-- What can be wrong with a range: an imbalance, or a position that the source does not have. -/
inductive RangeFault where
  | imbalance (fault : Imbalance)
  | outOfRange

/-- The wording of a range fault. -/
def RangeFault.message : RangeFault → String
  | imbalance fault => fault.message
  | outOfRange => "string index out of range"

/-- The character at a position; a negative position counts from the end. -/
def charAt? (text : Source) (position : Int) : Option Char :=
  if 0 ≤ position then text.chars[position.toNat]?
  else if -(text.size : Int) ≤ position then text.chars[(text.size + position).toNat]?
  else none

/-- Checks the balance of the positions from `start` up to, but not including, `stop`. The scan runs
from left to right and ends at the first position that the source does not have. -/
def checkRange (text : Source) (start stop : Int) : Except RangeFault Unit :=
  let span := (min stop text.size - start).toNat
  let positions := (List.range span).map fun (k : Nat) => start + (k : Int)
  if stop ≤ start then .ok ()
  else if start < -(text.size : Int) then .error .outOfRange
  else
    match scan start ⟨0, start⟩ (positions.filterMap text.charAt?) with
    | .error fault => .error (.imbalance fault)
    | .ok groups =>
        if (text.size : Int) < stop then .error .outOfRange
        else
          match groups.close with
          | .error fault => .error (.imbalance fault)
          | .ok () => .ok ()

end Source

end Sentential
