import Sentential.Formula.Symbol

/-!
# Balance of parentheses

`scan` walks along a text, counting the open parentheses and remembering where the last one was
opened; it stops at the first closing parenthesis that has no partner. `checkPairs` is the scan of a
whole text, and fails also when parentheses stay open at its end. Positions are those of the text
around the scanned part, so the first one is a parameter; it may be negative.
-/

namespace Sentential

/-- The two ways in which parentheses fail to pair up. -/
inductive Imbalance where
  /-- A closing parenthesis without a partner before it. -/
  | unmatchedClose (position : Int)
  /-- Opening parentheses without partners: their number and the last opening parenthesis. -/
  | unmatchedOpen (surplus : Nat) (position : Int)
  deriving DecidableEq

namespace Imbalance

/-- The position that an imbalance reports. -/
def position : Imbalance → Int
  | unmatchedClose position => position
  | unmatchedOpen _ position => position

/-- The same imbalance, with its position moved. -/
def shift (offset : Int) : Imbalance → Imbalance
  | unmatchedClose position => unmatchedClose (position + offset)
  | unmatchedOpen surplus position => unmatchedOpen surplus (position + offset)

/-- The wording of an imbalance. -/
def message : Imbalance → String
  | unmatchedClose position => s!"Unmatched ')' at position {position}"
  | unmatchedOpen surplus position =>
      s!"{surplus} unclosed '(' (last opened at position {position})"

end Imbalance

/-- What a scan knows: how many parentheses are open and where the last one was opened. -/
structure OpenParens where
  depth : Nat
  lastOpen : Int
  deriving DecidableEq

/-- Scans a text that begins at `position`, starting with the groups that are open there. -/
def scan (position : Int) (groups : OpenParens) : List Char → Except Imbalance OpenParens
  | [] => .ok groups
  | c :: rest =>
      if c = openParen then scan (position + 1) ⟨groups.depth + 1, position⟩ rest
      else if c = closeParen then
        match groups.depth with
        | 0 => .error (.unmatchedClose position)
        | depth + 1 => scan (position + 1) ⟨depth, groups.lastOpen⟩ rest
      else scan (position + 1) groups rest

/-- No group may be open at the end of a text. -/
def OpenParens.close (groups : OpenParens) : Except Imbalance Unit :=
  if groups.depth = 0 then .ok () else .error (.unmatchedOpen groups.depth groups.lastOpen)

/-- Checks that the parentheses of a text that begins at `start` pair up. -/
def checkPairs (start : Int) (cs : List Char) : Except Imbalance Unit :=
  scan start ⟨0, start⟩ cs >>= OpenParens.close

end Sentential
