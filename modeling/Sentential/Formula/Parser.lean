import Sentential.Formula.Shape
import Sentential.Formula.Token

/-!
# Parsing

`parseWindowAt` reads a window of a source: it looks at the shape of the window and reads the parts
that the shape names, from left to right, until one of them fails. A chain nests to the right. The
recursion ends because the parts of a window are smaller than the window.

Reading a part costs nesting: two units for the inside of a group and for the operand of a negation,
three for an operand of a chain, however long the chain is. A `Budget` bounds the sum of the costs
on the path to any window; `none` sets no bound. An event that is written needs nesting of its own
while it is reported, the cost of a record, and gives it back. `parseWindow` reads at no cost of
records, as if nothing were written. `Formula.parse` reads a normalized text in this way within
`nestingBudget`, and `Formula.parseLine` normalizes a raw line first.
-/

namespace Sentential

/-- How much nesting may still be entered; `none` stands for any amount. -/
abbrev Budget := Option Nat

/-- The budget that is left after a cost, if the budget covers the cost. -/
def Budget.spend? (budget : Budget) (cost : Nat) : Option Budget :=
  match budget with
  | none => some none
  | some left => if cost ≤ left then some (some (left - cost)) else none

/-- The cost of entering a group. -/
def groupCost : Nat := 2

/-- The cost of entering the operand of a negation. -/
def negationCost : Nat := 2

/-- The cost of entering an operand of a chain. -/
def chainCost : Nat := 3

/-- The nesting that a formula may have. -/
def nestingLimit : Nat := 985

/-- The budget for the nesting that a formula may have. -/
def nestingBudget : Budget := some nestingLimit

/-- Reports events about a text of the given length, each at a cost, or fails when the budget does
not cover it. -/
def report (length : Nat) (budget : Budget) (recordCost : Nat) (es : List Event) :
    Traced ParseFault Unit :=
  match es with
  | [] => .noteAll []
  | _ :: _ =>
      match budget.spend? recordCost with
      | some _ => .noteAll es
      | none => .fail (.tooDeep length)

/-- Reads a part of a text of the given length at a cost, or fails when the budget is exhausted. -/
def descend (length : Nat) (budget : Budget) (cost : Nat)
    (read : Budget → Traced ParseFault Formula) : Traced ParseFault Formula :=
  match budget.spend? cost with
  | some left => read left
  | none => .fail (.tooDeep length)

/-- The fault of an operator whose operand could not be read. A fault that already names an operator
stays as it is, and so does exhausted nesting. -/
def Operand.attribute (text : Source) (o : Operand) (fault : ParseFault) : ParseFault :=
  match fault with
  | .tooDeep _ | .operand .. => fault
  | .unbalanced _ | .malformed .. =>
      .operand o.op o.role (Text.isAllBlank (text.slice o.window)) (text.fragment o.context) fault

/-- The tree of a chain: the operands before each connective, and the last operand. -/
def chainTree (lefts : List (Connective × Formula)) (last : Formula) : Formula :=
  lefts.foldr (fun left tree => .binary left.1 left.2 tree) last

/-- What is reported about a window whose outer parentheses are no pair. -/
def keptParens (text : Source) (core : Window) : List Event :=
  if text.keepsOuterParens core then [.groupKept core.start (core.stop - 1)] else []

/-- Reads a window that holds a leaf. -/
def readLeaf (text : Source) (core : Window) : Traced ParseFault Formula :=
  match leaf (text.slice core) with
  | .ok f => .done f
  | .error defect => .fail (.malformed defect (text.fragment core))

/-- Reads a window of a source; every event costs `recordCost`. -/
def parseWindowAt (recordCost : Nat) (text : Source) (budget : Budget) (w : Window) :
    Traced ParseFault Formula :=
  match _h : text.shape w with
  | .unbalanced fault => .fail (.unbalanced fault)
  | .blank => .fail (.malformed .emptyOperand (text.fragment w))
  | .group inner =>
      descend text.size budget groupCost fun left => parseWindowAt recordCost text left inner
  | .chain core first rest => do
      report text.size budget recordCost (keptParens text core)
      report text.size budget recordCost
        [.chainSplit first.op ((first :: rest).map Split.position)]
      let lefts ← (leftOperands core core.start (first :: rest)).attach.mapM fun ⟨p, _hp⟩ => do
        let read ← (descend text.size budget chainCost fun left =>
          parseWindowAt recordCost text left p.2.window).mapFault (p.2.attribute text)
        pure (p.1, read)
      let o := rightOperand core core.start first rest
      let last ← (descend text.size budget chainCost fun left =>
        parseWindowAt recordCost text left o.window).mapFault (o.attribute text)
      pure (chainTree lefts last)
  | .negation core => do
      report text.size budget recordCost (keptParens text core)
      let o := negatedOperand core
      let read ← (descend text.size budget negationCost fun left =>
        parseWindowAt recordCost text left o.window).mapFault (o.attribute text)
      pure (.neg read)
  | .buriedNegation core => do
      report text.size budget recordCost (keptParens text core)
      .fail (.malformed .textBeforeNegation (text.fragment core))
  | .leaf core => do
      report text.size budget recordCost (keptParens text core)
      readLeaf text core
termination_by w.size
decreasing_by
  · exact Source.shape_group_size_lt _h
  · exact (Source.shape_chain_size_lt _h).1 p _hp
  · exact (Source.shape_chain_size_lt _h).2
  · exact Source.shape_negation_size_lt _h

/-- Reads an operand at a cost; a fault is attributed to the operator. -/
def readOperandAt (recordCost : Nat) (text : Source) (budget : Budget) (cost : Nat) (o : Operand) :
    Traced ParseFault Formula :=
  (descend text.size budget cost fun left => parseWindowAt recordCost text left o.window).mapFault
    (o.attribute text)

/-- Reads the operands before the connectives of a chain. -/
def readLeftsAt (recordCost : Nat) (text : Source) (budget : Budget)
    (operands : List (Connective × Operand)) : Traced ParseFault (List (Connective × Formula)) :=
  operands.mapM fun p => do
    let read ← readOperandAt recordCost text budget chainCost p.2
    pure (p.1, read)

private theorem attach_mapM {m : Type → Type} [Monad m] [LawfulMonad m] {α β : Type}
    (l : List α) (f : α → m β) : (l.attach.mapM fun x => f x.1) = l.mapM f := by
  have h := List.mapM_map (m := m) (f := Subtype.val) (g := f) (l := l.attach)
  rw [List.attach_map_subtype_val] at h
  exact h.symm

/-- How a window is read, shape by shape. -/
theorem parseWindowAt_eq (recordCost : Nat) (text : Source) (budget : Budget) (w : Window) :
    parseWindowAt recordCost text budget w =
      (match text.shape w with
      | .unbalanced fault => .fail (.unbalanced fault)
      | .blank => .fail (.malformed .emptyOperand (text.fragment w))
      | .group inner =>
          descend text.size budget groupCost fun left => parseWindowAt recordCost text left inner
      | .chain core first rest => do
          report text.size budget recordCost (keptParens text core)
          report text.size budget recordCost
            [.chainSplit first.op ((first :: rest).map Split.position)]
          let lefts ← readLeftsAt recordCost text budget
            (leftOperands core core.start (first :: rest))
          let last ← readOperandAt recordCost text budget chainCost
            (rightOperand core core.start first rest)
          pure (chainTree lefts last)
      | .negation core => do
          report text.size budget recordCost (keptParens text core)
          let read ← readOperandAt recordCost text budget negationCost (negatedOperand core)
          pure (.neg read)
      | .buriedNegation core => do
          report text.size budget recordCost (keptParens text core)
          .fail (.malformed .textBeforeNegation (text.fragment core))
      | .leaf core => do
          report text.size budget recordCost (keptParens text core)
          readLeaf text core) := by
  rw [parseWindowAt]
  split <;> rename_i h <;> simp only [h]
  · rename_i core first rest
    have hlefts := attach_mapM (leftOperands core core.start (first :: rest))
      fun p => do
        let read ← readOperandAt recordCost text budget chainCost p.2
        pure (p.1, read)
    rw [readLeftsAt, ← hlefts]
    rfl
  · rfl

/-- Without a cost every event is reported. -/
theorem report_zero (length : Nat) (budget : Budget) (es : List Event) :
    report length budget 0 es = .noteAll es := by
  cases es with
  | nil => rfl
  | cons e es =>
      cases budget with
      | none => rfl
      | some left => rfl

/-- Reads a window of a source at no cost of records. -/
def parseWindow (text : Source) (budget : Budget) (w : Window) : Traced ParseFault Formula :=
  parseWindowAt 0 text budget w

/-- Reads an operand at no cost of records. -/
def readOperand (text : Source) (budget : Budget) (cost : Nat) (o : Operand) :
    Traced ParseFault Formula :=
  readOperandAt 0 text budget cost o

/-- Reads the operands before the connectives of a chain at no cost of records. -/
def readLefts (text : Source) (budget : Budget) (operands : List (Connective × Operand)) :
    Traced ParseFault (List (Connective × Formula)) :=
  readLeftsAt 0 text budget operands

/-- How a window is read at no cost of records, shape by shape. -/
theorem parseWindow_eq (text : Source) (budget : Budget) (w : Window) :
    parseWindow text budget w =
      (match text.shape w with
      | .unbalanced fault => .fail (.unbalanced fault)
      | .blank => .fail (.malformed .emptyOperand (text.fragment w))
      | .group inner => descend text.size budget groupCost fun left => parseWindow text left inner
      | .chain core first rest => do
          .noteAll (keptParens text core)
          .note (.chainSplit first.op ((first :: rest).map Split.position))
          let lefts ← readLefts text budget (leftOperands core core.start (first :: rest))
          let last ← readOperand text budget chainCost (rightOperand core core.start first rest)
          pure (chainTree lefts last)
      | .negation core => do
          .noteAll (keptParens text core)
          let read ← readOperand text budget negationCost (negatedOperand core)
          pure (.neg read)
      | .buriedNegation core => do
          .noteAll (keptParens text core)
          .fail (.malformed .textBeforeNegation (text.fragment core))
      | .leaf core => do
          .noteAll (keptParens text core)
          readLeaf text core) := by
  rw [parseWindow, parseWindowAt_eq]
  simp only [report_zero]
  rfl

/-- Reports the start and the outcome of reading a text. -/
def announce (s : String) (read : Traced ParseFault Formula) : Traced ParseFault Formula :=
  let outcome : Event :=
    match read.result with
    | .ok f => .parsed f.nodeName
    | .error _ => .parseFailed
  ⟨.parsing s :: read.events ++ [outcome], read.result⟩

/-- Reads a whole text within a budget, at no cost of records. -/
def Formula.parseWithin (budget : Budget) (s : String) : Traced ParseFault Formula :=
  let text := Source.ofString s
  announce s (parseWindow text budget text.whole)

/-- Reads normalized text. -/
def Formula.parse (s : String) : Traced ParseFault Formula := Formula.parseWithin nestingBudget s

/-- Normalizes a raw line and reads it. -/
def Formula.parseLine (s : String) : Traced ParseFault Formula := do
  let normalized ← normalizeLine s
  Formula.parse normalized

end Sentential
