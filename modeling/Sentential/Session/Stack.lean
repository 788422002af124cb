import Sentential.Formula.Parser
import Sentential.Log.Registry
import Sentential.Semantics.Evaluation

/-!
# The stack

A formula is read and evaluated on a stack of bounded size. Nesting takes room on it, and so does a
record that is written while a formula is read. The records of the reading are written at the level
of debugging alone, so the stack depends on the shared logger (`Registry.stack`): a formula that is
read at any other level may be nested too deeply at that one. A call takes room as well, so a line
of a run finds less of it than the run itself (`Stack.enter`).
-/

namespace Sentential

/-- The room that is left on the stack. -/
structure Stack where
  /-- The nesting that may be entered. -/
  frames : Nat
  /-- The nesting that an event of the reading takes while it is reported. -/
  recordCost : Nat
  deriving DecidableEq

namespace Stack

/-- The nesting that writing a record takes. -/
def writingCost : Nat := 7

/-- The stack of a program, which writes the events of its reading or does not. -/
def standard (writes : Bool) : Stack := ⟨nestingLimit, if writes then writingCost else 0⟩

/-- The stack of a program whose shared logger has the given level. -/
def ofLevel (level : Int) : Stack := standard (level ≤ Severity.debug.number)

/-- The stack inside a call. -/
def enter (s : Stack) : Stack := ⟨s.frames - 1, s.recordCost⟩

/-- The budget for the nesting of a text. -/
def budget (s : Stack) : Budget := some s.frames

/-- The height up to which formulas are traversed and evaluated. An operator takes two frames. On
the stack of a program this is the height that the library allows. -/
def walkLimit (s : Stack) : Nat := (s.frames + 5) / 2

example : (standard true).walkLimit = Sentential.walkLimit := by decide

end Stack

/-- The stack of a program that writes to the shared logger. -/
def Registry.stack (r : Registry) : Stack :=
  match r.shared.bind fun logger => r.channel? logger.channel with
  | some c => .ofLevel c.level
  | none => .standard false

/-- Reads a whole text on a stack. -/
def Formula.parseOn (stack : Stack) (s : String) : Traced ParseFault Formula :=
  let text := Source.ofString s
  announce s (parseWindowAt stack.recordCost text stack.budget text.whole)

/-- Reading on a stack without costs of records is reading within its budget. -/
theorem Formula.parseOn_of_recordCost_eq_zero {stack : Stack} (h : stack.recordCost = 0)
    (s : String) : Formula.parseOn stack s = Formula.parseWithin stack.budget s := by
  rw [Formula.parseOn, h]
  rfl

end Sentential
