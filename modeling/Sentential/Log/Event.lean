import Sentential.Formula.Symbol
import Sentential.Text.Quoted

/-!
# Log events

`Event` lists what the library reports about its work. Every event has a number, which decides
whether it is written (`Event.number`), and a wording (`Event.message`). `Event.line` is the written
form: the bare message from `Severity.info` upwards, and the message after a tag in brackets below
that.
-/

namespace Sentential

/-- The named levels of a log. -/
inductive Severity where
  | debug
  | info
  | warning
  | error
  deriving DecidableEq

/-- The number of a named level. -/
def Severity.number : Severity → Int
  | .debug => 10
  | .info => 20
  | .warning => 30
  | .error => 40

/-- What the library reports about its work. -/
inductive Event where
  /-- The keywords of a line were replaced by glyphs. -/
  | normalized (keywords : Nat) (source target : String)
  /-- A formula is about to be parsed. -/
  | parsing (source : String)
  /-- A formula was parsed; the root has the given name. -/
  | parsed (nodeName : String)
  /-- A formula could not be parsed. -/
  | parseFailed
  /-- The first and the last character of a window are parentheses, but no pair. -/
  | groupKept (first last : Nat)
  /-- A window was split at the connectives of one family. -/
  | chainSplit (first : Connective) (positions : List Nat)
  /-- Work on a line begins. -/
  | lineStarted (number : Int) (line : String)
  /-- The normalized form of a line that differs from the line. -/
  | lineNormalized (number : Int) (normalized : String)
  /-- The rows of a truth table are about to be computed. -/
  | enumerating (rows : Nat) (columns : List String)
  /-- A truth table is complete. -/
  | tableComplete (columns rows : Int) (classification : String)
  /-- A line could not be processed. -/
  | lineRejected (number : Int) (line reason : String)
  /-- The totals of a run. -/
  | totals (processed failed : Int)
  /-- A message with a number of its own. -/
  | plain (number : Int) (text : String)
  deriving DecidableEq

namespace Event

/-- A message at a named level. -/
def ofSeverity (severity : Severity) (text : String) : Event := .plain severity.number text

/-- The events at the start of a line: the line, and its normalized form if that differs. -/
def lineStart (number : Int) (line normalized : String) : List Event :=
  .lineStarted number line :: if normalized = line then [] else [.lineNormalized number normalized]

/-- The number that decides whether an event is written. -/
def number : Event → Int
  | normalized .. | parsing _ | parsed _ | parseFailed | groupKept .. | chainSplit ..
  | lineNormalized .. | enumerating .. => Severity.debug.number
  | lineStarted .. | tableComplete .. => Severity.info.number
  | lineRejected .. => Severity.error.number
  | totals _ failed =>
      if failed = 0 then Severity.info.number else Severity.warning.number
  | plain number _ => number

/-- The wording of an event. -/
def message : Event → String
  | normalized keywords source target =>
      s!"Normalized {keywords} keyword(s): '{source}' -> '{target}'"
  | parsing source => s!"Parsing formula: {source}"
  | parsed nodeName => s!"Formula parsed successfully into AST with type: {nodeName}"
  | parseFailed => "ParseError encountered during formula parsing"
  | groupKept first last => s!"Keeping outer parentheses at positions {first}, {last}"
  | chainSplit first positions =>
      "Splitting " ++ first.kindName ++ " chain at positions ["
        ++ ", ".intercalate (positions.map Nat.repr) ++ "]"
  | lineStarted number line => s!"line {number}: {line}"
  | lineNormalized number target => s!"line {number} normalized: {target}"
  | enumerating rows columns =>
      s!"Enumerating {rows} rows over " ++ Text.quotedList columns
  | tableComplete columns rows classification =>
      s!"{columns} variable(s), {rows} row(s): {classification}"
  | lineRejected number line reason => s!"❌ line {number}: {line}: {reason}"
  | totals processed failed =>
      if failed = 0 then s!"✅ {processed} formula(s) processed"
      else s!"⚠️  {failed} of {processed} formula(s) failed"
  | plain _ text => text

/-- The written form of an event. -/
def line (e : Event) : String :=
  if Severity.info.number ≤ e.number then e.message
  else if e.number = Severity.debug.number then "[DEBUG] " ++ e.message
  else s!"[Level {e.number}] " ++ e.message

end Event

end Sentential
