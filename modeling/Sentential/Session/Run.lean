import Sentential.Report.TableText
import Sentential.Session.Stack

/-!
# Processing lines

`answerLine` takes one raw line through normalization, parsing and evaluation to its printed text,
on a given stack. `runLines` processes the lines of an input one after the other and skips blank
lines and comments; a line that fails is reported and contributes no text, and the run goes on with
the next line. Only a number of rows without a written form ends the run (`LineFault.endsRun`).
`run` adds the totals at the end.
-/

namespace Sentential

/-- What is printed for a formula. -/
structure Config where
  /-- Evaluate each formula once, without variables, instead of printing a truth table. -/
  single : Bool
  palette : Palette
  /-- The number of variables that a truth table may have. -/
  maxVariables : Int
  deriving DecidableEq

/-- Coloured truth tables with the usual limit. -/
def Config.standard : Config := ⟨false, .coloured, defaultMaxVariables⟩

/-- Why a line cannot be processed. -/
inductive LineFault where
  | parse (fault : ParseFault)
  | evaluation (fault : EvaluationFault)
  | render (fault : RenderFault)
  deriving DecidableEq

/-- The wording of a line fault. -/
def LineFault.message : LineFault → String
  | .parse fault => fault.message
  | .evaluation fault => fault.message
  | .render fault => fault.message

/-- Whether a fault ends a run instead of being reported. -/
def LineFault.endsRun : LineFault → Bool
  | .evaluation (.unwritableRows _) => true
  | .parse _ | .evaluation _ | .render _ => false

/-- The text that is printed for a formula whose normalized text is given. -/
def printFormula (config : Config) (stack : Stack) (normalized : String) (f : Formula) :
    Traced LineFault String :=
  if config.single then do
    let value ← (Traced.ofExcept (f.evaluateWithin stack.walkLimit ⟨[]⟩)).mapFault .evaluation
    pure (resultText config.palette normalized value ++ "\n")
  else do
    let table ← (TruthTable.ofFormulaWithin stack.walkLimit f config.maxVariables).mapFault
      .evaluation
    .note (.tableComplete table.columns.length table.rows.length table.classification.name)
    let text ← (Traced.ofExcept (table.render (some normalized) config.palette)).mapFault .render
    pure (text ++ "\n")

/-- Processes one line to the text that is printed for it. -/
def answerLine (config : Config) (stack : Stack) (number : Int) (raw : String) :
    Traced LineFault String := do
  let line := Text.trimmed raw
  let normalized ← normalizeLine line
  .noteAll (Event.lineStart number line normalized)
  let f ← (Formula.parseOn stack normalized).mapFault .parse
  printFormula config stack normalized f

/-- Lines that hold a formula: neither blank nor a comment. -/
def isFormulaLine (raw : String) : Bool :=
  match Text.trim raw.toList with
  | [] => false
  | c :: _ => c != '#'

/-- The printed text, the events and the totals of some lines. -/
structure Report where
  stdout : String
  events : List Event
  processed : Nat
  failed : Nat
  /-- The fault that ended the run before all lines were processed. -/
  broken : Option LineFault
  deriving DecidableEq

namespace Report

/-- The report of no lines. -/
def empty : Report := ⟨"", [], 0, 0, none⟩

/-- The report of some lines followed by others. -/
def append (r s : Report) : Report :=
  ⟨r.stdout ++ s.stdout, r.events ++ s.events, r.processed + s.processed, r.failed + s.failed,
    s.broken⟩

/-- The number of lines that did not fail. -/
def succeeded (r : Report) : Int := (r.processed : Int) - r.failed

end Report

/-- The report of one line that holds a formula. -/
def lineReport (config : Config) (stack : Stack) (number : Nat) (raw : String) : Report :=
  let line := Text.trimmed raw
  let outcome := answerLine config stack number line
  match outcome.result with
  | .ok text => ⟨text, outcome.events, 1, 0, none⟩
  | .error fault =>
      if fault.endsRun then ⟨"", outcome.events, 1, 0, some fault⟩
      else ⟨"", outcome.events ++ [.lineRejected number line fault.message], 1, 1, none⟩

/-- The report of lines of which the first has the given number, each of them processed on the
stack. -/
def runLines (config : Config) (stack : Stack) (number : Nat) : List String → Report
  | [] => .empty
  | raw :: rest =>
      if isFormulaLine raw then
        let first := lineReport config stack number raw
        if first.broken.isSome then first
        else first.append (runLines config stack (number + 1) rest)
      else runLines config stack (number + 1) rest

/-- The report of all lines of an input, with the totals as its last event unless a fault ended the
run. The run is called on the stack and processes its lines inside the call. -/
def run (config : Config) (stack : Stack) (lines : List String) : Report :=
  let report := runLines config stack.enter 1 lines
  if report.broken.isSome then report
  else { report with events := report.events ++ [.totals report.processed report.failed] }

end Sentential
