import Sentential.CommandLine.Arguments
import Sentential.CommandLine.Help
import Sentential.Files.FormulaFile
import Sentential.Session.Steps

/-!
# The program

`execute` runs the program on a command line. Formulas come from the command line if it holds any,
else from a file if one is named, else from standard input. The exit code is 0 if every formula
succeeded, 1 if some failed, 2 for a wrong command line, 3 for an unreadable file and 4 for an
interrupted input. A `Breakdown` ends the program without an exit code of its own.
-/

namespace Sentential.CommandLine

/-- What the program finds around it. -/
structure Environment where
  /-- The text of standard input. -/
  stdin : String
  /-- Whether reading is interrupted at the end of standard input. -/
  interrupted : Bool
  /-- The bytes of the file at a path. -/
  readBytes : Path → Except AccessFault (List UInt8)

/-- What breaks the program off. -/
inductive Breakdown where
  /-- The limit was given without a value. -/
  | valuelessLimit
  /-- The file was given without a value. -/
  | valuelessFile
  /-- A formula was given without a value. -/
  | valuelessFormula
  /-- No file can have the path that was given. -/
  | file (path : Path) (fault : FileFault)
  /-- A line ended the run. -/
  | line (fault : LineFault)
  deriving DecidableEq

/-- The wording of a breakdown. -/
def Breakdown.message : Breakdown → String
  | .valuelessLimit => "'<' not supported between instances of 'list' and 'int'"
  | .valuelessFile => "'list' object has no attribute 'read_text'"
  | .valuelessFormula => "'list' object has no attribute 'strip'"
  | .file path fault => fault.message path
  | .line fault => fault.message

/-- How the program ends. -/
inductive Ending where
  | exit (code : Nat)
  /-- The program ended while it read its command line. -/
  | early (code : Nat)
  | broken (cause : Breakdown)
  deriving DecidableEq

/-- What the program leaves behind. -/
structure Outcome where
  ending : Ending
  stdout : String
  stderr : String
  deriving DecidableEq

/-- Where the formulas come from. -/
inductive Input where
  | formulas (lines : List (Option String))
  | file (path : Option Path)
  | stdin
  deriving DecidableEq

/-- The source of formulas that some settings choose. -/
def Settings.input (s : Settings) : Input :=
  if s.formulas.isEmpty then
    match s.file? with
    | some path => .file (path.map .ofString)
    | none => .stdin
  else .formulas s.formulas

/-- The configuration of a run that some settings choose, with the given limit. -/
def Settings.config (s : Settings) (limit : Int) : Config :=
  ⟨s.single, if s.noColor then .plain else .coloured, limit⟩

/-- The outcome of a breakdown after the given report. -/
def Outcome.ofBreakdown (registry : Registry) (report : Report) (cause : Breakdown) : Outcome :=
  ⟨.broken cause, report.stdout, registry.writeShared report.events⟩

/-- The outcome of a run with the given report. -/
def Outcome.ofReport (registry : Registry) (report : Report) : Outcome :=
  match report.broken with
  | some fault => .ofBreakdown registry report (.line fault)
  | none =>
      ⟨.exit (if report.failed = 0 then 0 else 1), report.stdout,
        registry.writeShared report.events⟩

/-- The outcome of a run that is interrupted after the given report. -/
def Outcome.ofInterrupted (registry : Registry) (report : Report) : Outcome :=
  match report.broken with
  | some fault => .ofBreakdown registry report (.line fault)
  | none =>
      ⟨.exit 4, report.stdout,
        registry.writeShared (report.events ++ [.ofSeverity .error "Interrupted by user"])⟩

/-- The outcome for a formula file that cannot be read. -/
def Outcome.ofFileFault (registry : Registry) (path : Path) (fault : FileFault) : Outcome :=
  if fault.endsProgram then .ofBreakdown registry .empty (.file path fault)
  else
    ⟨.exit 3, "",
      registry.writeShared [.ofSeverity .error ("Formula file error: " ++ fault.message path)]⟩

/-- The outcome for a wrong command line. -/
def Outcome.ofUsageFault (fault : UsageFault) : Outcome := ⟨.early 2, "", usageText fault.message⟩

/-- The outcome of a run of formulas from the command line. The first formula without a value breaks
the program off when its turn comes. -/
def Outcome.ofFormulas (registry : Registry) (config : Config) (stack : Stack)
    (lines : List (Option String)) : Outcome :=
  if lines.all Option.isSome then .ofReport registry (run config stack (lines.filterMap id))
  else
    let report := runLines config stack.enter 1 ((lines.takeWhile Option.isSome).filterMap id)
    match report.broken with
    | some fault => .ofBreakdown registry report (.line fault)
    | none => .ofBreakdown registry report .valuelessFormula

/-- Runs the program with the given settings and limit. The run is called inside the program. -/
def executeWithin (env : Environment) (registry : Registry) (s : Settings) (limit : Int) :
    Outcome :=
  let config := s.config limit
  let stack := registry.stack.enter
  match s.input with
  | .formulas lines => .ofFormulas registry config stack lines
  | .file none => .ofBreakdown registry .empty .valuelessFile
  | .file (some path) =>
      match formulaLines (env.readBytes path) with
      | .ok lines => .ofReport registry (run config stack lines)
      | .error fault => .ofFileFault registry path fault
  | .stdin =>
      let lines := Text.streamLines env.stdin
      if env.interrupted then .ofInterrupted registry (runLines config stack.enter 1 lines)
      else .ofReport registry (run config stack lines)

/-- Runs the program with the given settings. -/
def executeWith (env : Environment) (s : Settings) : Outcome :=
  let registry := Registry.empty.configure s.verbose s.debug
  match s.maxVariables with
  | none => .ofBreakdown registry .empty .valuelessLimit
  | some limit =>
      if limit < 0 then .ofUsageFault .negativeLimit else executeWithin env registry s limit

/-- Runs the program on a command line. -/
def execute (env : Environment) (argv : List String) : Outcome :=
  match readArguments argv with
  | .ok s => executeWith env s
  | .error .help => ⟨.early 0, helpText, ""⟩
  | .error (.usage fault) => .ofUsageFault fault

end Sentential.CommandLine
