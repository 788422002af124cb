import Sentential.Session.Run

/-!
# Sessions

A session processes lines and runs with one configuration while the level of the shared logger
changes between the steps. The level decides what is written of the events of a step, and it decides
on the stack that the step finds. `Session.step` answers one step and `Session.answers` a sequence
of steps.
-/

namespace Sentential

/-- One step of a session. -/
inductive Step where
  | line (number : Int) (raw : String)
  | run (lines : List String)
  | level (level : Severity)
  | configure (verbose debug : Bool)

/-- How a step ended, apart from its text and its log. -/
inductive StepOutcome where
  | done
  | failed (fault : LineFault)
  | totals (processed failed : Nat)
  deriving DecidableEq

/-- What a step printed and logged, and how it ended. -/
structure Answer where
  stdout : String
  stderr : String
  outcome : StepOutcome
  deriving DecidableEq

/-- A configuration and the state of the loggers. -/
structure Session where
  config : Config
  registry : Registry

namespace Session

/-- A session at its start, with the shared logger opened. -/
def start (config : Config) : Session :=
  ⟨config, (Registry.empty.sharedLogger defaultLoggerName).2⟩

/-- The events, the text and the ending of a step that is taken on a stack. -/
def work (config : Config) (stack : Stack) : Step → List Event × String × StepOutcome
  | .line number raw =>
      let outcome := answerLine config stack number raw
      match outcome.result with
      | .ok text => (outcome.events, text, .done)
      | .error fault => (outcome.events, "", .failed fault)
  | .run lines =>
      let report := Sentential.run config stack lines
      match report.broken with
      | some fault => (report.events, report.stdout, .failed fault)
      | none => (report.events, report.stdout, .totals report.processed report.failed)
  | .level _ | .configure .. => ([], "", .done)

/-- The state of the loggers after a step. -/
def relevel (r : Registry) : Step → Registry
  | .level level => r.setSharedLevel level
  | .configure verbose debug => r.configure verbose debug
  | .line .. | .run _ => r

/-- Takes one step. -/
def step (s : Session) (action : Step) : Answer × Session :=
  let (events, stdout, outcome) := work s.config s.registry.stack action
  (⟨stdout, s.registry.writeShared events, outcome⟩,
    { s with registry := relevel s.registry action })

/-- The answers to a sequence of steps. -/
def answers (s : Session) : List Step → List Answer
  | [] => []
  | action :: rest =>
      let (answer, next) := s.step action
      answer :: next.answers rest

end Session

end Sentential
