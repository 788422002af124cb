import Sentential.Decimal.Integer
import Sentential.Semantics.TruthTable
import Sentential.Text.Quoted

/-!
# Options

The options of the command line with their spellings, the `Settings` that they make, and the ways in
which a command line can be wrong (`UsageFault`).
-/

namespace Sentential.CommandLine

/-- The options, in the order in which they are listed. -/
inductive Switch where
  | help
  | file
  | expr
  | single
  | noColor
  | maxVariables
  | verbose
  | debug
  deriving DecidableEq

namespace Switch

/-- Every option. -/
def all : List Switch :=
  [help, file, expr, single, noColor, maxVariables, verbose, debug]

/-- The letter of an option that has a short form. -/
def short? : Switch → Option Char
  | help => some 'h'
  | file => some 'f'
  | expr => some 'e'
  | verbose => some 'v'
  | single | noColor | maxVariables | debug => none

/-- The long form of an option. -/
def long : Switch → String
  | help => "--help"
  | file => "--file"
  | expr => "--expr"
  | single => "--single"
  | noColor => "--no-color"
  | maxVariables => "--max-variables"
  | verbose => "--verbose"
  | debug => "--debug"

/-- Whether an option takes a value. -/
def takesValue : Switch → Bool
  | file | expr | maxVariables => true
  | help | single | noColor | verbose | debug => false

/-- The name of an option in messages: all its forms. -/
def label (s : Switch) : String :=
  match s.short? with
  | some letter => "-" ++ String.singleton letter ++ "/" ++ s.long
  | none => s.long

/-- The option with a letter. -/
def ofLetter? (letter : Char) : Option Switch := all.find? fun s => s.short? == some letter

/-- The options whose long form begins with some text. -/
def withLongStart (start : List Char) : List Switch :=
  all.filter fun s => start.isPrefixOf s.long.toList

end Switch

/-- What a command line asks for. An option can be given without any value, which is `none` in place
of the value. -/
structure Settings where
  file? : Option (Option String)
  formulas : List (Option String)
  single : Bool
  noColor : Bool
  maxVariables : Option Int
  verbose : Bool
  debug : Bool
  deriving DecidableEq

/-- The settings of an empty command line. -/
def Settings.initial : Settings :=
  ⟨none, [], false, false, some defaultMaxVariables, false, false⟩

/-- The ways in which a command line can be wrong. -/
inductive UsageFault where
  /-- A shortened long option fits several options. -/
  | ambiguous (argument : String)
  /-- An option has no value. -/
  | expectedArgument (option : Switch)
  /-- An option that takes no value was given one. -/
  | ignoredArgument (option : Switch) (value : String)
  /-- The value of the limit is no integer. -/
  | invalidInteger (value : String)
  /-- The limit is negative. -/
  | negativeLimit
  /-- Arguments that belong to no option. -/
  | unrecognized (arguments : List String)
  deriving DecidableEq

/-- The wording of a usage fault. -/
def UsageFault.message : UsageFault → String
  | .ambiguous argument =>
      "ambiguous option: " ++ argument ++ " could match "
        ++ ", ".intercalate ((Switch.withLongStart ['-', '-']).map Switch.long)
  | .expectedArgument option => "argument " ++ option.label ++ ": expected one argument"
  | .ignoredArgument option value =>
      "argument " ++ option.label ++ ": ignored explicit argument " ++ Text.quoted value
  | .invalidInteger value =>
      "argument " ++ Switch.maxVariables.label ++ ": invalid int value: " ++ Text.quoted value
  | .negativeLimit => Switch.maxVariables.long ++ " must not be negative"
  | .unrecognized arguments => "unrecognized arguments: " ++ " ".intercalate arguments

/-- Why reading a command line ends early. -/
inductive Stop where
  /-- The help text is asked for. -/
  | help
  | usage (fault : UsageFault)
  deriving DecidableEq

/-- The settings after an option without a value. -/
def Settings.enable (s : Settings) : Switch → Except Stop Settings
  | .help => .error .help
  | .single => .ok { s with single := true }
  | .noColor => .ok { s with noColor := true }
  | .verbose => .ok { s with verbose := true }
  | .debug => .ok { s with debug := true }
  | .file | .expr | .maxVariables => .ok s

/-- The settings after an option with a value. The last file and the last limit count, and formulas
accumulate. -/
def Settings.assign (s : Settings) (option : Switch) (value : Option String) :
    Except Stop Settings :=
  match option with
  | .file => .ok { s with file? := some value }
  | .expr => .ok { s with formulas := s.formulas ++ [value] }
  | .maxVariables =>
      match value with
      | none => .ok { s with maxVariables := none }
      | some text =>
          match Decimal.readInteger? text with
          | some n => .ok { s with maxVariables := some n }
          | none => .error (.usage (.invalidInteger text))
  | .help | .single | .noColor | .verbose | .debug => .ok s

end Sentential.CommandLine
