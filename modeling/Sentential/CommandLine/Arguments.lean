import Sentential.CommandLine.Options

/-!
# Reading a command line

Each argument is first classified on its own: it is an option, looks like one, or is plain. An
option may be shortened to an unambiguous beginning of its long form, may have its value attached,
and may be bundled with other options of one letter (`Bundle.glued`). After the argument `--` every
argument is plain. The options are then carried out from left to right (`carryOut`), and the
arguments that belong to no option are reported when all options have been carried out.
-/

namespace Sentential.CommandLine

/-- What an argument is, on its own. -/
inductive Argument where
  /-- No option; it may be the value of one. -/
  | plain
  /-- The argument that ends the options. -/
  | separator
  /-- An option in its long form, and the text after the equals sign if there is one. -/
  | long (option : Switch) (value : Option (List Char))
  /-- An option in its short form, and the text attached to its letter if there is one; an equals
  sign between the two is left out. -/
  | short (option : Switch) (attached : Option (List Char))
  /-- It looks like an option, but there is none of that name. -/
  | unknown
  deriving DecidableEq

/-- The text before the first equals sign, and the text after it if there is one. -/
def splitAtEquals (cs : List Char) : List Char × Option (List Char) :=
  match cs.dropWhile (· ≠ '=') with
  | [] => (cs, none)
  | _ :: value => (cs.takeWhile (· ≠ '='), some value)

/-- The text attached to a letter by what follows it. -/
def attachedText : List Char → Option (List Char)
  | [] => none
  | '=' :: attached => some attached
  | attached => some attached

/-- An argument that begins like an option, but spells none: a number or a text with a space is
plain. -/
def unmatched (argument : String) : Argument :=
  if Decimal.isNegativeNumeral argument || argument.toList.contains ' ' then .plain else .unknown

/-- Classifies an argument. After two hyphens stands the beginning of a long form, which must fit
one option only, and after one hyphen the letter of a short form. -/
def classify (argument : String) : Except UsageFault Argument :=
  match argument.toList with
  | '-' :: '-' :: rest =>
      let (start, value) := splitAtEquals ('-' :: '-' :: rest)
      match Switch.withLongStart start with
      | [] => .ok (unmatched argument)
      | [option] => .ok (.long option value)
      | _ => .error (.ambiguous argument)
  | '-' :: letter :: rest =>
      match Switch.ofLetter? letter with
      | some option => .ok (.short option (attachedText rest))
      | none => .ok (unmatched argument)
  | _ => .ok .plain

/-- Classifies the arguments of a command line. -/
def classifyAll : List String → Except UsageFault (List (String × Argument))
  | [] => .ok []
  | argument :: rest =>
      if argument = "--" then .ok ((argument, .separator) :: rest.map fun a => (a, .plain))
      else do
        let kind ← classify argument
        let kinds ← classifyAll rest
        pure ((argument, kind) :: kinds)

/-- The options of a bundle: options without a value, and at its end possibly one that takes a
value, with the value if it is attached. -/
structure Bundle where
  enabled : List Switch
  valued : Option (Switch × Option (List Char))
  deriving DecidableEq

/-- The bundle of one option to which no text is attached. -/
def Bundle.single (option : Switch) : Bundle :=
  if option.takesValue then ⟨[], some (option, none)⟩ else ⟨[option], none⟩

/-- The bundle of one option with text that can only be its value. -/
def Bundle.withValue (option : Switch) (value : List Char) : Except UsageFault Bundle :=
  if option.takesValue then .ok ⟨[], some (option, some value)⟩
  else .error (.ignoredArgument option (String.ofList value))

/-- The bundle that a short option begins with the text attached to it. The text is the value of the
option or, after an option that takes none, the letters of further options; the last letter may be
that of an option with a value, which is then the rest of the text as it stands. -/
def Bundle.glued (option : Switch) : List Char → Except UsageFault Bundle
  | [] => Bundle.withValue option []
  | letter :: rest =>
      match option.takesValue, Switch.ofLetter? letter with
      | false, some next => do
          let bundle ← if rest.isEmpty then .ok (.single next) else Bundle.glued next rest
          pure { bundle with enabled := option :: bundle.enabled }
      | _, _ => Bundle.withValue option (letter :: rest)

/-- The bundle of a short option. -/
def Bundle.short (option : Switch) : Option (List Char) → Except UsageFault Bundle
  | none => .ok (.single option)
  | some attached => Bundle.glued option attached

/-- The bundle of a long option, which stands alone. -/
def Bundle.long (option : Switch) : Option (List Char) → Except UsageFault Bundle
  | none => .ok (.single option)
  | some value => Bundle.withValue option value

/-- The value that attached text stands for. The argument that ends the options stands for no value,
attached or not. -/
def attachedValue (text : List Char) : Option String :=
  if text = ['-', '-'] then none else some (String.ofList text)

/-- The value of the last option of a bundle, which is the attached text or the next argument, and
the arguments that remain. -/
def valueOf (valued : Option (Switch × Option (List Char))) (rest : List (String × Argument)) :
    Except UsageFault (Option (Switch × Option String) × List (String × Argument)) :=
  match valued with
  | none => .ok (none, rest)
  | some (option, some text) => .ok (some (option, attachedValue text), rest)
  | some (option, none) =>
      match rest with
      | (value, .plain) :: rest => .ok (some (option, some value), rest)
      | _ => .error (.expectedArgument option)

theorem valueOf_length_le {valued : Option (Switch × Option (List Char))}
    {rest rest' : List (String × Argument)} {value : Option (Switch × Option String)}
    (h : valueOf valued rest = .ok (value, rest')) : rest'.length ≤ rest.length := by
  simp only [valueOf] at h
  split at h
  · simp only [Except.ok.injEq, Prod.mk.injEq] at h
    exact Nat.le_of_eq (congrArg List.length h.2.symm)
  · simp only [Except.ok.injEq, Prod.mk.injEq] at h
    exact Nat.le_of_eq (congrArg List.length h.2.symm)
  · split at h
    · simp only [Except.ok.injEq, Prod.mk.injEq] at h
      rw [← h.2]
      exact Nat.le_succ _
    · simp at h

/-- Carries out the options of a bundle. -/
def Settings.apply (s : Settings) (enabled : List Switch)
    (valued : Option (Switch × Option String)) :
    Except Stop Settings := do
  let s ← enabled.foldlM Settings.enable s
  match valued with
  | some (option, value) => s.assign option value
  | none => pure s

/-- The bundle that an argument holds if it is an option. -/
def Argument.bundle? : Argument → Option (Except UsageFault Bundle)
  | .long option value => some (Bundle.long option value)
  | .short option attached => some (Bundle.short option attached)
  | .plain | .separator | .unknown => none

/-- Carries out the options of classified arguments from left to right, and collects the arguments
that belong to none. -/
def carryOut (s : Settings) : List (String × Argument) → Except Stop (Settings × List String)
  | [] => .ok (s, [])
  | (text, argument) :: rest =>
      match argument.bundle? with
      | none => do
          let (s, extras) ← carryOut s rest
          pure (s, text :: extras)
      | some bundle => do
          let bundle ← bundle.mapError .usage
          match _h : valueOf bundle.valued rest with
          | .error fault => .error (.usage fault)
          | .ok (valued, rest') =>
              let s ← s.apply bundle.enabled valued
              carryOut s rest'
termination_by arguments => arguments.length
decreasing_by
  · exact Nat.lt_succ_self _
  · exact Nat.lt_succ_of_le (valueOf_length_le _h)

/-- Reads a command line. -/
def readArguments (argv : List String) : Except Stop Settings := do
  let arguments ← (classifyAll argv).mapError .usage
  let (s, extras) ← carryOut .initial arguments
  if extras.isEmpty then pure s else .error (.usage (.unrecognized extras))

end Sentential.CommandLine
