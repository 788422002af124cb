import Sentential.CommandLine.Program
import Sentential.Proofs.Reports
import Sentential.Proofs.SharedLogger
import Sentential.Proofs.Stacks

/-!
# Runs

A run is composed of the answers to its lines (`run_composition`). Every line that holds a formula
contributes its text or its rejection, and neither depends on the other lines. The exception is a
number of rows that cannot be written: a formula that is refused a table for it ends the run
(`endsRun_answerLine_iff`), and nothing else does (`run_broken_iff`). Since a run processes its
lines inside a call, a line finds less room on the stack than it does alone, and what it is answered
may be that it is nested too deeply.
-/

namespace Sentential

open Text

/-! ## The lines of a run -/

/-- The trimmed lines that are neither empty nor comments, with their numbers among all lines, of
which the first has the number `n`. -/
def numberedFormulas (n : Nat) (lines : List String) : List (String × Nat) :=
  ((lines.map trimmed).zipIdx n).filter fun p => p.1 ≠ "" ∧ p.1.toList.head? ≠ some '#'

theorem toList_trimmed (s : String) : (trimmed s).toList = trim s.toList := by
  rw [trimmed, String.toList_ofList]

theorem trimmed_trimmed (s : String) : trimmed (trimmed s) = trimmed s := by
  rw [trimmed, toList_trimmed, trim_trim, ← trimmed]

/-- A line holds a formula if its trimmed text is not empty and does not begin a comment. -/
theorem isFormulaLine_iff (raw : String) :
    isFormulaLine raw = true ↔ trimmed raw ≠ "" ∧ (trimmed raw).toList.head? ≠ some '#' := by
  have hempty : trimmed raw = "" ↔ trim raw.toList = [] := by
    rw [← toList_trimmed, String.toList_eq_nil_iff]
  rw [isFormulaLine, ne_eq, hempty, toList_trimmed]
  cases trim raw.toList with
  | nil => simp
  | cons c rest => simp

theorem numberedFormulas_cons (n : Nat) (raw : String) (rest : List String) :
    numberedFormulas n (raw :: rest) =
      if isFormulaLine raw then (trimmed raw, n) :: numberedFormulas (n + 1) rest
      else numberedFormulas (n + 1) rest := by
  have hiff := isFormulaLine_iff raw
  rw [numberedFormulas, List.map_cons, List.zipIdx_cons, List.filter_cons]
  simp only [decide_eq_true_eq, ← hiff]
  rfl

theorem trimmed_of_mem_numberedFormulas {n : Nat} {lines : List String} {p : String × Nat}
    (h : p ∈ numberedFormulas n lines) : trimmed p.1 = p.1 := by
  obtain ⟨raw, -, hraw⟩ := List.mem_map.1 (List.fst_mem_of_mem_zipIdx (List.mem_of_mem_filter h))
  rw [← hraw, trimmed_trimmed]

/-! ## The reports of the lines -/

/-- The answer to a numbered line. -/
def lineResult (config : Config) (stack : Stack) (p : String × Nat) : Except LineFault String :=
  (answerLine config stack p.2 p.1).result

/-- The number, the text and the wording of the fault of a line that fails. -/
def rejection? (config : Config) (stack : Stack) (p : String × Nat) :
    Option (Int × String × String) :=
  match lineResult config stack p with
  | .ok _ => none
  | .error fault => some (p.2, p.1, fault.message)

/-- The answer to the line would end a run. -/
def EndsRun (config : Config) (stack : Stack) (p : String × Nat) : Prop :=
  ∃ fault, lineResult config stack p = .error fault ∧ fault.endsRun = true

variable {config : Config} {stack : Stack} {line : String} {n : Nat}

/-- The report of a line is broken exactly if its answer would end a run. -/
theorem lineReport_broken_iff (hline : trimmed line = line) :
    (lineReport config stack n line).broken.isSome = true ↔ EndsRun config stack (line, n) := by
  rw [lineReport, EndsRun, lineResult, hline]
  cases (answerLine config stack n line).result with
  | ok text => simp
  | error fault => by_cases hends : fault.endsRun = true <;> simp [hends]

/-- What the report of a line says: it counts the line, and has its text or its rejection. -/
theorem lineReport_spec (hline : trimmed line = line) (h : ¬EndsRun config stack (line, n)) :
    (lineReport config stack n line).processed = 1 ∧
      (lineReport config stack n line).failed =
        (if (lineResult config stack (line, n)).isOk then 0 else 1) ∧
      (lineReport config stack n line).stdout =
        ((lineResult config stack (line, n)).toOption).getD "" ∧
      (lineReport config stack n line).events.filterMap Event.rejection? =
        (rejection? config stack (line, n)).toList := by
  have hquiet : (answerLine config stack n line).events.filterMap Event.rejection? = [] :=
    List.filterMap_eq_nil_iff.2 (quiet_answerLine config stack n line)
  rw [lineReport, hline, rejection?]
  rw [EndsRun] at h
  rw [lineResult] at h ⊢
  cases hresult : (answerLine config stack n line).result with
  | ok text => exact ⟨rfl, rfl, rfl, hquiet⟩
  | error fault =>
      have hends : ¬fault.endsRun = true := fun hends => h ⟨fault, hresult, hends⟩
      dsimp only
      rw [if_neg hends]
      refine ⟨rfl, rfl, rfl, ?_⟩
      rw [List.filterMap_append, hquiet]
      rfl

/-! ## The composition of a run -/

/-- The reports of numbered lines, one after the other. -/
def compose (config : Config) (stack : Stack) (ps : List (String × Nat)) : Report :=
  ps.foldr (fun p report => (lineReport config stack p.2 p.1).append report) .empty

/-- The report of a line does not see the blanks at its ends. -/
theorem lineReport_trimmed (config : Config) (stack : Stack) (n : Nat) (raw : String) :
    lineReport config stack n raw = lineReport config stack n (trimmed raw) := by
  simp only [lineReport, trimmed_trimmed]

/-- Some lines are processed to the reports of those that hold a formula, unless one of these ends
the run. By induction on the lines. -/
theorem runLines_eq_compose {lines : List String} :
    ∀ {n : Nat}, (∀ p ∈ numberedFormulas n lines, ¬EndsRun config stack p) →
      runLines config stack n lines = compose config stack (numberedFormulas n lines) := by
  induction lines with
  | nil =>
      intro n _
      rfl
  | cons raw rest ih =>
      intro n h
      rw [numberedFormulas_cons] at h ⊢
      rw [runLines]
      by_cases hraw : isFormulaLine raw = true
      · rw [if_pos hraw] at h ⊢
        rw [if_pos hraw, lineReport_trimmed]
        -- the report of the first line is whole, so that the run goes on with the rest
        have hfirst := h _ List.mem_cons_self
        rw [← lineReport_broken_iff (trimmed_trimmed raw)] at hfirst
        rw [if_neg hfirst, ih fun p hp => h p (List.mem_cons_of_mem _ hp)]
        rfl
      · rw [if_neg hraw] at h ⊢
        rw [if_neg hraw, ih h]

/-- The lines are not processed to their end exactly if one of them ends the run. -/
theorem runLines_broken_iff {lines : List String} :
    ∀ {n : Nat}, (runLines config stack n lines).broken.isSome = true ↔
      ∃ p ∈ numberedFormulas n lines, EndsRun config stack p := by
  induction lines with
  | nil =>
      intro n
      simp [runLines, Report.empty, numberedFormulas]
  | cons raw rest ih =>
      intro n
      rw [numberedFormulas_cons, runLines]
      by_cases hraw : isFormulaLine raw = true
      · rw [if_pos hraw, if_pos hraw, lineReport_trimmed, List.exists_mem_cons_iff,
          ← lineReport_broken_iff (trimmed_trimmed raw)]
        dsimp only
        split
        next hbroken => exact iff_of_true hbroken (Or.inl hbroken)
        next hbroken =>
          rw [or_iff_right hbroken]
          exact ih
      · rw [if_neg hraw, if_neg hraw]
        exact ih

/-- What the reports of numbered lines say together, by induction on the lines. -/
theorem compose_spec {ps : List (String × Nat)} (htrimmed : ∀ p ∈ ps, trimmed p.1 = p.1)
    (h : ∀ p ∈ ps, ¬EndsRun config stack p) :
    (compose config stack ps).processed = ps.length ∧
      (compose config stack ps).failed = ps.countP (fun p => !(lineResult config stack p).isOk) ∧
      (compose config stack ps).stdout =
        String.join (ps.filterMap fun p => (lineResult config stack p).toOption) ∧
      (compose config stack ps).events.filterMap Event.rejection? =
        ps.filterMap (rejection? config stack) ∧
      (compose config stack ps).broken = none := by
  induction ps with
  | nil => exact ⟨rfl, rfl, rfl, rfl, rfl⟩
  | cons p rest ih =>
      obtain ⟨line, n⟩ := p
      obtain ⟨hprocessed, hfailed, hstdout, hevents, hbroken⟩ :=
        ih (fun q hq => htrimmed q (List.mem_cons_of_mem _ hq))
          (fun q hq => h q (List.mem_cons_of_mem _ hq))
      obtain ⟨hone, hfail, htext, hreject⟩ :=
        lineReport_spec (htrimmed _ List.mem_cons_self) (h _ List.mem_cons_self)
      have hcons : compose config stack ((line, n) :: rest) =
          (lineReport config stack n line).append (compose config stack rest) := rfl
      rw [hcons]
      simp only [Report.append, hone, hfail, htext, hprocessed, hfailed, hstdout, hbroken,
        List.filterMap_append, hreject, hevents]
      refine ⟨Nat.add_comm 1 rest.length, ?_, ?_, ?_, trivial⟩
      · rw [List.countP_cons, Nat.add_comm]
        cases (lineResult config stack (line, n)).isOk <;> rfl
      · rw [List.filterMap_cons]
        cases (lineResult config stack (line, n)).toOption with
        | none => exact String.empty_append
        | some text => exact String.join_cons.symm
      · rw [List.filterMap_cons]
        cases rejection? config stack (line, n) <;> rfl

/-- A run over lines of which none ends it: their reports, and the totals. -/
theorem run_eq_compose {lines : List String}
    (h : ∀ p ∈ numberedFormulas 1 lines, ¬EndsRun config stack.enter p) :
    run config stack lines =
      { compose config stack.enter (numberedFormulas 1 lines) with
        events := (compose config stack.enter (numberedFormulas 1 lines)).events ++
          [.totals (compose config stack.enter (numberedFormulas 1 lines)).processed
            (compose config stack.enter (numberedFormulas 1 lines)).failed] } := by
  have hbroken := (compose_spec (fun p hp => trimmed_of_mem_numberedFormulas hp) h).2.2.2.2
  rw [run, runLines_eq_compose h]
  exact if_neg (by rw [hbroken]; exact Bool.false_ne_true)

/-- What a run says whose lines do not end it. The event for the totals rejects no line. -/
theorem run_spec {lines : List String}
    (h : ∀ p ∈ numberedFormulas 1 lines, ¬EndsRun config stack.enter p) :
    (run config stack lines).processed = (numberedFormulas 1 lines).length ∧
      (run config stack lines).failed =
        (numberedFormulas 1 lines).countP (fun p => !(lineResult config stack.enter p).isOk) ∧
      (run config stack lines).stdout =
        String.join ((numberedFormulas 1 lines).filterMap fun p =>
          (lineResult config stack.enter p).toOption) ∧
      (run config stack lines).events.filterMap Event.rejection? =
        (numberedFormulas 1 lines).filterMap (rejection? config stack.enter) := by
  obtain ⟨hprocessed, hfailed, hstdout, hevents, -⟩ :=
    compose_spec (fun p hp => trimmed_of_mem_numberedFormulas hp) h
  rw [run_eq_compose h]
  refine ⟨hprocessed, hfailed, hstdout, ?_⟩
  rw [List.filterMap_append, hevents]
  exact List.append_nil _

/-- A run breaks off exactly if one of its lines ends it. -/
theorem run_broken_iff {lines : List String} :
    (run config stack lines).broken.isSome = true ↔
      ∃ p ∈ numberedFormulas 1 lines, EndsRun config stack.enter p := by
  have hrun : (run config stack lines).broken = (runLines config stack.enter 1 lines).broken := by
    rw [run]
    split <;> rfl
  rw [hrun, runLines_broken_iff]

/-- A line that ends a run is the last one: it is counted, but it is neither printed nor
reported. -/
theorem run_of_endsRun (hline : trimmed line = line) (hformula : isFormulaLine line = true)
    (h : EndsRun config stack.enter (line, 1)) (rest : List String) :
    (run config stack (line :: rest)).broken.isSome = true ∧
      (run config stack (line :: rest)).processed = 1 ∧
      (run config stack (line :: rest)).stdout = "" := by
  have hbroken := (lineReport_broken_iff hline).2 h
  have hrun : run config stack (line :: rest) = lineReport config stack.enter 1 line := by
    have hlines :
        runLines config stack.enter 1 (line :: rest) = lineReport config stack.enter 1 line := by
      rw [runLines, if_pos hformula]
      exact if_pos hbroken
    rw [run, hlines]
    exact if_pos hbroken
  rw [hrun]
  refine ⟨hbroken, ?_⟩
  obtain ⟨fault, hfault, hends⟩ := h
  rw [lineResult] at hfault
  rw [lineReport, hline, hfault]
  dsimp only
  rw [if_pos hends]
  exact ⟨rfl, rfl⟩

/-- The answer to a line inside of a run is the one that the line has alone, unless it is nested too
deeply for the room that the run leaves. -/
theorem lineResult_enter (config : Config) (stack : Stack) (p : String × Nat) :
    (∃ fault, fault.IsExhausted ∧ lineResult config stack.enter p = .error fault) ∨
      lineResult config stack.enter p = lineResult config stack p := by
  rcases answerLine_settles stack.enter_fitsInto config p.2 p.1 with hexhausted | heq
  · exact Or.inl hexhausted
  · exact Or.inr (congrArg Traced.result heq)

/-! ## The program -/

namespace CommandLine

/-- The input holds the lines, all of them. -/
inductive Provides (env : Environment) : Input → List String → Prop
  | formulas (lines : List String) : Provides env (.formulas (lines.map some)) lines
  | file {path : Path} {lines : List String} :
      formulaLines (env.readBytes path) = .ok lines → Provides env (.file (some path)) lines
  | stdin : env.interrupted = false → Provides env .stdin (Text.streamLines env.stdin)

/-- The command line asks for a run with the configuration over the lines, and sets the level of the
shared logger. -/
def Requests (env : Environment) (argv : List String) (config : Config) (level : Severity)
    (lines : List String) : Prop :=
  ∃ s, readArguments argv = .ok s ∧ s.maxVariables = some config.maxVariables ∧
    s.config config.maxVariables = config ∧ Registry.switchLevel s.verbose s.debug = level ∧
    Provides env s.input lines

variable {env : Environment} {argv : List String} {config : Config} {level : Severity}
  {lines : List String}

/-- The program runs over the lines that the command line asks for. -/
theorem Requests.exists_execute_eq (h : Requests env argv config level lines)
    (hpos : 0 ≤ config.maxVariables) :
    ∃ registry, execute env argv =
      .ofReport registry (run config (Stack.ofLevel level.number).enter lines) := by
  obtain ⟨s, hread, hmax, hconfig, rfl, hinput⟩ := h
  refine ⟨Registry.empty.configure s.verbose s.debug, ?_⟩
  rw [execute, hread]
  dsimp only
  rw [executeWith, hmax]
  dsimp only
  rw [if_neg (Int.not_lt.2 hpos), executeWithin, hconfig,
    (Registry.sharesAt_configure_empty s.verbose s.debug).stack_eq]
  generalize s.input = input at hinput
  cases hinput with
  | formulas =>
      have hall : (lines.map some).all Option.isSome = true := by
        rw [List.all_map, List.all_eq_true]
        exact fun line _ => rfl
      have hlines : (lines.map some).filterMap id = lines := by
        rw [List.filterMap_map]
        exact List.filterMap_some
      dsimp only
      rw [Outcome.ofFormulas, if_pos hall, hlines]
  | file hlines =>
      dsimp only
      rw [hlines]
  | stdin hends =>
      dsimp only
      rw [hends]
      rfl

/-- A run that does not break off leaves its printed text, and an exit code that tells whether a
line failed. -/
theorem Requests.outcome (h : Requests env argv config level lines)
    (hpos : 0 ≤ config.maxVariables)
    (hbroken : (run config (Stack.ofLevel level.number).enter lines).broken = none) :
    (execute env argv).ending =
        .exit (if 0 < (run config (Stack.ofLevel level.number).enter lines).failed then 1 else 0) ∧
      (execute env argv).stdout =
        (run config (Stack.ofLevel level.number).enter lines).stdout := by
  obtain ⟨registry, hexecute⟩ := h.exists_execute_eq hpos
  rw [hexecute, Outcome.ofReport, hbroken]
  refine ⟨?_, rfl⟩
  cases (run config (Stack.ofLevel level.number).enter lines).failed with
  | zero => rfl
  | succ count => rfl

end CommandLine

/-! ## The main statement -/

/-- A run is composed of the answers to its lines. It breaks off exactly if a table is due for a
formula of which the number of rows cannot be written, at a limit of which it cannot be written
either. Otherwise it processes the lines whose trimmed text is neither empty nor a comment, and each
of them is answered with its text or with one of the faults of the library: with the answer to the
line alone, or with the fault that it is nested too deeply for the room inside the run. The printed
text is the text of the lines that succeed, in order. The rejections are those of the lines that
fail, in order, each with the number of the line among all lines, its trimmed text and the wording
of its fault. The exit code of the program over the same lines tells whether one of them failed. -/
theorem run_composition (config : Config) (stack : Stack) (lines : List String)
    (hpos : 0 ≤ config.maxVariables) :
    ((run config stack lines).broken.isSome = true ↔
        config.single = false ∧ (largestWritableExponent : Int) < config.maxVariables ∧
          ∃ p ∈ numberedFormulas 1 lines, ∃ f,
            (Formula.parseOn stack.enter (normalizedText p.1)).result = .ok f ∧
            f.height ≤ stack.enter.walkLimit ∧
            largestWritableExponent < f.distinctNames.length) ∧
      ((run config stack lines).broken = none →
        (run config stack lines).processed = (numberedFormulas 1 lines).length ∧
        (run config stack lines).failed =
          (numberedFormulas 1 lines).countP (fun p => !(lineResult config stack.enter p).isOk) ∧
        (run config stack lines).stdout =
          String.join ((numberedFormulas 1 lines).filterMap fun p =>
            (lineResult config stack.enter p).toOption) ∧
        (run config stack lines).events.filterMap Event.rejection? =
          (numberedFormulas 1 lines).filterMap (rejection? config stack.enter) ∧
        ∀ p ∈ numberedFormulas 1 lines,
          (∀ fault, lineResult config stack.enter p = .error fault → fault.IsOrdinary) ∧
          ((∃ fault, fault.IsExhausted ∧ lineResult config stack.enter p = .error fault) ∨
            lineResult config stack.enter p = lineResult config stack p)) ∧
      ∀ env argv level, CommandLine.Requests env argv config level lines →
        (run config (Stack.ofLevel level.number).enter lines).broken = none →
          (CommandLine.execute env argv).ending =
              .exit (if 0 < (run config (Stack.ofLevel level.number).enter lines).failed
                then 1 else 0) ∧
            (CommandLine.execute env argv).stdout =
              (run config (Stack.ofLevel level.number).enter lines).stdout := by
  refine ⟨?_, ?_, fun env argv level hrequests => hrequests.outcome hpos⟩
  · rw [run_broken_iff]
    constructor
    · rintro ⟨p, hp, hends⟩
      obtain ⟨hsingle, f, hparse, hdepth, hwhy⟩ := endsRun_answerLine_iff.1 hends
      rw [trimmed_of_mem_numberedFormulas hp] at hparse
      rw [EvaluationFault.exists_refusal?_eq_unwritableRows_iff_of_nonneg hpos] at hwhy
      exact ⟨hsingle, hwhy.2, p, hp, f, hparse, hdepth, hwhy.1⟩
    · rintro ⟨hsingle, hlimit, p, hp, f, hparse, hdepth, hnames⟩
      rw [← trimmed_of_mem_numberedFormulas hp] at hparse
      have hwhy :=
        (EvaluationFault.exists_refusal?_eq_unwritableRows_iff_of_nonneg hpos).2 ⟨hnames, hlimit⟩
      exact ⟨p, hp, endsRun_answerLine_iff.2 ⟨hsingle, f, hparse, hdepth, hwhy⟩⟩
  · intro hbroken
    -- a run that is not broken off met no line that ends it, so that its reports are composed
    have hends : ∀ p ∈ numberedFormulas 1 lines, ¬EndsRun config stack.enter p := by
      intro p hp hends
      have hsome := run_broken_iff.2 ⟨p, hp, hends⟩
      rw [hbroken] at hsome
      exact Bool.false_ne_true hsome
    obtain ⟨hprocessed, hfailed, hstdout, hevents⟩ := run_spec hends
    refine ⟨hprocessed, hfailed, hstdout, hevents,
      fun p hp => ⟨?_, lineResult_enter config stack p⟩⟩
    intro fault hfault
    apply ordinary_of_answerLine hfault
    rw [← Bool.not_eq_true]
    exact fun hfaultEnds => hends p hp ⟨fault, hfault, hfaultEnds⟩

/-- A formula without its second operand, a comment, and a constant. -/
theorem run_missing_operand :
    let stack := (Stack.ofLevel Severity.warning.number).enter
    let report := run ⟨false, .plain, 16⟩ stack ["p and", " # note", "true"]
    report.broken = none ∧ report.processed = 2 ∧ report.failed = 1 ∧
      report.stdout = "| ⊤ |\n-----\n| T |\n-----\n" ∧
      report.events.filterMap Event.rejection? =
        [(1, "p and", "'∧' is missing its right operand: 'p ∧'")] ∧
      ∀ env, (CommandLine.execute env
        ["--no-color", "-e", "p and", "-e", " # note", "-e", "true"]).ending = .exit 1 := by
  intro stack report
  have hpos : 0 ≤ (⟨false, .plain, 16⟩ : Config).maxVariables := by decide
  obtain ⟨hiff, hcomposed, hexit⟩ :=
    run_composition ⟨false, .plain, 16⟩ stack ["p and", " # note", "true"] hpos
  have hbroken : report.broken = none := by
    rw [← Option.not_isSome_iff_eq_none, hiff]
    rintro ⟨-, hlimit, -⟩
    exact absurd hlimit (by decide)
  obtain ⟨hprocessed, hfailed, hstdout, hevents, -⟩ := hcomposed hbroken
  have hone : report.failed = 1 := by
    rw [hfailed]
    decide +kernel
  refine ⟨hbroken, hprocessed.trans ?_, hone, hstdout.trans ?_, hevents.trans ?_, ?_⟩
  · decide +kernel
  · decide +kernel
  · decide +kernel
  · intro env
    have hread : CommandLine.readArguments
        ["--no-color", "-e", "p and", "-e", " # note", "-e", "true"] =
          .ok
            ⟨none, ["p and", " # note", "true"].map some, false, true, some 16, false, false⟩ := by
      decide +kernel
    have hending := (hexit env _ .warning ⟨_, hread, rfl, rfl, rfl, .formulas _⟩ hbroken).1
    rw [show (run ⟨false, .plain, 16⟩ (Stack.ofLevel Severity.warning.number).enter
      ["p and", " # note", "true"]).failed = 1 from hone] at hending
    exact hending

end Sentential
