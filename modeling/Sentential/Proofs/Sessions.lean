import Sentential.Proofs.Levels
import Sentential.Proofs.NestedGroups
import Sentential.Session.Steps

/-!
# What a session answers at a level

The steps of a session share one logger, and some of them set its level. Of all that was done before
a step, the step finds only the level that was set last: it is answered as the first step of a
session at that level (`answers_eq`). The level reaches into the reading of a line as well, since
records are written on the stack on which the line is read. At the level of debugging a line may be
nested too deeply for them (`Step.RunsOut`). Apart from that a step prints and answers the same at
all levels, and a log of a higher level shows of a step what reaches this level.
-/

namespace Sentential

open Text

/-! ## The lines of a step -/

namespace Step

/-- The level that a step sets. -/
def newLevel? : Step → Option Severity
  | .level new => some new
  | .configure verbose debug => some (Registry.switchLevel verbose debug)
  | .line .. | .run _ => none

/-- The lines with a formula that a step processes, with their numbers. -/
def formulaLines : Step → List (String × Int)
  | .line number raw => [(raw, number)]
  | .run lines => (numberedFormulas 1 lines).map fun p => (p.1, (p.2 : Int))
  | .level _ | .configure .. => []

/-- The stack on which a step processes its lines: a run does so inside a call. -/
def stackAt (action : Step) (level : Severity) : Stack :=
  match action with
  | .run _ => (Stack.ofLevel level.number).enter
  | .line .. | .level _ | .configure .. => Stack.ofLevel level.number

/-- The answer to a line of a step. -/
def answerAt (config : Config) (action : Step) (level : Severity) (p : String × Int) :
    Traced LineFault String := answerLine config (action.stackAt level) p.2 p.1

/-- At the lower level a line is nested too deeply to be read and written about, and at the higher
level it is answered otherwise. -/
def RunsOut (config : Config) (action : Step) (low high : Severity) (p : String × Int) : Prop :=
  ¬(action.stackAt low).HasRoomFor (normalizedText (trimmed p.1)) ∧
    ∃ fault, LineFault.IsUnread fault ∧
      (action.answerAt config low p).result = .error fault ∧
      (action.answerAt config high p).result ≠ .error fault

variable {config : Config} {low high : Severity}

theorem stackAt_of_ne_debug (action : Step) (h : low ≠ .debug) :
    action.stackAt low = action.stackAt .warning := by
  have hwarning : Severity.warning ≠ .debug := by decide
  have hstack : Stack.ofLevel low.number = Stack.ofLevel Severity.warning.number := by
    rw [Stack.ofLevel_of_ne_debug h, Stack.ofLevel_of_ne_debug hwarning]
  cases action <;> simp only [stackAt, hstack]

theorem frames_stackAt (action : Step) (low high : Severity) :
    (action.stackAt low).frames = (action.stackAt high).frames := by
  cases action <;> rfl

theorem recordCost_stackAt (action : Step) (h : low ≠ .debug) :
    (action.stackAt low).recordCost = 0 := by
  rw [action.stackAt_of_ne_debug h]
  cases action <;> rfl

/-- A line of a step shows alike at two levels, unless it runs out of room at the level of
debugging. -/
theorem runsOut_or_showAlike (action : Step) (hle : low.number ≤ high.number) (p : String × Int) :
    low = .debug ∧ action.RunsOut config low high p ∨
      (action.answerAt config low p).ShowAlike high (action.answerAt config high p) := by
  by_cases hlow : low = .debug
  · by_cases hhigh : high = .debug
    · rw [hlow, hhigh]
      exact Or.inr ⟨rfl, rfl⟩
    have hframes := action.frames_stackAt low high
    have hcost := action.recordCost_stackAt hhigh
    have hle' : (action.stackAt high).recordCost ≤ (action.stackAt low).recordCost := by
      rw [hcost]
      exact Nat.zero_le _
    by_cases hresult :
        (action.answerAt config low p).result = (action.answerAt config high p).result
    · exact Or.inr (showAlike_answerLine hhigh (Stack.fitsInto_of_frames_eq hframes hle') hresult)
    · refine Or.inl ⟨hlow, ?_, ?_⟩
      · intro hroom
        exact hresult (result_answerLine_eq_of_room hframes hcost hroom)
      · rcases answerLine_settles_of_frames_eq hframes hle' config p.2 p.1 with
          ⟨fault, hunread, hfault⟩ | heq
        · exact ⟨fault, hunread, hfault, fun hhigher => hresult (hfault.trans hhigher.symm)⟩
        · exact absurd (congrArg Traced.result heq) hresult
  · -- at both levels the stack is the same
    rw [answerAt, answerAt, action.stackAt_of_ne_debug hlow,
      action.stackAt_of_ne_debug (Severity.ne_debug_of_le hle hlow)]
    exact Or.inr ⟨rfl, rfl⟩

end Step

/-- The level that some steps leave: the one that is set last. -/
def Severity.settled (level : Severity) (steps : List Step) : Severity :=
  steps.foldl (fun current action => action.newLevel?.getD current) level

namespace Session

/-- A session after some steps. -/
def after (s : Session) (steps : List Step) : Session :=
  steps.foldl (fun s action => (s.step action).2) s

/-- A session at its start, with the level set first. -/
def atLevel (config : Config) (level : Severity) : Session :=
  ((start config).step (.level level)).2

/-- The events of a step that the log shows. -/
def records (s : Session) (action : Step) : List Event :=
  s.registry.sharedRecords (work s.config s.registry.stack action).1

/-! ## The state of a session -/

variable {s s' : Session} {level : Severity}

theorem config_after (s : Session) (steps : List Step) : (s.after steps).config = s.config := by
  induction steps generalizing s with
  | nil => rfl
  | cons action rest ih => exact ih (s.step action).2

theorem sharesAt_start (config : Config) : (start config).registry.SharesAt .warning :=
  Registry.sharesAt_sharedLogger_empty

/-- A step that sets a level leaves that level, and any other step leaves the level as it is. -/
theorem sharesAt_step (h : s.registry.SharesAt level) (action : Step) :
    (s.step action).2.registry.SharesAt (action.newLevel?.getD level) := by
  cases action with
  | line number raw => exact h
  | run lines => exact h
  | level new => exact h.setSharedLevel new
  | configure verbose debug => exact h.setSharedLevel (Registry.switchLevel verbose debug)

theorem sharesAt_after (h : s.registry.SharesAt level) (steps : List Step) :
    (s.after steps).registry.SharesAt (level.settled steps) := by
  induction steps generalizing s level with
  | nil => exact h
  | cons action rest ih => exact ih (sharesAt_step h action)

theorem sharesAt_atLevel (config : Config) (level : Severity) :
    (atLevel config level).registry.SharesAt level :=
  sharesAt_step (sharesAt_start config) (.level level)

/-- A session begins at the level of warnings. -/
theorem atLevel_warning (config : Config) : atLevel config .warning = start config := rfl

/-! ## The answers of a session -/

theorem answers_append (s : Session) (before rest : List Step) :
    s.answers (before ++ rest) = s.answers before ++ (s.after before).answers rest := by
  induction before generalizing s with
  | nil => rfl
  | cons action before ih => exact congrArg _ (ih (s.step action).2)

theorem length_answers (s : Session) (steps : List Step) :
    (s.answers steps).length = steps.length := by
  induction steps generalizing s with
  | nil => rfl
  | cons action rest ih => exact congrArg (· + 1) (ih (s.step action).2)

theorem getElem?_answers (s : Session) (before : List Step) (action : Step) (rest : List Step) :
    (s.answers (before ++ action :: rest))[before.length]? =
      some ((s.after before).step action).1 := by
  rw [answers_append, ← s.length_answers before, List.getElem?_append_right (Nat.le_refl _),
    Nat.sub_self]
  rfl

/-- The answer to a step, in a session whose shared logger has the given level: the work on the
stack of this level, with the events that reach the level in the log. -/
theorem step_eq (h : s.registry.SharesAt level) (action : Step) :
    (s.step action).1 =
      ⟨(work s.config (.ofLevel level.number) action).2.1,
        String.join ((shown level (work s.config (.ofLevel level.number) action).1).map
          Event.written),
        (work s.config (.ofLevel level.number) action).2.2⟩ := by
  rw [← h.stack_eq, shown, ← h.writeShared_eq]
  rfl

theorem records_eq (h : s.registry.SharesAt level) (action : Step) :
    s.records action = shown level (work s.config (.ofLevel level.number) action).1 := by
  rw [records, h.sharedRecords_eq, h.stack_eq, shown]

/-- A line that fails at the level of the session fails as a step. -/
theorem outcome_step_line (h : s.registry.SharesAt level) {number : Int} {raw : String}
    {fault : LineFault}
    (hfault : (answerLine s.config (.ofLevel level.number) number raw).result = .error fault) :
    (s.step (.line number raw)).1.outcome = .failed fault := by
  rw [step_eq h, work, hfault]

/-- A step whose lines show alike on two stacks does so itself. -/
theorem work_shown_eq {config : Config} {action : Step} {low high : Severity}
    (h : ∀ p ∈ action.formulaLines,
      (action.answerAt config low p).ShowAlike level (action.answerAt config high p)) :
    shown level (work config (.ofLevel low.number) action).1 =
        shown level (work config (.ofLevel high.number) action).1 ∧
      (work config (.ofLevel low.number) action).2 =
        (work config (.ofLevel high.number) action).2 := by
  cases action with
  | line number raw =>
      obtain ⟨hresult, hshown⟩ := h (raw, number) List.mem_cons_self
      simp only [Step.answerAt, Step.stackAt] at hresult hshown
      rw [work, work, hresult]
      cases (answerLine config (.ofLevel high.number) number raw).result with
      | ok text => exact ⟨hshown, rfl⟩
      | error fault => exact ⟨hshown, rfl⟩
  | run lines =>
      have hrun : (run config (.ofLevel low.number) lines).shown level =
          (run config (.ofLevel high.number) lines).shown level := by
        apply run_shown_eq
        intro p hp
        exact h (p.1, (p.2 : Int)) (List.mem_map.2 ⟨p, hp, rfl⟩)
      obtain ⟨hstdout, hevents, hprocessed, hfailed, hbroken⟩ := Report.shown_eq_iff.1 hrun
      rw [work, work, hbroken, hstdout, hprocessed, hfailed]
      cases (run config (.ofLevel high.number) lines).broken with
      | none => exact ⟨hevents, rfl⟩
      | some fault => exact ⟨hevents, rfl⟩
  | level new => exact ⟨rfl, rfl⟩
  | configure verbose debug => exact ⟨rfl, rfl⟩

/-- Every step of a session is answered as in a session of its own at the level that was set last,
whatever was processed and whatever levels were set before it. A session begins at the level of
warnings, and the log shows the records of the step. At two levels a line of the step has the same
result, and the higher level shows the same of it, unless the lower level is that of debugging, at
which the line is nested too deeply for its records. If no line is, then the step prints and ends at
both levels in the same way, and its records at the higher level are, in order, those of its records
at the lower level whose number reaches the higher level. -/
theorem answers_eq (config : Config) (before rest : List Step) (action : Step) :
    ((start config).answers (before ++ action :: rest))[before.length]? =
        some ((atLevel config (Severity.warning.settled before)).step action).1 ∧
      atLevel config .warning = start config ∧
      (∀ level : Severity, ((atLevel config level).step action).1.stderr =
        String.join (((atLevel config level).records action).map Event.written)) ∧
      ∀ low high : Severity, low.number ≤ high.number →
        (∀ p ∈ action.formulaLines,
          low = .debug ∧ action.RunsOut config low high p ∨
            (action.answerAt config low p).ShowAlike high (action.answerAt config high p)) ∧
        ((low = .debug → ∀ p ∈ action.formulaLines, ¬action.RunsOut config low high p) →
          ((atLevel config low).step action).1.stdout =
              ((atLevel config high).step action).1.stdout ∧
            ((atLevel config low).step action).1.outcome =
              ((atLevel config high).step action).1.outcome ∧
            (atLevel config high).records action =
              ((atLevel config low).records action).filter fun e => high.number ≤ e.number) := by
  refine ⟨?_, atLevel_warning config, ?_, ?_⟩
  · have hbefore := sharesAt_after (sharesAt_start config) before
    rw [getElem?_answers, step_eq hbefore, step_eq (sharesAt_atLevel config _), config_after]
    rfl
  · intro level
    rw [step_eq (sharesAt_atLevel config level), records_eq (sharesAt_atLevel config level)]
  · intro low high hle
    refine ⟨fun p _ => action.runsOut_or_showAlike hle p, fun hroom => ?_⟩
    have halike : ∀ p ∈ action.formulaLines,
        (action.answerAt config low p).ShowAlike high (action.answerAt config high p) := by
      intro p hp
      rcases action.runsOut_or_showAlike hle p with ⟨hdebug, hout⟩ | halike
      · exact absurd hout (hroom hdebug p hp)
      · exact halike
    obtain ⟨hevents, hanswer⟩ := work_shown_eq halike
    have hlow := sharesAt_atLevel config low
    have hhigh := sharesAt_atLevel config high
    refine ⟨?_, ?_, ?_⟩
    · rw [step_eq hlow, step_eq hhigh]
      exact congrArg Prod.fst hanswer
    · rw [step_eq hlow, step_eq hhigh]
      exact congrArg Prod.snd hanswer
    · rw [records_eq hlow, records_eq hhigh]
      change _ = shown high _
      rw [shown_shown hle]
      exact hevents.symm

/-- A run in which a line fails, after the level was set to that of information: what it prints, and
the numbers of the records in its log. -/
theorem answers_eq_rejected_line :
    let config : Config := ⟨true, .plain, 16⟩
    let before : List Step := [.line 1 "p and", .configure true false]
    let action : Step := .run ["true", "p and"]
    Severity.debug.number ≤ Severity.info.number ∧
      (∀ p ∈ action.formulaLines, ¬action.RunsOut config .debug .info p) ∧
      (((start config).answers (before ++ [action]))[before.length]?.map fun answer =>
          (answer.stdout, answer.outcome)) = some ("⊤ => T\n", .totals 2 1) ∧
      ((atLevel config .info).records action).map Event.number = [20, 20, 40, 30] := by
  intro config before action
  obtain ⟨hanswer, -, -, hlevels⟩ := answers_eq config before [] action
  have hle : Severity.debug.number ≤ Severity.info.number := by decide
  have hroom : ∀ p ∈ action.formulaLines, ¬action.RunsOut config .debug .info p := by
    have htrue : (action.answerAt config .debug ("true", 1)).result = .ok "⊤ => T\n" := by
      decide +kernel
    have hmissing : (action.answerAt config .debug ("p and", 2)).result =
        .error (.parse (.operand (.binary .and) .right true "p ∧"
          (.malformed .emptyOperand ""))) := by
      decide +kernel
    rintro p hp ⟨-, fault, hunread, hfault, -⟩
    have hlines : action.formulaLines = [("true", 1), ("p and", 2)] := by decide +kernel
    rw [hlines] at hp
    rcases List.mem_cons.1 hp with rfl | hp
    · rw [htrue] at hfault
      cases hfault
    · rw [List.mem_singleton.1 hp, hmissing] at hfault
      cases hfault
      exact hunread
  obtain ⟨-, hsame⟩ := hlevels .debug .info hle
  obtain ⟨hstdout, houtcome, hrecords⟩ := hsame fun _ => hroom
  refine ⟨hle, hroom, ?_, ?_⟩
  · have hlevel : Severity.warning.settled before = .info := rfl
    rw [hanswer, hlevel, Option.map_some, ← hstdout, ← houtcome]
    decide +kernel
  · rw [hrecords]
    decide +kernel

/-- Between 491 pairs of parentheses, two groups side by side are nested too deeply at the level of
debugging. At the level at which a session begins, the same line is rejected for what it says. -/
theorem outcome_depends_on_level :
    let config : Config := ⟨false, .plain, 16⟩
    let before : List Step := [.level .debug]
    let action : Step := .line 1 (String.ofList (nested 491 sideBySide))
    ((start config).answers (before ++ [action]))[before.length]?.map Answer.outcome =
        some (.failed (.parse (.tooDeep 988))) ∧
      ((start config).step action).1.outcome =
        .failed (.parse (.malformed .unexpectedSymbol "(p)(q)")) := by
  intro config before action
  have hdebug := sharesAt_after (sharesAt_start config) before
  have hroom : groupCost * 491 ≤ nestingLimit := by decide
  constructor
  · rw [getElem?_answers, Option.map_some,
      outcome_step_line hdebug (result_answerLine_nested config 1 hroom)]
    rfl
  · rw [outcome_step_line (sharesAt_start config) (result_answerLine_nested config 1 hroom)]
    rfl

end Session

end Sentential
