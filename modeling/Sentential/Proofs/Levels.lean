import Sentential.Proofs.Runs

/-!
# What a log shows

A log of some level shows those events that reach the level (`shown`). Two computations show alike
at a level if they have the same result and a log of this level shows the same events of them
(`Traced.ShowAlike`). The answers to a line on two stacks of which one fits into the other show
alike above the level of debugging, if only their results are the same (`showAlike_answerLine`):
where both fail, neither reports more than that the line was begun. A run shows alike on two stacks
if the answers to its lines do (`run_shown_eq`).
-/

namespace Sentential

open Text

/-! ## The events that are shown -/

theorem Severity.debug_lt {level : Severity} (h : level ≠ .debug) :
    Severity.debug.number < level.number := by
  cases level with
  | debug => exact absurd rfl h
  | _ => decide

/-- The events that a log of the level shows. -/
def shown (level : Severity) (es : List Event) : List Event :=
  es.filter fun e => level.number ≤ e.number

variable {level : Severity}

theorem shown_append (as bs : List Event) :
    shown level (as ++ bs) = shown level as ++ shown level bs := List.filter_append as bs

/-- Of what a log shows, a log of a higher level shows what it shows of everything. -/
theorem shown_shown {low high : Severity} (hle : low.number ≤ high.number) (es : List Event) :
    shown high (shown low es) = shown high es := by
  rw [shown, shown, shown, List.filter_filter]
  apply List.filter_congr
  intro e _
  rw [← Bool.decide_and, decide_eq_decide]
  omega

/-- Above the level of debugging nothing is shown of its events. -/
theorem shown_of_isDebug (hlevel : level ≠ .debug) {es : List Event} (h : ∀ e ∈ es, e.IsDebug) :
    shown level es = [] := by
  rw [shown, List.filter_eq_nil_iff]
  intro e he hreaches
  have hdebug : e.number = Severity.debug.number := h e he
  rw [decide_eq_true_eq, hdebug] at hreaches
  exact absurd (Severity.debug_lt hlevel) (Int.not_lt.2 hreaches)

namespace Traced

variable {ε α β : Type}

/-- Two computations have the same result, and a log of the level shows the same events of them. -/
def ShowAlike (level : Severity) (x y : Traced ε α) : Prop :=
  x.result = y.result ∧ shown level x.events = shown level y.events

theorem shown_bind (x : Traced ε α) (f : α → Traced ε β) :
    shown level (x >>= f).events =
      shown level x.events ++ match x.result with
        | .ok a => shown level (f a).events
        | .error _ => [] := by
  rw [events_bind, shown_append]
  cases x.result <;> rfl

end Traced

/-! ## The stack at a level -/

theorem Severity.ne_debug_of_le {low high : Severity} (hle : low.number ≤ high.number)
    (hlow : low ≠ .debug) : high ≠ .debug := by
  rintro rfl
  exact absurd (Severity.debug_lt hlow) (Int.not_lt.2 hle)

/-- The records of the reading are written at the level of debugging alone. -/
theorem Stack.ofLevel_of_ne_debug (h : level ≠ .debug) :
    Stack.ofLevel level.number = .standard false := by
  rw [ofLevel, decide_eq_false (Int.not_le.2 (Severity.debug_lt h))]

/-! ## The answer to a line -/

section Answer

variable {config : Config} {stack stack' : Stack} {number : Int} {raw : String}

/-- Only for a complete table there is more to show than that the line was begun. -/
theorem shown_printFormula_of_error (hlevel : level ≠ .debug) {normalized : String} {f : Formula}
    {fault : LineFault} (h : (printFormula config stack normalized f).result = .error fault) :
    shown level (printFormula config stack normalized f).events = [] := by
  cases hsingle : config.single with
  | true =>
      apply shown_of_isDebug hlevel
      rw [printFormula, if_pos hsingle]
      refine Traced.Reports.bind ((Traced.reports_ofExcept _).mapFault _) fun value => ?_
      exact Traced.reports_pure _
  | false =>
      obtain ⟨text, htext⟩ := result_printFormula_table hsingle stack normalized f
      have htable := isDebug_ofFormulaWithin stack.walkLimit f config.maxVariables
      rw [printFormula, if_neg (by rw [hsingle]; exact Bool.false_ne_true), Traced.shown_bind,
        shown_of_isDebug hlevel (htable.mapFault LineFault.evaluation), List.nil_append]
      rw [htext] at h
      rw [Traced.result_mapFault]
      -- a table that is found can be printed, so it is the table that is missing
      cases hresult : (TruthTable.ofFormulaWithin stack.walkLimit f config.maxVariables).result with
      | error missing => rfl
      | ok table =>
          rw [hresult] at h
          cases h

/-- Above the level of debugging nothing is shown of an answer that fails but that the line was
begun. -/
theorem shown_answerLine_of_error (hlevel : level ≠ .debug) {fault : LineFault}
    (h : (answerLine config stack number raw).result = .error fault) :
    shown level (answerLine config stack number raw).events =
      shown level [.lineStarted number (trimmed raw)] := by
  have hnormalize : (normalizeLine (trimmed raw) : Traced LineFault String).result =
      .ok (normalizedText (trimmed raw)) := result_normalizeLine _
  have hparse := (isDebug_parseOn stack (normalizedText (trimmed raw))).mapFault LineFault.parse
  have hstart : shown level (Event.lineStart number (trimmed raw) (normalizedText (trimmed raw))) =
      shown level [.lineStarted number (trimmed raw)] := by
    rw [Event.lineStart, ← List.singleton_append, shown_append, List.append_right_eq_self]
    apply shown_of_isDebug hlevel
    intro e he
    split at he
    · exact absurd he List.not_mem_nil
    · rw [List.mem_singleton.1 he]
      rfl
  rw [result_answerLine] at h
  rw [answerLine, Traced.shown_bind, shown_of_isDebug hlevel (isDebug_normalizeLine _), hnormalize,
    List.nil_append]
  dsimp only
  rw [Traced.shown_bind, Traced.result_noteAll]
  dsimp only
  rw [Traced.shown_bind, shown_of_isDebug hlevel hparse, Traced.result_mapFault, List.nil_append]
  cases hresult : (Formula.parseOn stack (normalizedText (trimmed raw))).result with
  | error missing => exact (List.append_nil _).trans hstart
  | ok f =>
      rw [hresult] at h
      dsimp only [Except.mapError]
      rw [shown_printFormula_of_error hlevel h, List.append_nil]
      exact hstart

/-- The answers to a line on two stacks of which one fits into the other show alike above the level
of debugging if their results are the same. -/
theorem showAlike_answerLine (hlevel : level ≠ .debug) (hfits : stack.FitsInto stack')
    (h : (answerLine config stack number raw).result =
      (answerLine config stack' number raw).result) :
    (answerLine config stack number raw).ShowAlike level (answerLine config stack' number raw) := by
  refine ⟨h, ?_⟩
  rcases answerLine_settles hfits config number raw with ⟨fault, -, hfault⟩ | heq
  · rw [shown_answerLine_of_error hlevel hfault, shown_answerLine_of_error hlevel (h ▸ hfault)]
  · rw [heq]

/-- A line whose reading leaves room for records is answered alike with and without their cost. -/
theorem result_answerLine_eq_of_room (hframes : stack.frames = stack'.frames)
    (hcost : stack'.recordCost = 0)
    (hroom : stack.HasRoomFor (normalizedText (trimmed raw))) :
    (answerLine config stack number raw).result = (answerLine config stack' number raw).result := by
  rw [result_answerLine, result_answerLine, parseOn_eq_of_room hroom,
    Formula.parseOn_of_recordCost_eq_zero hcost, Stack.budget, Stack.budget, hframes]
  simp only [printFormula, Stack.walkLimit, hframes]

end Answer

/-! ## The report of a run -/

/-- What a log of the level shows of a report. -/
def Report.shown (level : Severity) (r : Report) : Report :=
  { r with events := Sentential.shown level r.events }

/-- Reports show alike if they agree in everything but in what is not shown of their events. -/
theorem Report.shown_eq_iff {r s : Report} :
    r.shown level = s.shown level ↔
      r.stdout = s.stdout ∧ Sentential.shown level r.events = Sentential.shown level s.events ∧
        r.processed = s.processed ∧ r.failed = s.failed ∧ r.broken = s.broken := by
  rw [Report.shown, Report.shown, Report.mk.injEq]

theorem Report.shown_append (r s : Report) :
    (r.append s).shown level = (r.shown level).append (s.shown level) := by
  rw [Report.shown, Report.append, Sentential.shown_append]
  rfl

section Reports

variable {config : Config} {stack stack' : Stack} {n : Nat} {raw : String} {lines : List String}

theorem lineReport_shown_eq
    (h : (answerLine config stack n (trimmed raw)).ShowAlike level
      (answerLine config stack' n (trimmed raw))) :
    (lineReport config stack n raw).shown level = (lineReport config stack' n raw).shown level := by
  obtain ⟨hresult, hshown⟩ := h
  rw [lineReport, lineReport, hresult]
  cases (answerLine config stack' n (trimmed raw)).result with
  | ok text => simp only [Report.shown, hshown]
  | error fault =>
      dsimp only
      split
      · simp only [Report.shown, hshown]
      · simp only [Report.shown, shown_append, hshown]

/-- By induction on the lines: whether a report ends the run is not a matter of what is shown. -/
theorem runLines_shown_eq
    (h : ∀ p ∈ numberedFormulas n lines,
      (answerLine config stack p.2 p.1).ShowAlike level (answerLine config stack' p.2 p.1)) :
    (runLines config stack n lines).shown level = (runLines config stack' n lines).shown level := by
  induction lines generalizing n with
  | nil => rfl
  | cons raw rest ih =>
      rw [numberedFormulas_cons] at h
      rw [runLines, runLines]
      split at h
      next hformula =>
        rw [if_pos hformula, if_pos hformula]
        have hfirst := lineReport_shown_eq (h (trimmed raw, n) List.mem_cons_self)
        have hrest := ih fun p hp => h p (List.mem_cons_of_mem _ hp)
        obtain ⟨-, -, -, -, hbroken⟩ := Report.shown_eq_iff.1 hfirst
        dsimp only
        rw [hbroken]
        split
        · exact hfirst
        · rw [Report.shown_append, Report.shown_append, hfirst, hrest]
      next hformula =>
        rw [if_neg hformula, if_neg hformula]
        exact ih h

/-- A run shows alike on two stacks if the answers to its lines do, which it finds inside a call. -/
theorem run_shown_eq
    (h : ∀ p ∈ numberedFormulas 1 lines,
      (answerLine config stack.enter p.2 p.1).ShowAlike level
        (answerLine config stack'.enter p.2 p.1)) :
    (run config stack lines).shown level = (run config stack' lines).shown level := by
  have hlines := runLines_shown_eq h
  obtain ⟨hstdout, hevents, hprocessed, hfailed, hbroken⟩ := Report.shown_eq_iff.1 hlines
  rw [run, run, hbroken]
  split
  · exact hlines
  · rw [Report.shown_eq_iff, shown_append, shown_append, hevents, hprocessed, hfailed]
    exact ⟨hstdout, rfl, rfl, rfl, rfl⟩

end Reports

end Sentential
