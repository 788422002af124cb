import Sentential.Session.Run

/-!
# What computations report

`Traced.Reports P x` says that all events of a computation have the property `P`, and it composes
along the parts of a computation. Reading a text, normalizing a line and building a table report
nothing but events of the level of debugging (`isDebug_parseOn`, `isDebug_ofFormulaWithin`). What
else the work on a line reports is its beginning and its complete table, so no event of it rejects a
line (`quiet_answerLine`): the rejections in a log are those that a run reports.
-/

namespace Sentential

namespace Traced

variable {ε δ α β : Type} {P Q : Event → Prop}

/-- All events of the computation have the property. -/
def Reports (P : Event → Prop) (x : Traced ε α) : Prop := ∀ e ∈ x.events, P e

theorem reports_of_events_eq_nil {x : Traced ε α} (h : x.events = []) : x.Reports P := by
  intro e he
  rw [h] at he
  exact absurd he List.not_mem_nil

theorem reports_pure (a : α) : (pure a : Traced ε α).Reports P := reports_of_events_eq_nil rfl

theorem reports_fail (fault : ε) : (fail fault : Traced ε α).Reports P :=
  reports_of_events_eq_nil rfl

theorem reports_ofExcept (r : Except ε α) : (ofExcept r).Reports P := reports_of_events_eq_nil rfl

theorem reports_note {e : Event} (h : P e) : (note e : Traced ε Unit).Reports P := by
  intro other hother
  rw [List.mem_singleton.1 hother]
  exact h

theorem Reports.mono {x : Traced ε α} (h : x.Reports P) (hPQ : ∀ e, P e → Q e) : x.Reports Q :=
  fun e he => hPQ e (h e he)

theorem Reports.mapFault {x : Traced ε α} (h : x.Reports P) (f : ε → δ) :
    (x.mapFault f).Reports P := h

/-- What all parts of a sequence report, the sequence reports. -/
theorem Reports.bind {x : Traced ε α} {f : α → Traced ε β} (h : x.Reports P)
    (hf : ∀ a, (f a).Reports P) : (x >>= f).Reports P := by
  intro e he
  rw [events_bind, List.mem_append] at he
  rcases he with he | he
  · exact h e he
  · cases hx : x.result with
    | ok a =>
        rw [hx] at he
        exact hf a e he
    | error fault =>
        rw [hx] at he
        exact absurd he List.not_mem_nil

theorem Reports.mapM {f : α → Traced ε β} {l : List α} (hf : ∀ a ∈ l, (f a).Reports P) :
    (l.mapM f).Reports P := by
  induction l with
  | nil => exact reports_pure []
  | cons a rest ih =>
      have hrest := ih fun b hb => hf b (List.mem_cons_of_mem a hb)
      rw [List.mapM_cons]
      apply (hf a List.mem_cons_self).bind
      intro b
      apply hrest.bind
      intro bs
      exact reports_pure (b :: bs)

end Traced

/-! ## Events of the level of debugging -/

/-- The event has the number of the level of debugging. -/
def Event.IsDebug (e : Event) : Prop := e.number = Severity.debug.number

theorem isDebug_report {length cost : Nat} {budget : Budget} {es : List Event}
    (h : ∀ e ∈ es, e.IsDebug) : (report length budget cost es).Reports Event.IsDebug := by
  cases es with
  | nil => exact Traced.reports_of_events_eq_nil rfl
  | cons e es =>
      cases hspend : budget.spend? cost with
      | some left =>
          simp only [report, hspend]
          exact h
      | none =>
          simp only [report, hspend]
          exact Traced.reports_fail _

theorem isDebug_keptParens (text : Source) (core : Window) :
    ∀ e ∈ keptParens text core, e.IsDebug := by
  intro e he
  rw [keptParens] at he
  split at he
  · rw [List.mem_singleton.1 he]
    rfl
  · exact absurd he List.not_mem_nil

theorem isDebug_descend {length cost : Nat} {budget : Budget}
    {read : Budget → Traced ParseFault Formula}
    (hread : ∀ left, (read left).Reports Event.IsDebug) :
    (descend length budget cost read).Reports Event.IsDebug := by
  rw [descend]
  cases budget.spend? cost with
  | some left => exact hread left
  | none => exact Traced.reports_fail _

/-- Reading a window reports events of the level of debugging, by induction on its size. -/
theorem isDebug_parseWindowAt (recordCost : Nat) (text : Source) (budget : Budget) (w : Window) :
    (parseWindowAt recordCost text budget w).Reports Event.IsDebug := by
  induction hn : w.size using Nat.strongRecOn generalizing budget w with
  | ind n ih =>
      subst hn
      -- an operand is a smaller window, whatever the cost of entering it
      have hoperand (cost : Nat) {o : Operand} (ho : o.window.size < w.size) :
          (readOperandAt recordCost text budget cost o).Reports Event.IsDebug := by
        apply Traced.Reports.mapFault
        apply isDebug_descend
        intro left
        exact ih _ ho left o.window rfl
      have hkept (core : Window) :
          (report text.size budget recordCost (keptParens text core)).Reports Event.IsDebug :=
        isDebug_report (isDebug_keptParens text core)
      rw [parseWindowAt_eq]
      cases hshape : text.shape w with
      | unbalanced fault => exact Traced.reports_fail _
      | blank => exact Traced.reports_fail _
      | group inner =>
          apply isDebug_descend
          intro left
          exact ih _ (Source.shape_group_size_lt hshape) left inner rfl
      | chain core first rest =>
          obtain ⟨hlefts, hright⟩ := Source.shape_chain_size_lt hshape
          apply (hkept core).bind
          intro _
          apply Traced.Reports.bind
          · apply isDebug_report
            intro e he
            rw [List.mem_singleton.1 he]
            rfl
          intro _
          apply Traced.Reports.bind
          · apply Traced.Reports.mapM
            intro p hp
            apply (hoperand chainCost (hlefts p hp)).bind
            intro f
            exact Traced.reports_pure _
          intro lefts
          apply (hoperand chainCost hright).bind
          intro last
          exact Traced.reports_pure _
      | negation core =>
          apply (hkept core).bind
          intro _
          apply (hoperand negationCost (Source.shape_negation_size_lt hshape)).bind
          intro f
          exact Traced.reports_pure _
      | buriedNegation core =>
          apply (hkept core).bind
          intro _
          exact Traced.reports_fail _
      | leaf core =>
          apply (hkept core).bind
          intro _
          rw [readLeaf]
          cases leaf (text.slice core) with
          | ok f => exact Traced.reports_pure f
          | error defect => exact Traced.reports_fail _

theorem isDebug_parseOn (stack : Stack) (s : String) :
    (Formula.parseOn stack s).Reports Event.IsDebug := by
  intro e he
  rw [Formula.parseOn, announce] at he
  rcases List.mem_append.1 he with he | he
  · rcases List.mem_cons.1 he with rfl | he
    · rfl
    · exact isDebug_parseWindowAt _ _ _ _ e he
  · rw [List.mem_singleton.1 he]
    split <;> rfl

theorem isDebug_normalizeLine {ε : Type} (s : String) :
    (normalizeLine s : Traced ε String).Reports Event.IsDebug := by
  intro e he
  rw [List.mem_singleton.1 he]
  rfl

theorem isDebug_ofFormulaWithin (walk : Nat) (f : Formula) (limit : Int) :
    (TruthTable.ofFormulaWithin walk f limit).Reports Event.IsDebug := by
  rw [TruthTable.ofFormulaWithin]
  refine Traced.Reports.bind (Traced.reports_ofExcept _) fun names => ?_
  dsimp only
  split
  · exact Traced.reports_fail _
  · refine Traced.Reports.bind (Traced.reports_note rfl) fun _ => ?_
    refine Traced.Reports.bind (Traced.reports_ofExcept _) fun rows => ?_
    exact Traced.reports_pure _

/-! ## Events that reject no line -/

/-- The number, the text and the reason of a line that is reported as rejected. -/
def Event.rejection? : Event → Option (Int × String × String)
  | .lineRejected number line reason => some (number, line, reason)
  | _ => none

/-- The event rejects no line. -/
def Event.IsQuiet (e : Event) : Prop := e.rejection? = none

/-- A rejection has the number of the level of errors. -/
theorem Event.IsDebug.isQuiet {e : Event} (h : e.IsDebug) : e.IsQuiet := by
  cases e with
  | lineRejected number line reason =>
      have hne : Severity.error.number ≠ Severity.debug.number := by decide
      exact absurd h hne
  | _ => rfl

theorem quiet_printFormula (config : Config) (stack : Stack) (normalized : String) (f : Formula) :
    (printFormula config stack normalized f).Reports Event.IsQuiet := by
  rw [printFormula]
  split
  · refine Traced.Reports.bind ((Traced.reports_ofExcept _).mapFault _) fun value => ?_
    exact Traced.reports_pure _
  · have htable := isDebug_ofFormulaWithin stack.walkLimit f config.maxVariables
    have hquiet := (htable.mono fun e => Event.IsDebug.isQuiet).mapFault LineFault.evaluation
    refine hquiet.bind fun table => ?_
    refine Traced.Reports.bind (Traced.reports_note rfl) fun _ => ?_
    refine Traced.Reports.bind ((Traced.reports_ofExcept _).mapFault _) fun text => ?_
    exact Traced.reports_pure _

/-- The answer to a line reports no rejected line. -/
theorem quiet_answerLine (config : Config) (stack : Stack) (number : Int) (raw : String) :
    (answerLine config stack number raw).Reports Event.IsQuiet := by
  rw [answerLine]
  apply Traced.Reports.bind ((isDebug_normalizeLine _).mono fun e => Event.IsDebug.isQuiet)
  intro normalized
  apply Traced.Reports.bind
  · intro e he
    have hmem : e ∈ Event.lineStart number (Text.trimmed raw) normalized := he
    rw [Event.lineStart] at hmem
    rcases List.mem_cons.1 hmem with rfl | hmem
    · rfl
    · split at hmem
      · exact absurd hmem List.not_mem_nil
      · rw [List.mem_singleton.1 hmem]
        rfl
  intro _
  have hparse := (isDebug_parseOn stack normalized).mono fun e => Event.IsDebug.isQuiet
  apply Traced.Reports.bind (hparse.mapFault _)
  intro f
  exact quiet_printFormula config stack normalized f

end Sentential
