import Sentential.Proofs.Classification
import Sentential.Proofs.Reading
import Sentential.Session.Run

/-!
# The answer to one line

A line is answered with printed text or with a fault, and with nothing in between: `answerLine`
prints nothing before it fails. Its faults are those of the library (`ordinary_of_answerLine`), with
one exception: a number of rows that cannot be written ends a run. It is met exactly if a table is
due for a formula that is refused one for this reason (`endsRun_answerLine_iff`).
-/

namespace Sentential

/-! ## The result of an answer -/

namespace TruthTable

/-- A row whose assignment covers the columns has a value for each of them. -/
theorem values_of_covers {columns : List String} {r : Row} (h : r.assignment.Covers columns) :
    r.values columns = .ok (columns.map r.assignment.valuation ++ [r.value]) := by
  rw [Row.values, mapM_eq_ok (g := r.assignment.valuation)]
  · rfl
  · intro name hname
    rw [h.follows name hname]

/-- A complete table with a title can be printed: each row has a value for each column. -/
theorem exists_render_complete (f : Formula) (title : String) (palette : Palette) :
    ∃ text, (complete f).render (some title) palette = .ok text := by
  have hrows : (complete f).rows.mapM (Row.values (complete f).columns) =
      .ok ((complete f).rows.map fun r =>
        (complete f).columns.map r.assignment.valuation ++ [r.value]) := by
    apply mapM_eq_ok
    intro r hr
    obtain ⟨a, ha, rfl⟩ := List.mem_map.1 hr
    exact values_of_covers (Assignment.covers_of_mem_rows (nodup_eraseDups f.names) ha)
  rw [render, lines, hrows]
  exact ⟨_, rfl⟩

end TruthTable

/-- The answer to a line is found in two steps: the formula of the line, and the text for it. -/
theorem result_answerLine (config : Config) (stack : Stack) (number : Int) (raw : String) :
    (answerLine config stack number raw).result = (do
      let f ← (Formula.parseOn stack (normalizedText (Text.trimmed raw))).result.mapError .parse
      (printFormula config stack (normalizedText (Text.trimmed raw)) f).result) := by
  simp only [answerLine, Traced.result_bind, Traced.result_noteAll, Traced.result_mapFault,
    result_normalizeLine]
  rfl

/-- In single mode a formula is answered with its value without variables. -/
theorem result_printFormula_single {config : Config} (hsingle : config.single = true)
    (stack : Stack) (normalized : String) (f : Formula) :
    (printFormula config stack normalized f).result =
      ((f.evaluateWithin stack.walkLimit ⟨[]⟩).mapError .evaluation).map
        fun value => resultText config.palette normalized value ++ "\n" := by
  rw [printFormula, if_pos hsingle]
  simp only [Traced.result_bind, Traced.result_mapFault, Traced.result_ofExcept, Traced.result_pure]
  cases f.evaluateWithin stack.walkLimit ⟨[]⟩ <;> rfl

/-- Otherwise a formula is answered with its table, and only the table can fail. -/
theorem result_printFormula_table {config : Config} (hsingle : config.single = false)
    (stack : Stack) (normalized : String) (f : Formula) :
    ∃ text, (printFormula config stack normalized f).result =
      ((TruthTable.ofFormulaWithin stack.walkLimit f config.maxVariables).result.mapError
        .evaluation).map fun _ => text := by
  obtain ⟨text, htext⟩ := TruthTable.exists_render_complete f normalized config.palette
  refine ⟨text ++ "\n", ?_⟩
  rw [printFormula, if_neg (by rw [hsingle]; exact Bool.false_ne_true)]
  simp only [Traced.result_bind, Traced.result_mapFault, Traced.result_ofExcept, Traced.result_pure,
    Traced.result_note, TruthTable.result_ofFormulaWithin]
  split
  · split
    · rfl
    · simp only [Except.mapError, bind, Except.bind, htext]
      rfl
  · rfl

/-! ## The faults of an answer -/

/-- The faults that the library reports as its own: all but a number of rows that cannot be written,
and a table with a missing value. -/
def LineFault.IsOrdinary : LineFault → Prop
  | .parse _ => True
  | .evaluation (.unwritableRows _) => False
  | .evaluation _ => True
  | .render (.title _) => True
  | .render (.missing _) => False

theorem LineFault.IsOrdinary.endsRun_eq_false {fault : LineFault} (h : fault.IsOrdinary) :
    fault.endsRun = false := by
  cases fault with
  | evaluation fault =>
      cases fault with
      | unwritableRows why => exact absurd h not_false
      | _ => rfl
  | _ => rfl

/-- An evaluation fails for a name without a value or for its depth, by induction on the formula. -/
theorem fault_of_evaluateWithin {f : Formula} {limit : Nat} {a : Assignment}
    {fault : EvaluationFault} (h : f.evaluateWithin limit a = .error fault) :
    (∃ name, fault = .unbound name) ∨ fault = .tooDeep .evaluate := by
  induction f generalizing limit with
  | const value =>
      rw [Formula.evaluateWithin] at h
      cases h
  | var name =>
      rw [Formula.evaluateWithin] at h
      split at h
      · cases h
      · exact Or.inl ⟨name, (Except.error.inj h).symm⟩
  | neg operand ih =>
      cases limit with
      | zero => exact Or.inr (Except.error.inj h).symm
      | succ rest =>
          rcases Except.bind_eq_error_iff.1 h with h | ⟨x, -, h⟩
          · exact ih h
          · cases h
  | binary op left right ihl ihr =>
      cases limit with
      | zero => exact Or.inr (Except.error.inj h).symm
      | succ rest =>
          rcases Except.bind_eq_error_iff.1 h with h | ⟨x, -, h⟩
          · exact ihl h
          rcases Except.bind_eq_error_iff.1 h with h | ⟨y, -, h⟩
          · exact ihr h
          · cases h

/-- A table is refused with a fault of the library, or because a number of rows cannot be
written. -/
theorem ordinary_or_of_refusal? {count : Nat} {limit : Int} {fault : EvaluationFault}
    (h : EvaluationFault.refusal? count limit = some fault) :
    (LineFault.evaluation fault).IsOrdinary ∨ ∃ why, fault = .unwritableRows why := by
  rcases EvaluationFault.refusal?_eq_some_iff.1 h with ⟨-, hfault⟩ | ⟨-, -, hfault⟩
  · cases hwhy : Decimal.unwritable? limit with
    | none =>
        rw [hfault, EvaluationFault.overLimit_of_writable hwhy]
        exact Or.inl trivial
    | some why => exact Or.inr ⟨why, hfault.trans (EvaluationFault.overLimit_of_unwritable hwhy)⟩
  · exact Or.inr ⟨_, hfault⟩

variable {config : Config} {stack : Stack} {number : Int} {raw : String} {fault : LineFault}

/-- The faults of an answer: the formula of the line cannot be read or evaluated, or it is refused a
table. -/
theorem fault_of_answerLine (h : (answerLine config stack number raw).result = .error fault) :
    fault.IsOrdinary ∨
      config.single = false ∧ ∃ f why,
        (Formula.parseOn stack (normalizedText (Text.trimmed raw))).result = .ok f ∧
        f.height ≤ stack.walkLimit ∧
        EvaluationFault.refusal? f.distinctNames.length config.maxVariables =
          some (.unwritableRows why) ∧
        fault = .evaluation (.unwritableRows why) := by
  rw [result_answerLine] at h
  rcases Except.bind_eq_error_iff.1 h with h | ⟨f, hf, h⟩
  · obtain ⟨fault, -, rfl⟩ := Except.mapError_eq_error_iff.1 h
    exact Or.inl trivial
  have hparse := Except.mapError_eq_ok_iff.1 hf
  cases hsingle : config.single with
  | true =>
      rw [result_printFormula_single hsingle] at h
      cases heval : f.evaluateWithin stack.walkLimit ⟨[]⟩ with
      | ok value =>
          rw [heval] at h
          cases h
      | error fault =>
          rw [heval] at h
          cases h
          rcases fault_of_evaluateWithin heval with ⟨name, rfl⟩ | rfl
          · exact Or.inl trivial
          · exact Or.inl trivial
  | false =>
      -- what can fail is the table: first for the depth of the formula, then by refusal
      obtain ⟨text, htext⟩ :=
        result_printFormula_table hsingle stack (normalizedText (Text.trimmed raw)) f
      rw [htext, TruthTable.result_ofFormulaWithin] at h
      split at h
      next hdepth =>
        cases hrefused : EvaluationFault.refusal? f.distinctNames.length config.maxVariables with
        | none =>
            rw [hrefused] at h
            cases h
        | some fault =>
            rw [hrefused] at h
            cases h
            rcases ordinary_or_of_refusal? hrefused with hordinary | ⟨why, rfl⟩
            · exact Or.inl hordinary
            · exact Or.inr ⟨rfl, f, why, hparse, hdepth, hrefused, rfl⟩
      next =>
        cases h
        exact Or.inl trivial

/-- An answer that does not end a run fails within the faults of the library. -/
theorem ordinary_of_answerLine (h : (answerLine config stack number raw).result = .error fault)
    (hends : fault.endsRun = false) : fault.IsOrdinary := by
  rcases fault_of_answerLine h with hordinary | ⟨-, f, why, -, -, -, rfl⟩
  · exact hordinary
  · cases hends

/-- An answer ends a run exactly if a table is due whose formula is refused one because a number of
rows cannot be written. -/
theorem endsRun_answerLine_iff :
    (∃ fault, (answerLine config stack number raw).result = .error fault ∧
        fault.endsRun = true) ↔
      config.single = false ∧ ∃ f,
        (Formula.parseOn stack (normalizedText (Text.trimmed raw))).result = .ok f ∧
        f.height ≤ stack.walkLimit ∧
        ∃ why, EvaluationFault.refusal? f.distinctNames.length config.maxVariables =
          some (.unwritableRows why) := by
  constructor
  · rintro ⟨fault, h, hends⟩
    rcases fault_of_answerLine h with hordinary | ⟨hsingle, f, why, hparse, hdepth, hwhy, -⟩
    · rw [hordinary.endsRun_eq_false] at hends
      exact absurd hends Bool.false_ne_true
    · exact ⟨hsingle, f, hparse, hdepth, why, hwhy⟩
  · rintro ⟨hsingle, f, hparse, hdepth, why, hwhy⟩
    obtain ⟨text, htext⟩ :=
      result_printFormula_table hsingle stack (normalizedText (Text.trimmed raw)) f
    refine ⟨.evaluation (.unwritableRows why), ?_, rfl⟩
    rw [result_answerLine, hparse]
    change (printFormula config stack (normalizedText (Text.trimmed raw)) f).result = _
    rw [htext, TruthTable.result_ofFormulaWithin, if_pos hdepth, hwhy]
    rfl

end Sentential
