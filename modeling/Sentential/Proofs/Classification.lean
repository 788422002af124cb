import Sentential.Proofs.FullTrees
import Sentential.Proofs.Refusal
import Sentential.Semantics.TruthTable

/-!
# What the classification of a truth table means

A formula that is not too deep has a truth table unless it is refused one, and the rows of the table
hold the truth values under all assignments of its distinct names
(`TruthTable.result_ofFormulaWithin`). The values in the rows are exactly the values of the formula
under all assignments that cover its names, whatever else these hold (`TruthTable.mem_results_iff`).
The classification therefore speaks of all assignments (`TruthTable.classification_iff`). Within the
limit a table is refused if the number of its rows has too many digits to be written
(`TruthTable.classification_wide`).
-/

namespace Sentential

/-- A map over a list that does not fail is the plain map. -/
theorem mapM_eq_ok {ε α β : Type} {f : α → Except ε β} {g : α → β} {l : List α}
    (h : ∀ a ∈ l, f a = .ok (g a)) : l.mapM f = .ok (l.map g) := by
  induction l with
  | nil => rfl
  | cons a rest ih =>
      have hrest : rest.mapM f = .ok (rest.map g) := ih fun b hb => h b (List.mem_cons_of_mem a hb)
      rw [List.mapM_cons, h a List.mem_cons_self, hrest]
      rfl

namespace TruthTable

variable {f : Formula} {limit : Int}

/-- The table of a formula: its distinct names, and its truth value in each row. -/
def complete (f : Formula) : TruthTable :=
  ⟨f, f.distinctNames, (Assignment.rows f.distinctNames).map fun a => ⟨a, f.holds a.valuation⟩⟩

/-- The rows of a formula that is not too deep for the walk hold its truth values. -/
theorem mapM_rowWithin {walk : Nat} (hdepth : f.height ≤ walk) :
    (Assignment.rows f.distinctNames).mapM (rowWithin walk f) = .ok (complete f).rows := by
  apply mapM_eq_ok
  intro a ha
  have hcovers : a.Covers f.names :=
    Formula.covers_distinctNames_iff.1 (Assignment.covers_of_mem_rows (nodup_eraseDups f.names) ha)
  rw [rowWithin, Formula.evaluateWithin_of_follows hdepth hcovers.follows]
  rfl

/-- The result of building a table: the depth of the formula is looked at first, and the number of
its names next. The table that is given is the complete one. -/
theorem result_ofFormulaWithin (walk : Nat) (f : Formula) (limit : Int) :
    (ofFormulaWithin walk f limit).result =
      if f.height ≤ walk then
        match EvaluationFault.refusal? f.distinctNames.length limit with
        | some fault => .error fault
        | none => .ok (complete f)
      else .error (.tooDeep .traverse) := by
  rw [ofFormulaWithin, Traced.result_bind, Traced.result_ofExcept, Formula.boundedNamesWithin]
  by_cases hdepth : f.height ≤ walk
  · have hrows := mapM_rowWithin hdepth
    rw [if_pos hdepth, if_pos hdepth]
    rw [Formula.distinctNames] at hrows ⊢
    dsimp only [bind, Except.bind]
    cases EvaluationFault.refusal? f.names.eraseDups.length limit with
    | some fault => rfl
    | none =>
        change (do
          .note (.enumerating (Assignment.rowCount f.names.eraseDups.length) f.names.eraseDups)
          let rows ← .ofExcept ((Assignment.rows f.names.eraseDups).mapM (rowWithin walk f))
          pure ⟨f, f.names.eraseDups, rows⟩ : Traced EvaluationFault TruthTable).result = _
        simp only [Traced.result_bind, Traced.result_note, Traced.result_ofExcept, hrows]
        rfl
  · rw [if_neg hdepth, if_neg hdepth]
    rfl

/-- A formula that is not too deep is refused a table for the number of its names only. -/
theorem result_ofFormula_eq_error_iff (hdepth : f.height ≤ walkLimit) {fault : EvaluationFault} :
    (ofFormula f limit).result = .error fault ↔
      EvaluationFault.refusal? f.distinctNames.length limit = some fault := by
  rw [ofFormula, result_ofFormulaWithin, if_pos hdepth]
  cases EvaluationFault.refusal? f.distinctNames.length limit with
  | none => exact iff_of_false (fun h => by cases h) fun h => by cases h
  | some other => rw [Except.error.injEq, Option.some.injEq]

/-- A formula that is not too deep is refused a table for too many variables exactly if it exceeds
the limit and the number of rows at the limit can be written. -/
theorem result_ofFormula_eq_tooManyVariables_iff (hdepth : f.height ≤ walkLimit) :
    (ofFormula f limit).result = .error (.tooManyVariables f.distinctNames.length limit) ↔
      limit < f.distinctNames.length ∧ Decimal.unwritable? limit = none := by
  rw [result_ofFormula_eq_error_iff hdepth, EvaluationFault.refusal?_eq_some_iff, eq_comm,
    EvaluationFault.overLimit_eq_tooManyVariables_iff, or_iff_left]
  rintro ⟨-, -, h⟩
  cases h

/-- A formula that is not too deep has a complete truth table, if it has no more names than the
limit allows and the number of rows can be written. -/
theorem result_ofFormula (hdepth : f.height ≤ walkLimit)
    (hlimit : (f.distinctNames.length : Int) ≤ limit)
    (hwritable : f.distinctNames.length ≤ largestWritableExponent) :
    (ofFormula f limit).result = .ok (complete f) := by
  rw [ofFormula, result_ofFormulaWithin, if_pos hdepth,
    EvaluationFault.refusal?_eq_none_iff.2 ⟨hlimit, hwritable⟩]

/-- No formula has a truth table other than the complete one, and none whose number of rows cannot
be written. -/
theorem eq_complete_of_ofFormula {t : TruthTable} (h : (ofFormula f limit).result = .ok t) :
    t = complete f := by
  rw [ofFormula, result_ofFormulaWithin] at h
  split at h
  · split at h
    · cases h
    · exact (Except.ok.inj h).symm
  · cases h

/-- The values in the rows are the values under all assignments of the names: every row is such an
assignment, and every such assignment agrees with a row on the names. -/
theorem mem_results_iff (hdepth : f.height ≤ walkLimit) {value : Bool} :
    value ∈ (complete f).results ↔
      ∃ a : Assignment, a.Covers f.names ∧ f.evaluate a = .ok value := by
  have hnodup : f.distinctNames.Nodup := nodup_eraseDups f.names
  simp only [results, complete, List.map_map, List.mem_map, Function.comp_apply]
  constructor
  · rintro ⟨a, ha, rfl⟩
    have hcovers := Formula.covers_distinctNames_iff.1 (Assignment.covers_of_mem_rows hnodup ha)
    exact ⟨a, hcovers, Formula.evaluate_of_covers hdepth hcovers⟩
  · rintro ⟨a, ha, heval⟩
    obtain ⟨row, hrow, hfollows⟩ := Assignment.exists_row_follows hnodup a.valuation
    have hnames : row.Follows a.valuation f.names := by
      intro name hname
      exact hfollows name (List.mem_eraseDups.2 hname)
    refine ⟨row, hrow, ?_⟩
    -- both the row and the assignment follow the same valuation
    have hvalue := (Formula.evaluate_of_covers hdepth hnames.covers).symm.trans
      (Formula.evaluate_of_follows hdepth hnames)
    rw [Formula.evaluate_of_covers hdepth ha] at heval
    exact (Except.ok.inj hvalue).trans (Except.ok.inj heval)

/-- A value that is in no row is the value under no assignment of the names. -/
theorem not_mem_results_iff (hdepth : f.height ≤ walkLimit) {value : Bool} :
    value ∉ (complete f).results ↔
      ∀ a : Assignment, a.Covers f.names → f.evaluate a = .ok (!value) := by
  rw [mem_results_iff hdepth, not_exists]
  apply forall_congr'
  intro a
  rw [not_and]
  apply imp_congr_right
  intro ha
  simp only [Formula.evaluate_of_covers hdepth ha, Except.ok.injEq, Bool.eq_not, ne_eq]

theorem results_ne_nil (f : Formula) : (complete f).results ≠ [] := by
  intro h
  have hlength := congrArg List.length h
  rw [results, complete, List.length_map, List.length_map, Assignment.length_rows] at hlength
  exact absurd hlength (Nat.ne_of_gt (Nat.two_pow_pos _))

/-! ## The classification of a list of values -/

variable {t : TruthTable}

theorem isTautology_iff : t.isTautology = true ↔ false ∉ t.results := by
  rw [isTautology, List.all_eq_true]
  constructor
  · intro h hmem
    exact Bool.false_ne_true (h false hmem)
  · intro h value hvalue
    cases value with
    | true => rfl
    | false => exact absurd hvalue h

theorem isSatisfiable_iff : t.isSatisfiable = true ↔ true ∈ t.results := by
  simp [isSatisfiable, List.any_eq_true]

/-- The names of the classifications of a table that has rows: a tautology has no false row, a
contradiction no true one, and a contingent formula has both. -/
theorem name_classification_iff (hne : t.results ≠ []) :
    (t.classification.name = "tautology" ↔ false ∉ t.results) ∧
      (t.classification.name = "contradiction" ↔ true ∉ t.results) ∧
      (t.classification.name = "contingent" ↔ true ∈ t.results ∧ false ∈ t.results) := by
  -- a table with rows has a true row or a false one
  have hsome : true ∈ t.results ∨ false ∈ t.results := by
    obtain ⟨value, rest, hvalues⟩ := List.exists_cons_of_ne_nil hne
    cases value <;> simp [hvalues]
  rw [classification, isContradiction]
  by_cases hfalse : false ∈ t.results
  · have htaut : t.isTautology = false := by
      rw [← Bool.not_eq_true, isTautology_iff]
      exact not_not.2 hfalse
    by_cases htrue : true ∈ t.results
    · simp [htaut, isSatisfiable_iff.2 htrue, htrue, hfalse, Classification.name]
    · have hsat : t.isSatisfiable = false := by
        rw [← Bool.not_eq_true, isSatisfiable_iff]
        exact htrue
      simp [htaut, hsat, htrue, hfalse, Classification.name]
  · have htrue := hsome.resolve_right hfalse
    simp [isTautology_iff.2 hfalse, htrue, hfalse, Classification.name]

/-- At the limit 14285 a conjunction of 16384 names is refused a table because the number of rows at
the limit cannot be written. -/
theorem exists_unwritableRows_wide :
    ∃ why, (ofFormula (wide 14) 14285).result = .error (.unwritableRows why) := by
  have hdepth : (wide 14).height ≤ walkLimit := height_wide_le (by decide)
  simp only [result_ofFormula_eq_error_iff hdepth]
  rw [EvaluationFault.exists_refusal?_eq_unwritableRows_iff_of_nonneg (by decide),
    length_distinctNames_wide]
  decide

/-- The classification of a truth table is sound and complete. A formula that is neither too deep
nor over the limit has a table exactly if the number of rows can be written, and is refused one for
this reason otherwise. The table is named for the values of the formula under all assignments that
cover its names. -/
theorem classification_iff (hdepth : f.height ≤ walkLimit)
    (hlimit : (f.distinctNames.length : Int) ≤ limit) :
    (f.distinctNames.length ≤ largestWritableExponent →
      ∃ t, (ofFormula f limit).result = .ok t ∧
        (t.classification.name = "tautology" ↔
          ∀ a : Assignment, a.Covers f.names → f.evaluate a = .ok true) ∧
        (t.classification.name = "contradiction" ↔
          ∀ a : Assignment, a.Covers f.names → f.evaluate a = .ok false) ∧
        (t.classification.name = "contingent" ↔
          (∃ a : Assignment, a.Covers f.names ∧ f.evaluate a = .ok true) ∧
            ∃ a : Assignment, a.Covers f.names ∧ f.evaluate a = .ok false) ∧
        (t.isSatisfiable = true ↔
          ∃ a : Assignment, a.Covers f.names ∧ f.evaluate a = .ok true)) ∧
      (largestWritableExponent < f.distinctNames.length →
        (ofFormula f limit).result = .error (.unwritableRows .tooManyDigits)) := by
  constructor
  · intro hwritable
    obtain ⟨htaut, hcontra, hcont⟩ := name_classification_iff (results_ne_nil f)
    refine ⟨complete f, result_ofFormula hdepth hlimit hwritable, ?_, ?_, ?_, ?_⟩
    · exact htaut.trans (not_mem_results_iff hdepth)
    · exact hcontra.trans (not_mem_results_iff hdepth)
    · rw [hcont, mem_results_iff hdepth, mem_results_iff hdepth]
    · exact isSatisfiable_iff.trans (mem_results_iff hdepth)
  · intro hunwritable
    rw [result_ofFormula_eq_error_iff hdepth, EvaluationFault.refusal?_eq_some_iff]
    exact Or.inr ⟨hlimit, hunwritable, rfl⟩

/-- A formula over two names, one of them repeated, that is true under all their assignments. -/
theorem classification_weakening :
    let f : Formula := .binary .implies (.var "p") (.binary .implies (.var "q") (.var "p"))
    f.height ≤ walkLimit ∧ (f.distinctNames.length : Int) ≤ 2 ∧
      ∀ a : Assignment, a.Covers f.names → f.evaluate a = .ok true := by
  intro f
  have hdepth : f.height ≤ walkLimit := by decide
  have hlimit : (f.distinctNames.length : Int) ≤ 2 := by decide +kernel
  have hwritable : f.distinctNames.length ≤ largestWritableExponent := by decide +kernel
  refine ⟨hdepth, hlimit, ?_⟩
  obtain ⟨t, ht, htaut, -⟩ := (classification_iff hdepth hlimit).1 hwritable
  apply htaut.1
  obtain rfl : t = complete f := eq_complete_of_ofFormula ht
  decide +kernel

/-- A conjunction of 16384 names is within the limit 16384, and has no truth table all the same. -/
theorem classification_wide :
    (wide 14).height ≤ walkLimit ∧ ((wide 14).distinctNames.length : Int) ≤ 16384 ∧
      ∀ t, (ofFormula (wide 14) 16384).result ≠ .ok t := by
  have hdepth : (wide 14).height ≤ walkLimit := height_wide_le (by decide)
  have hlimit : ((wide 14).distinctNames.length : Int) ≤ 16384 := by
    rw [length_distinctNames_wide]
    decide
  have hunwritable : largestWritableExponent < (wide 14).distinctNames.length := by
    rw [length_distinctNames_wide]
    decide
  refine ⟨hdepth, hlimit, ?_⟩
  intro t ht
  have hrefused := (result_ofFormula_eq_error_iff hdepth).2
    (EvaluationFault.refusal?_eq_some_iff.2 (Or.inr ⟨hlimit, hunwritable, rfl⟩))
  rw [ht] at hrefused
  cases hrefused

end TruthTable

end Sentential
