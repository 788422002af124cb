import Sentential.Proofs.Classification
import Mathlib.Algebra.BigOperators.Fin

/-!
# Looking up a value in a truth table

Every assignment of the names of a formula has its own row in the truth table: the row whose number
is the sum of the powers of two that belong to the true names (`Assignment.rowIndex`). This row
holds the values of the assignment, and the value of the formula under it
(`TruthTable.ofFormula_lookup`). A table is refused if the formula exceeds the limit; the fault then
names the number of names and the limit, if the number of rows at the limit can be written. It
cannot be written for the limit 14285 (`TruthTable.ofFormula_wide`). Within the limit a table is
refused exactly if its own number of rows cannot be written.
-/

namespace Sentential

/-! ## The number of a row -/

/-- The number with the binary digits `f`, the least significant digit first, as a sum. -/
theorem ofBits_eq_sum {n : Nat} (f : Fin n → Bool) :
    Nat.ofBits f = ∑ i : Fin n with f i = true, 2 ^ (i : Nat) := by
  induction n with
  | zero => rfl
  | succ n ih =>
      rw [Nat.ofBits_succ, ih, Finset.sum_filter, Finset.sum_filter, Fin.sum_univ_succ,
        Finset.mul_sum]
      -- the digits other than the first count twice as much as without it
      have hrest : ∀ i : Fin n, (2 * if (f ∘ Fin.succ) i = true then 2 ^ (i : Nat) else 0) =
          if f i.succ = true then 2 ^ (i.succ : Nat) else 0 := by
        intro i
        rw [mul_ite, Nat.mul_zero, Fin.val_succ, Nat.pow_succ']
        rfl
      rw [Finset.sum_congr rfl fun i _ => hrest i, Nat.add_comm]
      cases f 0 <;> rfl

namespace Assignment

/-- The number of the row that belongs to an assignment of the names: the name at position `i` among
`n` names counts `2 ^ (n - 1 - i)` if it is true. -/
def rowIndex (a : Assignment) (names : List String) : Nat :=
  ∑ i : Fin names.length with a.value? names[i] = some true, 2 ^ (names.length - 1 - i)

/-- The number with the given binary digits as a sum. -/
theorem numberOf_eq_sum (values : List Bool) :
    numberOf values =
      ∑ i : Fin values.length with values[i] = true, 2 ^ (values.length - 1 - i) := by
  rw [numberOf, ofBits_eq_sum, Finset.sum_filter, Finset.sum_filter]
  -- counted from the other end, the positions are the exponents
  rw [← Equiv.sum_comp Fin.revPerm]
  apply Finset.sum_congr rfl
  intro i _
  have hexp : values.length - (i + 1) = values.length - 1 - i := by omega
  have hback : values.length - 1 - (values.length - 1 - i) = i := by omega
  simp only [Fin.revPerm_apply, Fin.val_rev, Fin.getElem_fin, hexp, hback]

/-- A name that is covered is true in the assignment exactly if it is true in the valuation. -/
theorem value?_eq_true_iff {a : Assignment} {names : List String} (h : a.Covers names)
    {name : String}
    (hname : name ∈ names) : a.value? name = some true ↔ a.valuation name = true := by
  rw [h.follows name hname, Option.some.injEq]

/-- The row of an assignment has the values of the names for its binary digits. -/
theorem rowIndex_eq {a : Assignment} {names : List String} (h : a.Covers names) :
    a.rowIndex names = numberOf (names.map a.valuation) := by
  have hlength : (names.map a.valuation).length = names.length := List.length_map _
  rw [numberOf_eq_sum, rowIndex, Finset.sum_filter, Finset.sum_filter, ← Fin.sum_congr' _ hlength]
  apply Finset.sum_congr rfl
  intro i _
  simp only [Fin.getElem_fin, Fin.val_cast, List.getElem_map, List.length_map,
    value?_eq_true_iff h (List.getElem_mem _)]

/-- The row whose number has the values of the names for its digits lists the names with these
values. -/
theorem row_numberOf {names : List String} (hnodup : names.Nodup) (valuation : String → Bool) :
    row names (numberOf (names.map valuation)) =
      ⟨names.map fun name => (name, valuation name)⟩ := by
  have hdigits := binaryDigits_numberOf (names.map valuation)
  rw [List.length_map] at hdigits
  have hzip : (names.map id).zip (names.map valuation) =
      names.map fun name => (name, valuation name) := List.zip_map'
  rw [List.map_id] at hzip
  rw [← hzip, Assignment.mk.injEq, entries_row hnodup, hdigits]

/-- The row of an assignment lists the names with their values. -/
theorem entries_row_rowIndex {a : Assignment} {names : List String} (hnodup : names.Nodup)
    (h : a.Covers names) :
    (row names (a.rowIndex names)).entries = names.map fun name => (name, a.valuation name) := by
  rw [rowIndex_eq h, row_numberOf hnodup]

/-- The row of an assignment is one of the rows. -/
theorem rowIndex_lt {a : Assignment} {names : List String} (h : a.Covers names) :
    a.rowIndex names < rowCount names.length := by
  have hlt := numberOf_lt (names.map a.valuation)
  rwa [List.length_map, ← rowIndex_eq h] at hlt

end Assignment

/-! ## The rows of a table -/

namespace TruthTable

variable {f : Formula} {limit : Int}

/-- The row of an assignment in a complete table. -/
theorem getElem?_rows_complete {a : Assignment} (h : a.Covers f.distinctNames) :
    (complete f).rows[a.rowIndex f.distinctNames]? =
      some ⟨Assignment.row f.distinctNames (a.rowIndex f.distinctNames),
        f.holds (Assignment.row f.distinctNames (a.rowIndex f.distinctNames)).valuation⟩ := by
  rw [complete, Assignment.rows, List.getElem?_map, List.getElem?_map,
    List.getElem?_range (Assignment.rowIndex_lt h)]
  rfl

/-- The value in the row of an assignment is the value of the formula under it, whatever else the
assignment holds. -/
theorem evaluate_eq_row (hdepth : f.height ≤ walkLimit) {a : Assignment}
    (h : a.Covers f.distinctNames) :
    f.evaluate a =
      .ok (f.holds (Assignment.row f.distinctNames (a.rowIndex f.distinctNames)).valuation) := by
  have hfollows := Assignment.row_follows (nodup_eraseDups f.names) a.valuation
  rw [← Formula.distinctNames, ← Assignment.rowIndex_eq h] at hfollows
  have hnames : (Assignment.row f.distinctNames (a.rowIndex f.distinctNames)).Follows a.valuation
      f.names := fun name hname => hfollows name (List.mem_eraseDups.2 hname)
  -- the assignment and its row follow the same valuation
  have hcovers := Formula.covers_distinctNames_iff.1 h
  rw [Formula.evaluate_of_covers hdepth hcovers, ← Formula.evaluate_of_follows hdepth hnames]
  exact Formula.evaluate_of_covers hdepth hnames.covers

/-- A truth table is a complete and correct table of the values of a formula. A formula that is not
too deep is refused a table if it has more distinct names than the limit allows, and also if it has
so many that the number of rows cannot be written, and for no other reason. Beyond the limit the
fault is that of too many variables, unless the number of rows at the limit cannot be written.
Otherwise the table has the distinct names for its columns and a row for each assignment of them,
and the row of any assignment that covers the names holds its values and the value of the formula
under it. -/
theorem ofFormula_lookup (hdepth : f.height ≤ walkLimit) (limit : Int) :
    (∀ fault, (ofFormula f limit).result = .error fault ↔
        (limit < f.distinctNames.length ∧ fault = .overLimit f.distinctNames.length limit) ∨
          ((f.distinctNames.length : Int) ≤ limit ∧
            largestWritableExponent < f.distinctNames.length ∧
            fault = .unwritableRows .tooManyDigits)) ∧
      ((ofFormula f limit).result = .error (.tooManyVariables f.distinctNames.length limit) ↔
        limit < f.distinctNames.length ∧ Decimal.unwritable? limit = none) ∧
      ((f.distinctNames.length : Int) ≤ limit →
        f.distinctNames.length ≤ largestWritableExponent →
        ∃ t, (ofFormula f limit).result = .ok t ∧ t.formula = f ∧ t.columns = f.distinctNames ∧
          t.rows.length = 2 ^ f.distinctNames.length ∧
          ∀ a : Assignment, a.Covers f.distinctNames →
            ∃ r, t.rows[a.rowIndex f.distinctNames]? = some r ∧
              r.assignment.entries = f.distinctNames.map (fun name => (name, a.valuation name)) ∧
              f.evaluate a = .ok r.value) := by
  refine ⟨?_, result_ofFormula_eq_tooManyVariables_iff hdepth, ?_⟩
  · intro fault
    rw [result_ofFormula_eq_error_iff hdepth, EvaluationFault.refusal?_eq_some_iff]
  · intro hlimit hwritable
    refine ⟨complete f, result_ofFormula hdepth hlimit hwritable, rfl, rfl, ?_, ?_⟩
    · rw [complete, List.length_map, Assignment.length_rows]
      rfl
    · intro a ha
      exact ⟨_, getElem?_rows_complete ha,
        Assignment.entries_row_rowIndex (nodup_eraseDups f.names) ha, evaluate_eq_row hdepth ha⟩

/-- The row of an assignment with the names in another order and a name that the formula does not
have. -/
theorem ofFormula_lookup_reordered :
    let f : Formula := .binary .implies (.binary .or (.var "q") (.var "p")) (.var "q")
    let a : Assignment := ⟨[("p", true), ("r", true), ("q", false)]⟩
    f.height ≤ walkLimit ∧ a.Covers f.distinctNames ∧ a.rowIndex f.distinctNames = 1 ∧
      ∃ t r, (ofFormula f 2).result = .ok t ∧ t.rows[1]? = some r ∧
        r.assignment.entries = [("q", false), ("p", true)] ∧ f.evaluate a = .ok r.value := by
  intro f a
  have hdepth : f.height ≤ walkLimit := by decide
  have hlimit : (f.distinctNames.length : Int) ≤ 2 := by decide +kernel
  have hcovers : a.Covers f.distinctNames := by decide +kernel
  have hindex : a.rowIndex f.distinctNames = 1 := by decide +kernel
  have hentries : f.distinctNames.map (fun name => (name, a.valuation name)) =
      [("q", false), ("p", true)] := by decide +kernel
  have hwritable : f.distinctNames.length ≤ largestWritableExponent := by decide +kernel
  obtain ⟨t, ht, -, -, -, hrows⟩ := (ofFormula_lookup hdepth 2).2.2 hlimit hwritable
  obtain ⟨r, hr, hrow, hvalue⟩ := hrows a hcovers
  rw [hindex] at hr
  exact ⟨hdepth, hcovers, hindex, t, r, ht, hr, hrow.trans hentries, hvalue⟩

/-- A conjunction of 16384 names exceeds the limit 14285, but the fault is not that of too many
variables: the number of rows at this limit cannot be written. -/
theorem ofFormula_wide :
    (wide 14).height ≤ walkLimit ∧ (14285 : Int) < (wide 14).distinctNames.length ∧
      (∃ why, (ofFormula (wide 14) 14285).result = .error (.unwritableRows why)) ∧
      (ofFormula (wide 14) 14285).result ≠
        .error (.tooManyVariables (wide 14).distinctNames.length 14285) := by
  have hdepth : (wide 14).height ≤ walkLimit := height_wide_le (by decide)
  have hlimit : (14285 : Int) < (wide 14).distinctNames.length := by
    rw [length_distinctNames_wide]
    decide
  obtain ⟨why, hresult⟩ := exists_unwritableRows_wide
  refine ⟨hdepth, hlimit, ⟨why, hresult⟩, ?_⟩
  rw [hresult]
  intro h
  cases h

end TruthTable

end Sentential
