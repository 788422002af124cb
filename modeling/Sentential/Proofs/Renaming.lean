import Sentential.Proofs.RowOrder

/-!
# Renaming the variables of a truth table

A truth table does not depend on what the variables are called. If a renaming keeps the names of a
formula apart, the distinct names of the renamed formula are the renamed ones in the same order
(`Formula.distinctNames_rename`), its rows are the renamed rows (`Assignment.rows_map`), and the
values in them are the same; so the complete table of the renamed formula is the renamed table
(`TruthTable.complete_rename`), and it is refused whenever the other is, with the same fault
(`TruthTable.ofFormula_rename`).
-/

namespace Sentential

/-! ## Renaming -/

/-- The formula with every variable renamed. -/
def Formula.rename (s : String → String) : Formula → Formula
  | .const value => .const value
  | .var name => .var (s name)
  | .neg operand => .neg (operand.rename s)
  | .binary op left right => .binary op (left.rename s) (right.rename s)

/-- The assignment with every name renamed. -/
def Assignment.rename (s : String → String) (a : Assignment) : Assignment :=
  ⟨a.entries.map fun entry => (s entry.1, entry.2)⟩

/-- The row with every name of its assignment renamed. -/
def TruthTable.Row.rename (s : String → String) (r : Row) : Row := ⟨r.assignment.rename s, r.value⟩

/-- The table with the variables renamed. -/
def TruthTable.rename (s : String → String) (t : TruthTable) : TruthTable :=
  ⟨t.formula.rename s, t.columns.map s, t.rows.map (Row.rename s)⟩

/-- Different names on the list are renamed differently. -/
def KeepsApart (s : String → String) (names : List String) : Prop :=
  ∀ x ∈ names, ∀ y ∈ names, s x = s y → x = y

variable {s : String → String}

theorem KeepsApart.mono {names names' : List String} (h : KeepsApart s names)
    (hsub : names' ⊆ names) :
    KeepsApart s names' :=
  fun x hx y hy => h x (hsub hx) y (hsub hy)

/-- Renaming commutes with listing the distinct names, by induction on the number of names. -/
theorem eraseDups_map {names : List String} (h : KeepsApart s names) :
    (names.map s).eraseDups = names.eraseDups.map s := by
  induction hn : names.length using Nat.strongRecOn generalizing names with
  | ind length ih =>
      subst hn
      cases names with
      | nil => rfl
      | cons name rest =>
          have hrest := List.length_filter_le (fun other => !other == name) rest
          -- what repeats the first name after renaming repeated it before
          have hfilter : (rest.map s).filter (fun other => !other == s name) =
              (rest.filter fun other => !other == name).map s := by
            rw [List.filter_map]
            congr 1
            apply List.filter_congr
            intro other hother
            have hiff : s other = s name ↔ other = name :=
              ⟨h other (List.mem_cons_of_mem name hother) name List.mem_cons_self, congrArg s⟩
            simp only [Function.comp_apply, Bool.beq_eq_decide_eq, hiff]
          have hapart : KeepsApart s (rest.filter fun other => !other == name) :=
            h.mono fun x hx => List.mem_cons_of_mem name (List.mem_of_mem_filter hx)
          rw [List.map_cons, List.eraseDups_cons, List.eraseDups_cons, List.map_cons, hfilter,
            ih _ (Nat.lt_succ_of_le hrest) hapart rfl]

/-! ## Formulas -/

namespace Formula

variable {f : Formula}

theorem names_rename (s : String → String) (f : Formula) : (f.rename s).names = f.names.map s := by
  induction f with
  | const value => rfl
  | var name => rfl
  | neg operand ih => exact ih
  | binary op left right ihl ihr => rw [rename, names, ihl, ihr, names, List.map_append]

theorem height_rename (s : String → String) (f : Formula) : (f.rename s).height = f.height := by
  induction f with
  | const value => rfl
  | var name => rfl
  | neg operand ih => rw [rename, height, ih, height]
  | binary op left right ihl ihr => rw [rename, height, ihl, ihr, height]

theorem distinctNames_rename (h : KeepsApart s f.names) :
    (f.rename s).distinctNames = f.distinctNames.map s := by
  rw [distinctNames, names_rename, eraseDups_map h, distinctNames]

/-- A renamed formula has the value of the formula, if the valuations agree up to the renaming. -/
theorem holds_rename {valuation valuation' : String → Bool}
    (h : ∀ name ∈ f.names, valuation' (s name) = valuation name) :
    (f.rename s).holds valuation' = f.holds valuation := by
  induction f with
  | const value => rfl
  | var name => exact h name (List.mem_singleton.2 rfl)
  | neg operand ih => rw [rename, holds, ih h, holds]
  | binary op left right ihl ihr =>
      rw [names, List.forall_mem_append] at h
      rw [rename, holds, ihl h.1, ihr h.2, holds]

end Formula

/-! ## Assignments -/

namespace Assignment

variable {names : List String}

/-- A name that is kept apart from the names of an assignment has the same value after renaming. -/
theorem value?_rename {a : Assignment} {name : String}
    (h : ∀ other ∈ a.keys, s other = s name → other = name) :
    (a.rename s).value? (s name) = a.value? name := by
  obtain ⟨entries⟩ := a
  simp only [rename, value?, keys] at h ⊢
  induction entries with
  | nil => rfl
  | cons entry rest ih =>
      rw [List.map_cons, List.forall_mem_cons] at h
      have hiff : s name = s entry.1 ↔ name = entry.1 :=
        ⟨fun heq => (h.1 heq.symm).symm, congrArg s⟩
      rw [List.map_cons, List.lookup_cons, List.lookup_cons, ih h.2]
      simp only [Bool.beq_eq_decide_eq, hiff]

/-- The row of a number over renamed names is the renamed row. -/
theorem row_map (hnodup : names.Nodup) (h : KeepsApart s names) (r : Nat) :
    row (names.map s) r = (row names r).rename s := by
  have hnodup' : (names.map s).Nodup := hnodup.map_on h
  rw [Assignment.mk.injEq, rename, entries_row hnodup', entries_row hnodup, List.length_map,
    List.zip_map_left]
  rfl

theorem rows_map (hnodup : names.Nodup) (h : KeepsApart s names) :
    rows (names.map s) = (rows names).map (rename s) := by
  rw [rows, rows, List.length_map, List.map_map]
  exact List.map_congr_left fun r _ => row_map hnodup h r

/-- The values of a row over names that are kept apart are those of the renamed row. -/
theorem valuation_rename (hnodup : names.Nodup) (h : KeepsApart s names) {a : Assignment}
    (ha : a ∈ rows names) {name : String} (hname : name ∈ names) :
    (a.rename s).valuation (s name) = a.valuation name := by
  obtain ⟨r, -, rfl⟩ := List.mem_map.1 ha
  rw [valuation, valuation, value?_rename]
  intro other hother
  rw [keys_row hnodup] at hother
  exact h other hother name hname

end Assignment

/-! ## Tables -/

namespace TruthTable

variable {f : Formula} {limit : Int}

theorem results_rename (s : String → String) (t : TruthTable) :
    (t.rename s).results = t.results := by
  rw [results, rename, List.map_map]
  rfl

theorem classification_rename (s : String → String) (t : TruthTable) :
    (t.rename s).classification = t.classification := by
  rw [classification, isTautology, isContradiction, isSatisfiable, results_rename]
  rfl

/-- The complete table of a renamed formula is the renamed table. -/
theorem complete_rename (h : KeepsApart s f.names) :
    complete (f.rename s) = (complete f).rename s := by
  have hnodup : f.distinctNames.Nodup := nodup_eraseDups f.names
  have hapart : KeepsApart s f.distinctNames := h.mono fun name hname => List.mem_eraseDups.1 hname
  have hrows : (Assignment.rows (f.distinctNames.map s)).map
        (fun a => (⟨a, (f.rename s).holds a.valuation⟩ : Row)) =
      ((Assignment.rows f.distinctNames).map fun a => ⟨a, f.holds a.valuation⟩).map
        (Row.rename s) := by
    rw [Assignment.rows_map hnodup hapart, List.map_map, List.map_map]
    apply List.map_congr_left
    intro a ha
    have hvalue : (f.rename s).holds (a.rename s).valuation = f.holds a.valuation :=
      Formula.holds_rename fun name hname =>
        Assignment.valuation_rename hnodup hapart ha (List.mem_eraseDups.2 hname)
    simp only [Function.comp_apply, hvalue, Row.rename]
  rw [complete, Formula.distinctNames_rename h, hrows, rename, complete]

/-- Building the table of a renamed formula gives the renamed table, or the fault that the formula
has. -/
theorem result_ofFormula_rename (h : KeepsApart s f.names) (limit : Int) :
    (ofFormula (f.rename s) limit).result = (ofFormula f limit).result.map (rename s) := by
  rw [ofFormula, ofFormula, result_ofFormulaWithin, result_ofFormulaWithin, Formula.height_rename,
    Formula.distinctNames_rename h, List.length_map, complete_rename h]
  split
  · split <;> rfl
  · rfl

/-- Truth tables are invariant under renaming. For a formula that is not too deep and a renaming
that keeps its names apart, the renamed formula is refused a table exactly if the formula is, with
the same fault. It is refused if there are more names than the limit allows, and also if there are
so many that the number of rows cannot be written; beyond the limit the fault is that of too many
variables, unless the number of rows at the limit cannot be written. Otherwise the table of the
renamed formula has the renamed columns in the same order and the renamed rows with the same values,
so that the results and the classification are the same. -/
theorem ofFormula_rename (hdepth : f.height ≤ walkLimit) (hapart : KeepsApart s f.names)
    (limit : Int) :
    (∀ fault, (ofFormula (f.rename s) limit).result = .error fault ↔
        (ofFormula f limit).result = .error fault) ∧
      (∀ fault, (ofFormula f limit).result = .error fault ↔
        (limit < f.distinctNames.length ∧ fault = .overLimit f.distinctNames.length limit) ∨
          ((f.distinctNames.length : Int) ≤ limit ∧
            largestWritableExponent < f.distinctNames.length ∧
            fault = .unwritableRows .tooManyDigits)) ∧
      ((ofFormula f limit).result = .error (.tooManyVariables f.distinctNames.length limit) ↔
        limit < f.distinctNames.length ∧ Decimal.unwritable? limit = none) ∧
      ((f.distinctNames.length : Int) ≤ limit →
        f.distinctNames.length ≤ largestWritableExponent →
        ∃ t t', (ofFormula f limit).result = .ok t ∧
          (ofFormula (f.rename s) limit).result = .ok t' ∧
          t'.formula = f.rename s ∧ t'.columns = t.columns.map s ∧ t'.results = t.results ∧
          t'.classification = t.classification ∧ t'.rows.length = t.rows.length ∧
          ∀ (i : Nat) (r : Row), t.rows[i]? = some r →
            ∃ r', t'.rows[i]? = some r' ∧ r'.value = r.value ∧
              r'.assignment.entries =
                r.assignment.entries.map fun entry => (s entry.1, entry.2)) := by
  refine ⟨?_, ?_, result_ofFormula_eq_tooManyVariables_iff hdepth, ?_⟩
  · intro fault
    rw [result_ofFormula_rename hapart]
    cases (ofFormula f limit).result with
    | ok t => exact iff_of_false (fun h => by cases h) fun h => by cases h
    | error other => exact Iff.rfl
  · intro fault
    rw [result_ofFormula_eq_error_iff hdepth, EvaluationFault.refusal?_eq_some_iff]
  · intro hlimit hwritable
    have hresult := result_ofFormula hdepth hlimit hwritable
    have hresult' := result_ofFormula_rename hapart limit
    rw [hresult] at hresult'
    -- the table of the renamed formula is the renamed table
    refine ⟨complete f, (complete f).rename s, hresult, hresult', rfl, rfl, results_rename s _,
      classification_rename s _, List.length_map _, ?_⟩
    intro i r hr
    refine ⟨r.rename s, ?_, rfl, rfl⟩
    rw [rename, List.getElem?_map, hr, Option.map_some]

/-- The names of a formula exchanged: the first column is that of the other name, and the values
stay. -/
theorem ofFormula_rename_exchanged :
    let f : Formula := .binary .implies (.var "p") (.binary .or (.var "q") (.var "p"))
    let s : String → String := fun name => if name = "p" then "q" else "p"
    f.height ≤ walkLimit ∧ KeepsApart s f.names ∧
      f.rename s = .binary .implies (.var "q") (.binary .or (.var "p") (.var "q")) ∧
      (∃ t t', (ofFormula f 2).result = .ok t ∧ (ofFormula (f.rename s) 2).result = .ok t' ∧
        t'.columns = ["q", "p"] ∧ t'.results = t.results ∧ t'.classification = t.classification) ∧
      (ofFormula (f.rename s) 1).result = .error (.tooManyVariables 2 1) := by
  intro f s
  have hdepth : f.height ≤ walkLimit := by decide
  have hapart : KeepsApart s f.names := by
    intro x hx y hy
    revert x y
    decide
  have hlimit : (f.distinctNames.length : Int) ≤ 2 := by decide +kernel
  have hwritable : f.distinctNames.length ≤ largestWritableExponent := by decide +kernel
  have hexceeded : (1 : Int) < f.distinctNames.length ∧ Decimal.unwritable? 1 = none := by
    decide +kernel
  obtain ⟨hsame, -, hrefused, -⟩ := ofFormula_rename hdepth hapart 1
  obtain ⟨t, t', ht, ht', -, hcolumns, hresults, hclass, -⟩ :=
    (ofFormula_rename hdepth hapart 2).2.2.2 hlimit hwritable
  have hnames : t.columns.map s = ["q", "p"] := by
    rw [eq_complete_of_ofFormula ht]
    decide +kernel
  exact ⟨hdepth, hapart, rfl, ⟨t, t', ht, ht', hcolumns.trans hnames, hresults, hclass⟩,
    (hsame _).2 (hrefused.2 hexceeded)⟩

/-- A conjunction of 16384 names exceeds the limit 14285, whatever the names are. It is given
neither a table nor the fault of too many variables, and neither is the same conjunction with longer
names. -/
theorem ofFormula_rename_wide :
    let s : String → String := fun name => name ++ "1"
    (wide 14).height ≤ walkLimit ∧ KeepsApart s (wide 14).names ∧
      ∀ f ∈ [wide 14, (wide 14).rename s],
        (∀ t, (ofFormula f 14285).result ≠ .ok t) ∧
          ∀ count limit, (ofFormula f 14285).result ≠ .error (.tooManyVariables count limit) := by
  intro s
  have hdepth : (wide 14).height ≤ walkLimit := height_wide_le (by decide)
  have hapart : KeepsApart s (wide 14).names := fun x _ y _ h => (String.append_left_inj "1").1 h
  obtain ⟨why, hresult⟩ := exists_unwritableRows_wide
  have hrenamed : (ofFormula ((wide 14).rename s) 14285).result = .error (.unwritableRows why) := by
    rw [result_ofFormula_rename hapart, hresult]
    rfl
  refine ⟨hdepth, hapart, ?_⟩
  intro f hf
  have hfault : (ofFormula f 14285).result = .error (.unwritableRows why) := by
    rcases List.mem_cons.1 hf with rfl | hf
    · exact hresult
    · rw [List.mem_singleton.1 hf]
      exact hrenamed
  rw [hfault]
  constructor
  · intro t h
    cases h
  · intro count limit h
    cases h

end TruthTable

end Sentential
