import Sentential.Proofs.Evaluation
import Mathlib.Data.Nat.Bitwise
import Mathlib.Data.List.Nodup

/-!
# The rows of a truth table

A list of truth values is the list of binary digits of a number (`binaryDigits_numberOf`). If the
names are distinct, the row of a number gives the names its digits, in order (`entries_row`), so
that some row follows any given valuation (`exists_row_follows`) and every row covers the names
(`covers_of_mem_rows`).
-/

namespace Sentential

/-- The distinct members of a list occur once each. -/
theorem nodup_eraseDups (l : List String) : l.eraseDups.Nodup := by
  cases l with
  | nil => simp
  | cons name rest =>
      rw [List.eraseDups_cons, List.nodup_cons]
      constructor
      · simp [List.mem_eraseDups]
      · exact nodup_eraseDups _
termination_by l.length
decreasing_by
  have := List.length_filter_le (fun other => !other == name) rest
  simp only [List.length_cons]
  omega

namespace Assignment

/-! ## Binary digits -/

/-- The number with the given binary digits, the most significant digit first. -/
def numberOf (values : List Bool) : Nat :=
  Nat.ofBits fun i : Fin values.length => values[values.length - 1 - i]

theorem numberOf_lt (values : List Bool) : numberOf values < rowCount values.length :=
  Nat.ofBits_lt_two_pow _

theorem length_binaryDigits (width r : Nat) : (binaryDigits width r).length = width := by
  simp [binaryDigits]

/-- Every list of truth values lists the binary digits of a number. -/
theorem binaryDigits_numberOf (values : List Bool) :
    binaryDigits values.length (numberOf values) = values := by
  apply List.ext_getElem
  · exact length_binaryDigits _ _
  · intro i hi hvalues
    have hbound : values.length - 1 - i < values.length := by omega
    have hback : values.length - 1 - (values.length - 1 - i) = i := by omega
    simp only [binaryDigits, List.getElem_map, List.getElem_range, numberOf,
      Nat.testBit_ofBits_lt _ _ hbound, hback]

/-! ## Entries -/

/-- A name that is not there is set at the end. -/
theorem setEntry_of_not_mem {name : String} {entries : List (String × Bool)}
    (h : name ∉ entries.map Prod.fst) (value : Bool) :
    setEntry name value entries = entries ++ [(name, value)] := by
  induction entries with
  | nil => rfl
  | cons entry rest ih =>
      rw [List.map_cons, List.mem_cons, not_or] at h
      rw [setEntry, if_neg (Ne.symm h.1), ih h.2, List.cons_append]

/-- Setting names that are new and distinct appends them. -/
theorem entries_foldl_set {pairs : List (String × Bool)} {a : Assignment}
    (h : ((a.entries ++ pairs).map Prod.fst).Nodup) :
    (pairs.foldl (fun a pair => a.set pair.1 pair.2) a).entries = a.entries ++ pairs := by
  induction pairs generalizing a with
  | nil => simp
  | cons pair rest ih =>
      have hnew : pair.1 ∉ a.entries.map Prod.fst := by
        rw [List.map_append, List.nodup_append'] at h
        intro hmem
        exact h.2.2 hmem (by simp)
      -- the head goes to the end of the entries, and the rest is set after it
      have hset : (a.set pair.1 pair.2).entries = a.entries ++ [pair] :=
        setEntry_of_not_mem hnew pair.2
      have hassoc : (a.set pair.1 pair.2).entries ++ rest = a.entries ++ pair :: rest := by
        rw [hset, List.append_assoc, List.singleton_append]
      rw [List.foldl_cons, ih, hassoc]
      rwa [hassoc]

theorem entries_ofList {pairs : List (String × Bool)} (h : (pairs.map Prod.fst).Nodup) :
    (ofList pairs).entries = pairs :=
  entries_foldl_set h

/-- The row of a number lists the names with its binary digits. -/
theorem entries_row {names : List String} (h : names.Nodup) (r : Nat) :
    (row names r).entries = names.zip (binaryDigits names.length r) := by
  apply entries_ofList
  rwa [List.map_fst_zip (Nat.le_of_eq (length_binaryDigits _ _).symm)]

theorem lookup_zip_map {name : String} {names : List String} (h : name ∈ names)
    (valuation : String → Bool) :
    (names.zip (names.map valuation)).lookup name = some (valuation name) := by
  induction names with
  | nil => exact absurd h List.not_mem_nil
  | cons other rest ih =>
      rw [List.map_cons, List.zip_cons_cons, List.lookup_cons]
      by_cases hname : name = other
      · simp [hname]
      · have hb : (name == other) = false := by simpa using hname
        rw [hb]
        exact ih ((List.mem_cons.1 h).resolve_left hname)

/-! ## Rows -/

variable {names : List String}

/-- The row whose number has the values of the names for its digits follows the valuation. -/
theorem row_follows (h : names.Nodup) (valuation : String → Bool) :
    (row names (numberOf (names.map valuation))).Follows valuation names := by
  intro name hname
  have hdigits := binaryDigits_numberOf (names.map valuation)
  rw [List.length_map] at hdigits
  rw [value?, entries_row h, hdigits]
  exact lookup_zip_map hname valuation

/-- Some row follows a given valuation. -/
theorem exists_row_follows (h : names.Nodup) (valuation : String → Bool) :
    ∃ a ∈ rows names, a.Follows valuation names := by
  refine ⟨_, List.mem_map_of_mem (List.mem_range.2 ?_), row_follows h valuation⟩
  have hlt := numberOf_lt (names.map valuation)
  rwa [List.length_map] at hlt

/-- Every row has a value for each of the names. -/
theorem covers_of_mem_rows (h : names.Nodup) {a : Assignment} (ha : a ∈ rows names) :
    a.Covers names := by
  obtain ⟨r, -, rfl⟩ := List.mem_map.1 ha
  intro name hname
  -- the entries of a row are its names with digits beside them
  rw [← List.map_fst_zip (Nat.le_of_eq (length_binaryDigits names.length r).symm)] at hname
  obtain ⟨pair, hpair, hfst⟩ := List.mem_map.1 hname
  rw [value?, entries_row h, List.lookup_isSome_iff]
  exact ⟨pair, hpair, by simp [hfst]⟩

end Assignment

end Sentential
