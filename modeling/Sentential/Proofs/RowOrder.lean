import Sentential.Proofs.Lookup

/-!
# The order of the rows

The binary digits of numbers of one width are ordered like the numbers
(`Assignment.binaryDigits_lt`), so that no two numbers have the same digits. The rows over distinct
names list the names with the digits of their numbers; they are therefore in strictly ascending
order, each assignment of the names is exactly one of them, and the number of a row can be read off
from its values (`Assignment.rows_enumerate`).
-/

namespace Sentential

namespace Assignment

/-! ## The order of binary digits -/

/-- The most significant digit and the digits after it. -/
theorem binaryDigits_succ (width r : Nat) :
    binaryDigits (width + 1) r = r.testBit width :: binaryDigits width r := by
  have hshift : ∀ i, width + 1 - 1 - (i + 1) = width - 1 - i := by omega
  simp only [binaryDigits, List.range_succ_eq_map, List.map_cons, List.map_map, Function.comp_def,
    Nat.succ_eq_add_one, hshift]
  rfl

/-- The digits of a number do not depend on what lies beyond them. -/
theorem binaryDigits_mod (width r : Nat) :
    binaryDigits width (r % 2 ^ width) = binaryDigits width r := by
  apply List.map_congr_left
  intro i hi
  have hlt : width - 1 - i < width := by
    have := List.mem_range.1 hi
    omega
  rw [Nat.testBit_mod_two_pow, decide_eq_true hlt, Bool.true_and]

/-- A number that fits in fewer digits begins with the digit 0. -/
theorem binaryDigits_succ_of_lt {width r : Nat} (hr : r < 2 ^ width) :
    binaryDigits (width + 1) r = false :: binaryDigits width r := by
  rw [binaryDigits_succ, Nat.testBit_eq_false_of_lt hr]

/-- A number that does not fit in fewer digits begins with the digit 1, and the remainder
follows. -/
theorem binaryDigits_succ_of_le {width r : Nat} (hle : 2 ^ width ≤ r) (hr : r < 2 ^ (width + 1)) :
    binaryDigits (width + 1) r = true :: binaryDigits width (r - 2 ^ width) := by
  have hmod : r % 2 ^ width = r - 2 ^ width := by
    rw [Nat.mod_eq_sub_mod hle, Nat.mod_eq_of_lt (by omega)]
  rw [binaryDigits_succ, Nat.testBit_of_two_pow_le_and_two_pow_add_one_gt hle hr, ← hmod,
    binaryDigits_mod]

/-- Smaller numbers have smaller digits, in the lexicographic order. By induction on the width: the
numbers differ in the most significant digit, or they have the same one and the remainders
differ. -/
theorem binaryDigits_lt {width r s : Nat} (hrs : r < s) (hs : s < 2 ^ width) :
    List.Lex (· < ·) (binaryDigits width r) (binaryDigits width s) := by
  induction width generalizing r s with
  | zero => exact absurd hs (by omega)
  | succ width ih =>
      by_cases hr : 2 ^ width ≤ r
      · rw [binaryDigits_succ_of_le hr (Nat.lt_trans hrs hs),
          binaryDigits_succ_of_le (Nat.le_trans hr (Nat.le_of_lt hrs)) hs]
        exact .cons (ih (by omega) (by omega))
      · rw [binaryDigits_succ_of_lt (Nat.not_le.1 hr)]
        by_cases hle : 2 ^ width ≤ s
        · rw [binaryDigits_succ_of_le hle hs]
          exact .rel Bool.false_lt_true
        · rw [binaryDigits_succ_of_lt (Nat.not_le.1 hle)]
          exact .cons (ih hrs (Nat.not_le.1 hle))

/-- No list of truth values precedes itself. -/
theorem not_lex_self (values : List Bool) : ¬List.Lex (· < ·) values values :=
  List.lex_irrefl (fun value : Bool => lt_irrefl value) values

/-- Numbers with the same digits are equal. -/
theorem binaryDigits_inj {width r s : Nat} (hr : r < 2 ^ width) (hs : s < 2 ^ width)
    (h : binaryDigits width r = binaryDigits width s) : r = s := by
  rcases Nat.lt_trichotomy r s with hlt | heq | hgt
  · exact absurd (h ▸ binaryDigits_lt hlt hs) (not_lex_self _)
  · exact heq
  · exact absurd (h ▸ binaryDigits_lt hgt hr) (not_lex_self _)

/-- A number is the number of its digits. -/
theorem numberOf_binaryDigits {width r : Nat} (hr : r < 2 ^ width) :
    numberOf (binaryDigits width r) = r := by
  have hlength := length_binaryDigits width r
  have hlt := numberOf_lt (binaryDigits width r)
  have hdigits := binaryDigits_numberOf (binaryDigits width r)
  rw [hlength] at hlt hdigits
  exact binaryDigits_inj hlt hr hdigits

/-! ## The values of a row -/

/-- The values of an assignment, in the order of its entries. -/
def values (a : Assignment) : List Bool := a.entries.map Prod.snd

/-- The names of an assignment, in the order of its entries. -/
def keys (a : Assignment) : List String := a.entries.map Prod.fst

variable {names : List String}

theorem keys_row (h : names.Nodup) (r : Nat) : (row names r).keys = names := by
  rw [keys, entries_row h, List.map_fst_zip (Nat.le_of_eq (length_binaryDigits _ _).symm)]

theorem values_row (h : names.Nodup) (r : Nat) :
    (row names r).values = binaryDigits names.length r := by
  rw [values, entries_row h, List.map_snd_zip (Nat.le_of_eq (length_binaryDigits _ _))]

/-- An assignment with distinct names gives them the values of its entries. -/
theorem map_valuation_keys {a : Assignment} (h : a.keys.Nodup) :
    a.keys.map a.valuation = a.values := by
  obtain ⟨entries⟩ := a
  induction entries with
  | nil => rfl
  | cons entry rest ih =>
      obtain ⟨name, value⟩ := entry
      obtain ⟨hnew, hrest⟩ := List.nodup_cons.1 h
      have hhead : valuation ⟨(name, value) :: rest⟩ name = value := by
        simp [valuation, value?]
      -- the first entry is about none of the other names
      have htail : (rest.map Prod.fst).map (valuation ⟨(name, value) :: rest⟩) =
          (rest.map Prod.fst).map (valuation ⟨rest⟩) := by
        apply List.map_congr_left
        intro other hother
        have hne : (other == name) = false := beq_eq_false_iff_ne.2 fun heq => hnew (heq ▸ hother)
        simp only [valuation, value?, List.lookup_cons, hne]
      calc
        _ = valuation ⟨(name, value) :: rest⟩ name ::
              (rest.map Prod.fst).map (valuation ⟨(name, value) :: rest⟩) := rfl
        _ = value :: (rest.map Prod.fst).map (valuation ⟨rest⟩) := by rw [hhead, htail]
        _ = value :: rest.map Prod.snd := congrArg (value :: ·) (ih hrest)

/-- The number of a row can be read off from its values. -/
theorem rowIndex_row (h : names.Nodup) {r : Nat} (hr : r < rowCount names.length) :
    (row names r).rowIndex names = r := by
  have hkeys := keys_row h r
  have hcovers : (row names r).Covers names :=
    covers_of_mem_rows h (List.mem_map_of_mem (List.mem_range.2 hr))
  have hvalues : names.map (row names r).valuation = binaryDigits names.length r := by
    have := map_valuation_keys (a := row names r) (hkeys.symm ▸ h)
    rwa [hkeys, values_row h] at this
  rw [rowIndex_eq hcovers, hvalues, numberOf_binaryDigits hr]

/-! ## The list of the rows -/

theorem getElem?_rows {r : Nat} {a : Assignment} :
    (rows names)[r]? = some a ↔ r < rowCount names.length ∧ row names r = a := by
  rw [rows, List.getElem?_map, Option.map_eq_some_iff]
  constructor
  · rintro ⟨n, hn, rfl⟩
    obtain ⟨hr, heq⟩ := List.getElem?_eq_some_iff.1 hn
    rw [List.getElem_range] at heq
    rw [List.length_range] at hr
    exact ⟨hr, by rw [heq]⟩
  · rintro ⟨hr, rfl⟩
    exact ⟨r, List.getElem?_range hr, rfl⟩

/-- The rows are in strictly ascending order of their values. -/
theorem pairwise_values_rows (h : names.Nodup) :
    ((rows names).map values).Pairwise (List.Lex (· < ·)) := by
  rw [rows, List.map_map, List.pairwise_map]
  apply List.pairwise_lt_range.imp_of_mem
  intro r s _ hs hrs
  rw [Function.comp_apply, Function.comp_apply, values_row h, values_row h]
  exact binaryDigits_lt hrs (List.mem_range.1 hs)

/-- No row occurs twice, since its values would precede themselves. -/
theorem nodup_rows (h : names.Nodup) : (rows names).Nodup := by
  have hvalues : ((rows names).map values).Nodup := by
    apply (pairwise_values_rows h).imp
    rintro as bs hlt rfl
    exact not_lex_self as hlt
  exact hvalues.of_map

/-- The rows over distinct names list the assignments of the names completely, without repetition
and in order. There are `2 ^ n` of them for `n` names, each has exactly the names for its keys, in
their order, and each choice of values occurs once. The values ascend strictly from row to row in
the lexicographic order, the first name being the most significant, and the values of a row are the
binary digits of its number. -/
theorem rows_enumerate (h : names.Nodup) :
    (rows names).length = 2 ^ names.length ∧
      (∀ a ∈ rows names, a.keys = names) ∧
      (∀ valuation : String → Bool,
        (rows names).count ⟨names.map fun name => (name, valuation name)⟩ = 1) ∧
      ((rows names).map values).Pairwise (List.Lex (· < ·)) ∧
      ∀ (r : Nat) (a : Assignment), (rows names)[r]? = some a → a.rowIndex names = r := by
  refine ⟨length_rows names, ?_, ?_, pairwise_values_rows h, ?_⟩
  · intro a ha
    obtain ⟨r, -, rfl⟩ := List.mem_map.1 ha
    exact keys_row h r
  · intro valuation
    have hlt := numberOf_lt (names.map valuation)
    rw [List.length_map] at hlt
    apply List.count_eq_one_of_mem (nodup_rows h)
    rw [← row_numberOf h]
    exact List.mem_map_of_mem (List.mem_range.2 hlt)
  · intro r a ha
    obtain ⟨hr, rfl⟩ := getElem?_rows.1 ha
    exact rowIndex_row h hr

/-- The rows over three names. -/
theorem rows_enumerate_three :
    let names := ["q", "p", "`light on`"]
    names.Nodup ∧ (rows names).length = 8 ∧
      (rows names).count ⟨[("q", true), ("p", false), ("`light on`", true)]⟩ = 1 ∧
      ((rows names).map values).Pairwise (List.Lex (· < ·)) ∧
      ∀ a, (rows names)[5]? = some a → a.keys = names ∧ a.rowIndex names = 5 := by
  intro names
  have hnodup : names.Nodup := by decide
  obtain ⟨hlength, hkeys, hcount, hpairwise, hindex⟩ := rows_enumerate hnodup
  refine ⟨hnodup, hlength, hcount fun name => name != "p", hpairwise, ?_⟩
  intro a ha
  exact ⟨hkeys a (List.mem_of_getElem? ha), hindex 5 a ha⟩

end Assignment

end Sentential
