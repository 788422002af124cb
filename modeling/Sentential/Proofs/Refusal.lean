import Sentential.Semantics.Evaluation

/-!
# Refused tables

A formula is refused a truth table if it has more variables than the limit allows, and also if the
number of rows has too many digits to be written. The powers of two that can be written are those up
to `largestWritableExponent`. Within the limit a table is refused exactly beyond this exponent
(`refusal?_eq_none_iff`), and beyond the limit the fault is that of too many variables exactly if
the number of rows at the limit can be written (`overLimit_eq_tooManyVariables_iff`).
-/

namespace Sentential

/-- The largest number of variables, or limit, for which the number of rows can be written. -/
def largestWritableExponent : Nat := 14284

namespace Decimal

theorem two_pow_le {m n : Nat} (h : m ≤ n) : Nat.pow 2 m ≤ Nat.pow 2 n :=
  Nat.pow_le_pow_right (Nat.le_succ 1) h

theorem unwritable?_natCast (n : Nat) :
    unwritable? (n : Int) =
      if maxInteger < n then some .tooManyDigits
      else if maxInteger < Nat.pow 2 n then some .tooManyDigits else none := rfl

/-- A power of two can be written up to the largest exponent, and has too many digits beyond it. -/
theorem unwritable?_natCast_ite (n : Nat) :
    unwritable? (n : Int) =
      if n ≤ largestWritableExponent then none else some .tooManyDigits := by
  have hwritable : Nat.pow 2 largestWritableExponent ≤ maxInteger := by decide +kernel
  have hunwritable : maxInteger < Nat.pow 2 (largestWritableExponent + 1) := by decide +kernel
  rw [unwritable?_natCast]
  by_cases hn : n ≤ largestWritableExponent
  · have hpow : Nat.pow 2 n ≤ maxInteger := Nat.le_trans (two_pow_le hn) hwritable
    have hsmall : n ≤ maxInteger := Nat.le_trans (Nat.le_of_lt Nat.lt_two_pow_self) hpow
    rw [if_neg (Nat.not_lt.2 hsmall), if_neg (Nat.not_lt.2 hpow), if_pos hn]
  · have hpow : maxInteger < Nat.pow 2 n :=
      Nat.lt_of_lt_of_le hunwritable (two_pow_le (Nat.lt_of_not_le hn))
    rw [if_pos hpow, ite_self, if_neg hn]

theorem unwritable?_eq_none_iff {n : Nat} :
    unwritable? (n : Int) = none ↔ n ≤ largestWritableExponent := by
  rw [unwritable?_natCast_ite]
  by_cases hn : n ≤ largestWritableExponent
  · exact iff_of_true (if_pos hn) hn
  · rw [if_neg hn]
    exact iff_of_false (Option.some_ne_none _) hn

end Decimal

namespace EvaluationFault

variable {count : Nat} {limit : Int}

-- `delta` instead of `rw`: the equation of the definition would evaluate the bound on integers

theorem overLimit_of_writable (h : Decimal.unwritable? limit = none) :
    overLimit count limit = .tooManyVariables count limit := by
  delta overLimit
  rw [h]

theorem overLimit_of_unwritable {why : Decimal.Unwritable}
    (h : Decimal.unwritable? limit = some why) :
    overLimit count limit = .unwritableRows why := by
  delta overLimit
  rw [h]

/-- The fault beyond the limit names the number of names and the limit exactly if the number of rows
at the limit can be written. -/
theorem overLimit_eq_tooManyVariables_iff :
    overLimit count limit = .tooManyVariables count limit ↔ Decimal.unwritable? limit = none := by
  cases h : Decimal.unwritable? limit with
  | none => exact iff_of_true (overLimit_of_writable h) rfl
  | some why =>
      rw [overLimit_of_unwritable h]
      exact iff_of_false (fun heq => by cases heq) (Option.some_ne_none why)

theorem refusal?_of_lt (h : limit < count) :
    refusal? count limit = some (.overLimit count limit) := if_pos h

theorem refusal?_of_le (h : (count : Int) ≤ limit) :
    refusal? count limit = (Decimal.unwritable? count).map .unwritableRows :=
  if_neg (Int.not_lt.2 h)

/-- A table is refused for two reasons: there are more names than the limit allows, or so many that
the number of rows cannot be written. -/
theorem refusal?_eq_some_iff {fault : EvaluationFault} :
    refusal? count limit = some fault ↔
      (limit < count ∧ fault = .overLimit count limit) ∨
        ((count : Int) ≤ limit ∧ largestWritableExponent < count ∧
          fault = .unwritableRows .tooManyDigits) := by
  rcases Int.lt_or_le limit count with hlt | hle
  · rw [refusal?_of_lt hlt, Option.some.injEq]
    constructor
    · exact fun h => Or.inl ⟨hlt, h.symm⟩
    · rintro (⟨-, h⟩ | ⟨hle, -⟩)
      · exact h.symm
      · exact absurd hlt (Int.not_lt.2 hle)
  · rw [refusal?_of_le hle, Decimal.unwritable?_natCast_ite]
    by_cases hcount : count ≤ largestWritableExponent
    · rw [if_pos hcount, Option.map_none]
      refine iff_of_false (fun h => by cases h) ?_
      rintro (⟨hlt, -⟩ | ⟨-, hmore, -⟩)
      · exact absurd hlt (Int.not_lt.2 hle)
      · exact absurd hcount (Nat.not_le.2 hmore)
    · rw [if_neg hcount, Option.map_some, Option.some.injEq]
      constructor
      · exact fun h => Or.inr ⟨hle, Nat.lt_of_not_le hcount, h.symm⟩
      · rintro (⟨hlt, -⟩ | ⟨-, -, h⟩)
        · exact absurd hlt (Int.not_lt.2 hle)
        · exact h.symm

/-- A table is refused for a number of rows that cannot be written: that at the limit if there are
more names than the limit allows, and that of the table otherwise. -/
theorem exists_refusal?_eq_unwritableRows_iff :
    (∃ why, refusal? count limit = some (.unwritableRows why)) ↔
      (limit < count ∧ Decimal.unwritable? limit ≠ none) ∨
        ((count : Int) ≤ limit ∧ largestWritableExponent < count) := by
  simp only [refusal?_eq_some_iff]
  constructor
  · rintro ⟨why, ⟨hlt, hfault⟩ | ⟨hle, hcount, -⟩⟩
    · refine Or.inl ⟨hlt, fun hnone => ?_⟩
      rw [overLimit_of_writable hnone] at hfault
      cases hfault
    · exact Or.inr ⟨hle, hcount⟩
  · rintro (⟨hlt, hne⟩ | ⟨hle, hcount⟩)
    · obtain ⟨why, hwhy⟩ := Option.ne_none_iff_exists'.1 hne
      exact ⟨why, Or.inl ⟨hlt, (overLimit_of_unwritable hwhy).symm⟩⟩
    · exact ⟨_, Or.inr ⟨hle, hcount, rfl⟩⟩

/-- At a limit that is not negative this means that both the limit and the number of names are
beyond the largest exponent. -/
theorem exists_refusal?_eq_unwritableRows_iff_of_nonneg (hpos : 0 ≤ limit) :
    (∃ why, refusal? count limit = some (.unwritableRows why)) ↔
      largestWritableExponent < count ∧ (largestWritableExponent : Int) < limit := by
  obtain ⟨n, rfl⟩ := Int.eq_ofNat_of_zero_le hpos
  rw [exists_refusal?_eq_unwritableRows_iff, ne_eq, Decimal.unwritable?_eq_none_iff]
  omega

theorem refusal?_eq_none_iff :
    refusal? count limit = none ↔
      (count : Int) ≤ limit ∧ count ≤ largestWritableExponent := by
  rcases Int.lt_or_le limit count with hlt | hle
  · rw [refusal?_of_lt hlt]
    exact iff_of_false (Option.some_ne_none _) fun h => Int.not_lt.2 h.1 hlt
  · rw [refusal?_of_le hle, Option.map_eq_none_iff, Decimal.unwritable?_eq_none_iff]
    exact (and_iff_right hle).symm

end EvaluationFault

end Sentential
