import Sentential.Proofs.Settling
import Sentential.Proofs.Visits

/-!
# Reading within a larger budget

The budget bounds nesting and has no other effect. Within a smaller budget a window is found to be
nested too deeply, or the result is the one within the larger budget (`Source.read_settles`). What
is left of a budget where a window is visited is at most the budget itself (`Source.Visits.atMost`).
-/

namespace Sentential

/-! ## Comparing budgets -/

/-- The first budget allows no more nesting than the second. -/
def Budget.AtMost : Budget → Budget → Prop
  | _, none => True
  | none, some _ => False
  | some m, some n => m ≤ n

variable {budget budget' left : Budget} {cost : Nat}

theorem Budget.AtMost.refl (budget : Budget) : budget.AtMost budget := by
  cases budget with
  | none => exact trivial
  | some n => exact Nat.le_refl n

/-- Without a budget all nesting is allowed. -/
theorem Budget.atMost_none (budget : Budget) : budget.AtMost none := by
  cases budget with
  | none => exact trivial
  | some _ => exact trivial

theorem Budget.AtMost.trans (h : left.AtMost budget) (h' : budget.AtMost budget') :
    left.AtMost budget' := by
  cases budget' with
  | none => exact trivial
  | some n =>
      cases budget with
      | none => exact absurd h' not_false
      | some m =>
          cases left with
          | none => exact absurd h not_false
          | some l => exact Nat.le_trans h h'

theorem Budget.atMost_of_spend (h : budget.spend? cost = some left) : left.AtMost budget := by
  cases budget with
  | none => exact trivial
  | some n =>
      rw [Budget.spend?] at h
      split at h
      · cases h
        exact Nat.sub_le n cost
      · cases h

/-- Without costs of records all that fits into a budget fits into a larger one. -/
theorem Budget.AtMost.fitsInto (h : budget.AtMost budget') : budget.FitsInto 0 0 budget' := by
  cases budget' with
  | none => exact trivial
  | some n =>
      cases budget with
      | none => exact h
      | some m => exact ⟨h, h⟩

/-! ## Results within a smaller and a larger budget -/

/-- The first result is exhausted nesting, or it is the second one. -/
def Settles (length : Nat) (x y : Except ParseFault Formula) : Prop :=
  x = .error (.tooDeep length) ∨ x = y

namespace Source

variable {text : Source} {w v : Window} {rest : Budget}

/-- A larger budget changes nothing but exhausted nesting. -/
theorem read_settles (w : Window) (h : budget.AtMost budget') :
    Settles text.size (text.read budget w) (text.read budget' w) := by
  rcases parseWindowAt_settles text w h.fitsInto with ⟨fault, rfl, hdeep⟩ | heq
  · exact Or.inl hdeep
  · exact Or.inr (congrArg Traced.result heq)

theorem readPart_settles (h : budget.AtMost budget') (cost : Nat) (o : Operand) :
    Settles text.size (text.readPart budget cost o) (text.readPart budget' cost o) := by
  have hread (left left' : Budget) (h : left.FitsInto 0 0 left') :=
    parseWindowAt_settles text o.window h
  rw [← result_readOperand, ← result_readOperand]
  rcases readOperandAt_settles h.fitsInto hread cost with ⟨fault, rfl, hdeep⟩ | heq
  · exact Or.inl hdeep
  · exact Or.inr (congrArg Traced.result heq)

/-- A fault other than exhausted nesting does not go away when the budget grows. -/
theorem read_error_of_atMost {fault : ParseFault} (h : budget.AtMost budget')
    (hread : text.read budget w = .error fault) (hfault : fault ≠ .tooDeep text.size) :
    text.read budget' w = .error fault := by
  rcases read_settles w h with hdeep | heq
  · rw [hread] at hdeep
    exact absurd (Except.error.inj hdeep) hfault
  · rw [← heq, hread]

/-- Less and less is left of the budget on the way to a window that is visited. -/
theorem Visits.atMost (h : text.Visits budget w left v) : left.AtMost budget := by
  induction h with
  | here => exact .refl _
  | through hbegins _ ih =>
      cases hbegins with
      | group _ hspend => exact ih.trans (Budget.atMost_of_spend hspend)
      | operand _ _ hspend => exact ih.trans (Budget.atMost_of_spend hspend)

end Source

end Sentential
