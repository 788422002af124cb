import Sentential.Semantics.Evaluation

/-!
# The value of a formula

An assignment `Covers` some names if it gives each of them a value, and it `Follows` a valuation on
them if the values are those of the valuation. A formula that is not too deep is evaluated without a
fault under every assignment that covers its names, and the value is the one that `Formula.holds`
computes from any valuation that the assignment follows (`Formula.evaluate_of_follows`). What else
an assignment holds does not matter.
-/

namespace Sentential

namespace Assignment

/-- The assignment has a value for every one of the names. -/
def Covers (a : Assignment) (names : List String) : Prop :=
  ∀ name ∈ names, (a.value? name).isSome = true

/-- The assignment gives the names the values that they have in the valuation. -/
def Follows (a : Assignment) (valuation : String → Bool) (names : List String) : Prop :=
  ∀ name ∈ names, a.value? name = some (valuation name)

/-- The values of an assignment as a valuation of all names; names without a value are false. -/
def valuation (a : Assignment) (name : String) : Bool := (a.value? name).getD false

instance (a : Assignment) (names : List String) : Decidable (a.Covers names) :=
  inferInstanceAs (Decidable (∀ name ∈ names, (a.value? name).isSome = true))

variable {a : Assignment} {valuation : String → Bool} {names names' : List String}

theorem follows_append :
    a.Follows valuation (names ++ names') ↔
      a.Follows valuation names ∧ a.Follows valuation names' := by
  simp only [Follows, List.mem_append, or_imp, forall_and]

theorem Follows.covers (h : a.Follows valuation names) : a.Covers names := by
  intro name hname
  rw [h name hname]
  rfl

/-- An assignment follows its own values wherever it has any. -/
theorem Covers.follows (h : a.Covers names) : a.Follows a.valuation names := by
  intro name hname
  obtain ⟨value, hvalue⟩ := Option.isSome_iff_exists.1 (h name hname)
  rw [Assignment.valuation, hvalue, Option.getD_some]

end Assignment

namespace Formula

variable {a : Assignment} {valuation : String → Bool}

/-- Within the depth of the walk, evaluation computes the truth value. By induction on the formula,
with one unit of the limit spent for each operator on the path. -/
theorem evaluateWithin_of_follows {f : Formula} {limit : Nat} (hdepth : f.height ≤ limit)
    (h : a.Follows valuation f.names) : f.evaluateWithin limit a = .ok (f.holds valuation) := by
  induction f generalizing limit with
  | const value => simp only [evaluateWithin, holds]
  | var name => simp only [evaluateWithin, h name (by simp [names]), holds]
  | neg operand ih =>
      cases limit with
      | zero => exact absurd hdepth (Nat.not_succ_le_zero _)
      | succ rest =>
          rw [evaluateWithin, ih (Nat.le_of_succ_le_succ hdepth) h]
          rfl
  | binary op left right ihl ihr =>
      cases limit with
      | zero => exact absurd hdepth (Nat.not_succ_le_zero _)
      | succ rest =>
          have hmax : max left.height right.height ≤ rest := Nat.le_of_succ_le_succ hdepth
          obtain ⟨hl, hr⟩ := Assignment.follows_append.1 h
          rw [evaluateWithin, ihl (Nat.le_trans (Nat.le_max_left _ _) hmax) hl,
            ihr (Nat.le_trans (Nat.le_max_right _ _) hmax) hr]
          rfl

/-- A formula that is not too deep has the value that the names of the assignment give it. -/
theorem evaluate_of_follows {f : Formula} (hdepth : f.height ≤ walkLimit)
    (h : a.Follows valuation f.names) : f.evaluate a = .ok (f.holds valuation) :=
  evaluateWithin_of_follows hdepth h

theorem evaluate_of_covers {f : Formula} (hdepth : f.height ≤ walkLimit) (h : a.Covers f.names) :
    f.evaluate a = .ok (f.holds a.valuation) :=
  evaluate_of_follows hdepth h.follows

theorem covers_distinctNames_iff {f : Formula} : a.Covers f.distinctNames ↔ a.Covers f.names := by
  simp only [Assignment.Covers, distinctNames, List.mem_eraseDups]

end Formula

end Sentential
