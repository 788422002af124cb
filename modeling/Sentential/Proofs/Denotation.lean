import Sentential.Proofs.Evaluation
import Mathlib.Data.List.Find

/-!
# What an evaluation says

`Formula.IsTrue` says of a formula, connective by connective, when it is true under a valuation of
its names. Evaluation visits the leaves from left to right, whatever values it has met on the way:
it breaks off at the first name without a value (`Formula.evaluateWithin_of_unbound`), and if every
name has one it decides whether the formula is true (`Formula.holds_iff`). Nothing else about the
assignment matters (`Formula.evaluate_total`).
-/

namespace Sentential

/-! ## Truth -/

/-- What a connective says of two propositions. -/
def Connective.Relates : Connective → Prop → Prop → Prop
  | .and, p, q => p ∧ q
  | .or, p, q => p ∨ q
  | .xor, p, q => ¬(p ↔ q)
  | .implies, p, q => ¬p ∨ q
  | .equals, p, q => p ↔ q
  | .notEquals, p, q => ¬(p ↔ q)

/-- The formula is true under the valuation. -/
def Formula.IsTrue (valuation : String → Bool) : Formula → Prop
  | .const value => value = true
  | .var name => valuation name = true
  | .neg operand => ¬operand.IsTrue valuation
  | .binary op left right => op.Relates (left.IsTrue valuation) (right.IsTrue valuation)

theorem Connective.apply_iff (op : Connective) (x y : Bool) :
    op.apply x y = true ↔ op.Relates (x = true) (y = true) := by
  cases op <;> cases x <;> cases y <;> simp [apply, Relates]

/-- The truth value of a formula is that of the proposition it states. -/
theorem Formula.holds_iff {valuation : String → Bool} {f : Formula} :
    f.holds valuation = true ↔ f.IsTrue valuation := by
  induction f with
  | const value => rfl
  | var name => rfl
  | neg operand ih => rw [holds, IsTrue, ← ih, Bool.not_eq_true', Bool.not_eq_true]
  | binary op left right ihl ihr => rw [holds, IsTrue, op.apply_iff, ihl, ihr]

instance (valuation : String → Bool) (f : Formula) : Decidable (f.IsTrue valuation) :=
  decidable_of_iff (f.holds valuation = true) Formula.holds_iff

/-! ## The first name without a value -/

namespace Assignment

/-- The first of the names that has no value. -/
def firstUnbound? (a : Assignment) (names : List String) : Option String :=
  names.find? fun name => (a.value? name).isNone

/-- The assignments give the names the same values, and leave the same names without one. -/
def AgreesOn (a b : Assignment) (names : List String) : Prop :=
  ∀ name ∈ names, a.value? name = b.value? name

variable {a b : Assignment} {names names' : List String} {name : String}

theorem firstUnbound?_append :
    a.firstUnbound? (names ++ names') = (a.firstUnbound? names).or (a.firstUnbound? names') :=
  List.find?_append

theorem firstUnbound?_eq_none_iff : a.firstUnbound? names = none ↔ a.Covers names := by
  simp only [firstUnbound?, List.find?_eq_none, Covers, Bool.not_eq_true,
    Option.isNone_eq_false_iff]

theorem firstUnbound?_eq_some_iff :
    a.firstUnbound? names = some name ↔
      ∃ before after, names = before ++ name :: after ∧ a.Covers before ∧ a.value? name = none := by
  simp only [firstUnbound?, List.find?_eq_some_iff_append, Option.isNone_iff_eq_none, Covers,
    Option.not_isNone]
  constructor
  · rintro ⟨hnone, before, after, hnames, hbefore⟩
    exact ⟨before, after, hnames, hbefore, hnone⟩
  · rintro ⟨before, after, hnames, hbefore, hnone⟩
    exact ⟨hnone, before, after, hnames, hbefore⟩

theorem AgreesOn.firstUnbound?_eq (h : a.AgreesOn b names) :
    a.firstUnbound? names = b.firstUnbound? names :=
  List.find?_congr fun name hname => by rw [h name hname]

/-- What follows a valuation on some names is followed by every assignment that agrees on them. -/
theorem AgreesOn.follows (h : a.AgreesOn b names) {valuation : String → Bool}
    (ha : a.Follows valuation names) : b.Follows valuation names := by
  intro name hname
  rw [← h name hname]
  exact ha name hname

end Assignment

/-! ## Evaluation -/

namespace Formula

variable {a : Assignment} {f : Formula}

/-- Within the depth of the walk, evaluation breaks off at the first name without a value. By
induction on the formula: what stands to the left of that name has a value of its own, which does
not stop the walk. -/
theorem evaluateWithin_of_unbound {limit : Nat} {name : String} (hdepth : f.height ≤ limit)
    (h : a.firstUnbound? f.names = some name) :
    f.evaluateWithin limit a = .error (.unbound name) := by
  induction f generalizing limit with
  | const value => exact absurd h (by simp [names, Assignment.firstUnbound?])
  | var other =>
      obtain rfl : name = other := List.mem_singleton.1 (List.mem_of_find?_eq_some h)
      have hnone := List.find?_some h
      simp only [evaluateWithin, Option.isNone_iff_eq_none.1 hnone]
  | neg operand ih =>
      cases limit with
      | zero => exact absurd hdepth (Nat.not_succ_le_zero _)
      | succ rest =>
          rw [evaluateWithin, ih (Nat.le_of_succ_le_succ hdepth) h]
          rfl
  | binary op left right ihl ihr =>
      cases limit with
      | zero => exact absurd hdepth (Nat.not_succ_le_zero _)
      | succ rest =>
          have hmax : max left.height right.height ≤ rest := Nat.le_of_succ_le_succ hdepth
          have hl : left.height ≤ rest := Nat.le_trans (Nat.le_max_left _ _) hmax
          have hr : right.height ≤ rest := Nat.le_trans (Nat.le_max_right _ _) hmax
          rw [names, Assignment.firstUnbound?_append] at h
          rw [evaluateWithin]
          -- the first such name is in the left operand, if any is, and that is evaluated first
          cases hleft : a.firstUnbound? left.names with
          | some first =>
              rw [hleft] at h
              obtain rfl : first = name := Option.some.inj h
              rw [ihl hl hleft]
              rfl
          | none =>
              rw [hleft, Option.none_or] at h
              have hcovers := Assignment.firstUnbound?_eq_none_iff.1 hleft
              rw [evaluateWithin_of_follows hl hcovers.follows, ihr hr h]
              rfl

/-- Within the depth of the walk, an evaluation is decided by the first name without a value, or
else by the values of the names. -/
theorem evaluate_eq_match (hdepth : f.height ≤ walkLimit) (a : Assignment) :
    f.evaluate a =
      match a.firstUnbound? f.names with
      | some name => .error (.unbound name)
      | none => .ok (f.holds a.valuation) := by
  cases hfirst : a.firstUnbound? f.names with
  | some name => exact evaluateWithin_of_unbound hdepth hfirst
  | none => exact evaluate_of_covers hdepth (Assignment.firstUnbound?_eq_none_iff.1 hfirst)

/-- Evaluation is total up to the first name without a value. A formula that is not too deep has its
names listed from left to right. If some of them has no value in the assignment, the first such name
is reported, although the names before it may settle the value; otherwise the outcome is the truth
of the formula. The outcome depends on nothing but the values of the names. -/
theorem evaluate_total (hdepth : f.height ≤ walkLimit) (a : Assignment) :
    f.boundedNames = .ok f.names ∧
      ((∃ name ∈ f.names, a.value? name = none) →
        ∃ before name after, f.names = before ++ name :: after ∧ a.Covers before ∧
          a.value? name = none ∧ f.evaluate a = .error (.unbound name)) ∧
      (a.Covers f.names →
        ∃ value, f.evaluate a = .ok value ∧ (value = true ↔ f.IsTrue a.valuation)) ∧
      ∀ b : Assignment, a.AgreesOn b f.names → f.evaluate a = f.evaluate b := by
  refine ⟨if_pos hdepth, ?_, ?_, ?_⟩
  · rintro ⟨missing, hmem, hmissing⟩
    cases hfirst : a.firstUnbound? f.names with
    | none =>
        have hcovers := Assignment.firstUnbound?_eq_none_iff.1 hfirst missing hmem
        rw [hmissing] at hcovers
        exact absurd hcovers Bool.false_ne_true
    | some name =>
        obtain ⟨before, after, hnames, hbefore, hnone⟩ :=
          Assignment.firstUnbound?_eq_some_iff.1 hfirst
        exact ⟨before, name, after, hnames, hbefore, hnone, evaluateWithin_of_unbound hdepth hfirst⟩
  · intro hcovers
    exact ⟨f.holds a.valuation, evaluate_of_covers hdepth hcovers, holds_iff⟩
  · intro b hagree
    cases hfirst : a.firstUnbound? f.names with
    | some name =>
        have hb := hagree.firstUnbound?_eq.symm.trans hfirst
        exact (evaluateWithin_of_unbound hdepth hfirst).trans
          (evaluateWithin_of_unbound hdepth hb).symm
    | none =>
        have hfollows := (Assignment.firstUnbound?_eq_none_iff.1 hfirst).follows
        exact (evaluate_of_follows hdepth hfollows).trans
          (evaluate_of_follows hdepth (hagree.follows hfollows)).symm

/-- A conjunction with ⊥ is evaluated to its end: the second name has no value, although the value
of the conjunction is settled. With a value for each name, whatever it is, the conjunction is false,
and entries for other names change nothing. -/
theorem evaluate_total_settled :
    let f : Formula := .binary .and (.const false) (.binary .implies (.var "p") (.neg (.var "q")))
    let partialValues : Assignment := ⟨[("p", true)]⟩
    let a : Assignment := ⟨[("q", false), ("p", true)]⟩
    let b : Assignment := ⟨[("p", true), ("r", true), ("q", false)]⟩
    f.height ≤ walkLimit ∧ (∃ name ∈ f.names, partialValues.value? name = none) ∧
      f.evaluate partialValues = .error (.unbound "q") ∧
      a.Covers f.names ∧ f.evaluate a = .ok false ∧ a.AgreesOn b f.names ∧
      f.evaluate b = .ok false := by
  intro f partialValues a b
  have hdepth : f.height ≤ walkLimit := by decide
  have hmissing : ∃ name ∈ f.names, partialValues.value? name = none := ⟨"q", by decide, by decide⟩
  have hcovers : a.Covers f.names := by decide
  have hagree : a.AgreesOn b f.names := by
    simp only [f, names, Assignment.AgreesOn, List.nil_append, List.cons_append,
      List.forall_mem_cons]
    decide
  obtain ⟨-, -, htrue, hsame⟩ := evaluate_total hdepth a
  obtain ⟨before, name, after, hnames, hbefore, hnone, heval⟩ :=
    (evaluate_total hdepth partialValues).2.1 hmissing
  obtain ⟨value, hvalue, hiff⟩ := htrue hcovers
  have hname : name = "q" := by
    have hmem : name ∈ f.names := by
      rw [hnames]
      exact List.mem_append_right before List.mem_cons_self
    -- the other name of the formula has a value
    rcases List.mem_cons.1 hmem with rfl | hmem
    · exact absurd hnone (by decide)
    · exact List.mem_singleton.1 hmem
  have hfalse : value = false := by
    rw [← Bool.not_eq_true, hiff]
    rintro ⟨h, -⟩
    exact Bool.false_ne_true h
  rw [hname] at heval
  rw [hfalse] at hvalue
  exact ⟨hdepth, hmissing, heval, hcovers, hvalue, hagree, (hsame b hagree).symm.trans hvalue⟩

end Formula

end Sentential
