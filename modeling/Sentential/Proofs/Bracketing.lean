import Sentential.Formula.Parser
import Sentential.Proofs.Denotation
import Mathlib.Algebra.Ring.Parity

/-!
# Parentheses in chains

A `Bracketing` is a chain of operands with its parentheses put in some way: a binary tree with the
operands at its leaves. The parser nests every chain to the right
(`Bracketing.formula_rightNested`). For a chain of conjunctions, a chain of disjunctions, and a
chain in which equalities, inequalities and exclusive disjunctions are mixed, the parentheses make
no difference to the outcome of an evaluation (`evaluate_bracketing`): it is decided by the operands
and the connectives alone, for a mixed chain by the parity of the number of true operands and
equalities.
-/

namespace Sentential

/-- The connectives whose truth functions add up truth values modulo two, but for a constant. -/
def parityConnectives : List Connective := [.equals, .notEquals, .xor]

/-- The sets of connectives whose chains may be put in parentheses in any way. -/
def associativeSets : List (List Connective) := [[.and], [.or], parityConnectives]

/-- A chain of operands in parentheses. -/
inductive Bracketing where
  | operand (f : Formula)
  | join (op : Connective) (left right : Bracketing)

namespace Bracketing

/-- The formula that a chain in parentheses spells. -/
def formula : Bracketing → Formula
  | operand f => f
  | join op left right => .binary op left.formula right.formula

/-- The operands from left to right. -/
def operands : Bracketing → List Formula
  | operand f => [f]
  | join _ left right => left.operands ++ right.operands

/-- The connectives from left to right. -/
def connectives : Bracketing → List Connective
  | operand _ => []
  | join op left right => left.connectives ++ op :: right.connectives

/-- The chain with its parentheses put to the right. -/
def rightNested : List (Connective × Formula) → Formula → Bracketing
  | [], last => operand last
  | (op, f) :: lefts, last => join op (operand f) (rightNested lefts last)

/-- The parser builds the tree of a chain whose parentheses are put to the right. -/
theorem formula_rightNested (lefts : List (Connective × Formula)) (last : Formula) :
    (rightNested lefts last).formula = chainTree lefts last := by
  induction lefts with
  | nil => rfl
  | cons left lefts ih =>
      rw [rightNested, formula, ih]
      rfl

theorem operands_rightNested (lefts : List (Connective × Formula)) (last : Formula) :
    (rightNested lefts last).operands = lefts.map Prod.snd ++ [last] := by
  induction lefts with
  | nil => rfl
  | cons left lefts ih =>
      rw [rightNested, operands, ih]
      rfl

theorem connectives_rightNested (lefts : List (Connective × Formula)) (last : Formula) :
    (rightNested lefts last).connectives = lefts.map Prod.fst := by
  induction lefts with
  | nil => rfl
  | cons left lefts ih =>
      rw [rightNested, connectives, ih]
      rfl

/-! ## Operands and their chain -/

variable {b b' : Bracketing}

/-- The names of a chain are those of its operands. -/
theorem names_formula (b : Bracketing) : b.formula.names = b.operands.flatMap Formula.names := by
  induction b with
  | operand f => exact (List.flatMap_singleton Formula.names f).symm
  | join op left right ihl ihr =>
      rw [formula, Formula.names, ihl, ihr, operands, List.flatMap_append]

/-- An operand is no higher than its chain. -/
theorem height_le_of_mem_operands {f : Formula} (h : f ∈ b.operands) :
    f.height ≤ b.formula.height := by
  induction b with
  | operand g => rw [List.mem_singleton.1 h, formula]
  | join op left right ihl ihr =>
      rw [formula, Formula.height]
      rcases List.mem_append.1 h with hl | hr
      · have := ihl hl
        omega
      · have := ihr hr
        omega

theorem forall_connectives_join {p : Connective → Prop} {op : Connective} :
    (∀ op' ∈ (join op b b').connectives, p op') ↔
      (∀ op' ∈ b.connectives, p op') ∧ p op ∧ ∀ op' ∈ b'.connectives, p op' := by
  rw [connectives, List.forall_mem_append, List.forall_mem_cons]

/-! ## The value of a chain -/

variable {valuation : String → Bool}

theorem holds_and (h : ∀ op ∈ b.connectives, op = .and) :
    b.formula.holds valuation = b.operands.all (Formula.holds valuation) := by
  induction b with
  | operand f => simp only [formula, operands, List.all_cons, List.all_nil, Bool.and_true]
  | join op left right ihl ihr =>
      obtain ⟨hl, rfl, hr⟩ := forall_connectives_join.1 h
      rw [formula, Formula.holds, ihl hl, ihr hr, operands, List.all_append]
      rfl

theorem holds_or (h : ∀ op ∈ b.connectives, op = .or) :
    b.formula.holds valuation = b.operands.any (Formula.holds valuation) := by
  induction b with
  | operand f => simp only [formula, operands, List.any_cons, List.any_nil, Bool.or_false]
  | join op left right ihl ihr =>
      obtain ⟨hl, rfl, hr⟩ := forall_connectives_join.1 h
      rw [formula, Formula.holds, ihl hl, ihr hr, operands, List.any_append]
      rfl

/-- The number of true operands and equalities of a chain. -/
def parityCount (valuation : String → Bool) (b : Bracketing) : Nat :=
  b.operands.countP (Formula.holds valuation) + b.connectives.count .equals

/-- What a parity connective says of two truth values, given as parities. -/
theorem apply_parity {op : Connective} (hop : op ∈ parityConnectives) {x y : Bool} {m n : Nat}
    (hx : x = true ↔ Odd m) (hy : y = true ↔ Odd n) :
    op.apply x y = true ↔ Odd (m + n + if op = .equals then 1 else 0) := by
  rw [Nat.odd_iff] at hx hy ⊢
  simp only [parityConnectives, List.mem_cons, List.not_mem_nil, or_false] at hop
  rcases hop with rfl | rfl | rfl <;> cases x <;> cases y <;>
    simp [Connective.apply] at hx hy ⊢ <;> omega

/-- A chain of parity connectives is true exactly if the number of its true operands and equalities
is odd. By induction on the parentheses: the numbers of both sides are added, and an equality counts
one more. -/
theorem holds_parity (h : ∀ op ∈ b.connectives, op ∈ parityConnectives) :
    b.formula.holds valuation = true ↔ Odd (b.parityCount valuation) := by
  induction b with
  | operand f =>
      simp only [formula, parityCount, operands, connectives, List.count_nil, Nat.add_zero]
      cases hf : f.holds valuation <;> simp [hf]
  | join op left right ihl ihr =>
      obtain ⟨hl, hop, hr⟩ := forall_connectives_join.1 h
      have hcount : (join op left right).parityCount valuation =
          left.parityCount valuation + right.parityCount valuation +
            if op = .equals then 1 else 0 := by
        simp only [parityCount, operands, connectives, List.countP_append, List.count_append,
          List.count_cons, beq_iff_eq]
        omega
      rw [formula, Formula.holds, hcount]
      exact apply_parity hop (ihl hl) (ihr hr)

/-- The value of a chain of one of the associative sets is decided by its operands and its
connectives. -/
theorem holds_eq {set : List Connective} (hset : set ∈ associativeSets)
    (hops : ∀ op ∈ b.connectives, op ∈ set) (hconnectives : b'.connectives = b.connectives)
    (hoperands : b'.operands = b.operands) :
    b'.formula.holds valuation = b.formula.holds valuation := by
  simp only [associativeSets, List.mem_cons, List.not_mem_nil, or_false] at hset
  rcases hset with rfl | rfl | rfl
  · have hand : ∀ op ∈ b.connectives, op = .and := fun op hop => List.mem_singleton.1 (hops op hop)
    rw [holds_and hand, holds_and (hconnectives ▸ hand), hoperands]
  · have hor : ∀ op ∈ b.connectives, op = .or := fun op hop => List.mem_singleton.1 (hops op hop)
    rw [holds_or hor, holds_or (hconnectives ▸ hor), hoperands]
  · rw [Bool.eq_iff_iff, holds_parity hops, holds_parity (hconnectives ▸ hops), parityCount,
      hoperands, hconnectives, parityCount]

/-! ## The evaluation of a chain -/

variable {a : Assignment}

/-- Chains with the same operands and connectives are evaluated alike. -/
theorem evaluate_eq {set : List Connective} (hset : set ∈ associativeSets)
    (hops : ∀ op ∈ b.connectives, op ∈ set) (hconnectives : b'.connectives = b.connectives)
    (hoperands : b'.operands = b.operands) (hdepth : b.formula.height ≤ walkLimit)
    (hdepth' : b'.formula.height ≤ walkLimit) :
    b'.formula.evaluate a = b.formula.evaluate a := by
  -- the names stand in the same order, so that the same one is missed first
  rw [Formula.evaluate_eq_match hdepth', Formula.evaluate_eq_match hdepth, names_formula, hoperands,
    ← names_formula, holds_eq hset hops hconnectives hoperands]

/-- The operands of a chain that has a value have values of their own. -/
theorem countP_evaluate (hdepth : b.formula.height ≤ walkLimit)
    (hcovers : a.Covers b.formula.names) :
    b.operands.countP (fun f => f.evaluate a = .ok true) =
      b.operands.countP (Formula.holds a.valuation) := by
  apply List.countP_congr
  intro f hf
  have hnames : a.Covers f.names := by
    intro name hname
    apply hcovers name
    rw [names_formula]
    exact List.mem_flatMap_of_mem hf hname
  rw [decide_eq_true_iff,
    Formula.evaluate_of_covers (Nat.le_trans (height_le_of_mem_operands hf) hdepth) hnames,
    Except.ok.injEq]

end Bracketing

/-- Parentheses make no difference to the evaluation of a chain of conjunctions, of disjunctions, or
of equalities, inequalities and exclusive disjunctions in any mixture. Two ways to put them, neither
of which is too deep, have the same outcome under every assignment, which is a value or the first
name without one. The tree that nests to the right, as the parser builds it, is one of these ways. A
mixed chain is true exactly if the number of its true operands and equalities is odd. -/
theorem evaluate_bracketing {set : List Connective} (hset : set ∈ associativeSets)
    {b b' : Bracketing} (hops : ∀ op ∈ b.connectives, op ∈ set)
    (hconnectives : b'.connectives = b.connectives) (hoperands : b'.operands = b.operands)
    (hdepth : b.formula.height ≤ walkLimit) (hdepth' : b'.formula.height ≤ walkLimit)
    (a : Assignment) :
    b'.formula.evaluate a = b.formula.evaluate a ∧
      ((∃ value, b.formula.evaluate a = .ok value) ∨
        ∃ name, b.formula.evaluate a = .error (.unbound name)) ∧
      (∀ (lefts : List (Connective × Formula)) (last : Formula),
        lefts.map Prod.fst = b.connectives → lefts.map Prod.snd ++ [last] = b.operands →
        (chainTree lefts last).height ≤ walkLimit →
        (chainTree lefts last).evaluate a = b.formula.evaluate a) ∧
      (set = parityConnectives → ∀ value, b.formula.evaluate a = .ok value →
        (value = true ↔
          Odd (b.operands.countP (fun f => f.evaluate a = .ok true) +
            b.connectives.count .equals))) := by
  refine ⟨Bracketing.evaluate_eq hset hops hconnectives hoperands hdepth hdepth', ?_, ?_, ?_⟩
  · rw [Formula.evaluate_eq_match hdepth]
    cases a.firstUnbound? b.formula.names with
    | some name => exact Or.inr ⟨name, rfl⟩
    | none => exact Or.inl ⟨_, rfl⟩
  · intro lefts last hfst hsnd hheight
    rw [← Bracketing.formula_rightNested] at hheight ⊢
    rw [← Bracketing.connectives_rightNested lefts last] at hfst
    rw [← Bracketing.operands_rightNested] at hsnd
    exact Bracketing.evaluate_eq hset hops hfst hsnd hdepth hheight
  · rintro rfl value hvalue
    rw [Formula.evaluate_eq_match hdepth] at hvalue
    cases hfirst : a.firstUnbound? b.formula.names with
    | some name =>
        rw [hfirst] at hvalue
        cases hvalue
    | none =>
        rw [hfirst] at hvalue
        obtain rfl := Except.ok.inj hvalue
        have hcovers := Assignment.firstUnbound?_eq_none_iff.1 hfirst
        rw [Bracketing.countP_evaluate hdepth hcovers]
        exact Bracketing.holds_parity hops

/-- The chain p = ¬q ≠ r in both ways. Two of its operands are true and one of its connectives is an
equality, so that it is true; with no value for q it has none either, whatever the parentheses. -/
theorem evaluate_bracketing_mixed :
    let toRight : Bracketing :=
      .join .equals (.operand (.var "p"))
        (.join .notEquals (.operand (.neg (.var "q"))) (.operand (.var "r")))
    let toLeft : Bracketing :=
      .join .notEquals (.join .equals (.operand (.var "p")) (.operand (.neg (.var "q"))))
        (.operand (.var "r"))
    let a : Assignment := ⟨[("p", true), ("q", false), ("r", false)]⟩
    let partialValues : Assignment := ⟨[("p", true)]⟩
    parityConnectives ∈ associativeSets ∧ (∀ op ∈ toRight.connectives, op ∈ parityConnectives) ∧
      toLeft.connectives = toRight.connectives ∧ toLeft.operands = toRight.operands ∧
      toRight.formula.height ≤ walkLimit ∧ toLeft.formula.height ≤ walkLimit ∧
      toLeft.formula ≠ toRight.formula ∧
      toLeft.formula.evaluate a = .ok true ∧
      Odd (toRight.operands.countP (fun f => f.evaluate a = .ok true) +
        toRight.connectives.count .equals) ∧
      toLeft.formula.evaluate partialValues = .error (.unbound "q") := by
  intro toRight toLeft a partialValues
  have hset : parityConnectives ∈ associativeSets := by decide
  have hops : ∀ op ∈ toRight.connectives, op ∈ parityConnectives := by decide
  have hconnectives : toLeft.connectives = toRight.connectives := by decide
  have hoperands : toLeft.operands = toRight.operands := by decide
  have hright : toRight.formula.height ≤ walkLimit := by decide
  have hleft : toLeft.formula.height ≤ walkLimit := by decide
  have hvalue : toRight.formula.evaluate a = .ok true := by decide +kernel
  have hmissing : toRight.formula.evaluate partialValues = .error (.unbound "q") := by
    decide +kernel
  obtain ⟨hsame, -, -, hodd⟩ :=
    evaluate_bracketing hset hops hconnectives hoperands hright hleft a
  obtain ⟨hsamePartial, -⟩ :=
    evaluate_bracketing hset hops hconnectives hoperands hright hleft partialValues
  exact ⟨hset, hops, hconnectives, hoperands, hright, hleft, by decide, hsame.trans hvalue,
    (hodd rfl true hvalue).1 rfl, hsamePartial.trans hmissing⟩

end Sentential
