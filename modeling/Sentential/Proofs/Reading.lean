import Sentential.Formula.Parser
import Sentential.Proofs.Shape

/-!
# Results of reading

`Source.read` is the result of reading a window, without the events. `read_eq` tells it shape by
shape. The chain shape reads its left operands first and folds afterwards; `readChain` reads one
operand after the other and builds the tree on the way, and both give the same result
(`result_chain`).

`Budget.outcome` is the result of a reading that fails by its nesting alone. It composes along the
parts of a formula: `enter_outcome`, `readPart_outcome` and `bind_outcome`.
-/

namespace Sentential

/-- The result of reading a window. -/
def Source.read (text : Source) (budget : Budget) (w : Window) : Except ParseFault Formula :=
  (parseWindow text budget w).result

/-- The result of reading a part of a source at a cost. -/
def Source.enter (text : Source) (budget : Budget) (cost : Nat) (w : Window) :
    Except ParseFault Formula :=
  match budget.spend? cost with
  | some left => text.read left w
  | none => .error (.tooDeep text.size)

/-- The result of reading an operand at a cost. -/
def Source.readPart (text : Source) (budget : Budget) (cost : Nat) (o : Operand) :
    Except ParseFault Formula :=
  (text.enter budget cost o.window).mapError (o.attribute text)

/-- The operand before a split; it begins at `start`. -/
def leftOperand (core : Window) (start : Nat) (s : Split) : Operand :=
  ⟨⟨start, s.position⟩, .binary s.op, .left, ⟨start, core.stop⟩⟩

/-- The operand after a split that is the last one; the operand before the split begins at
`start`. -/
def lastOperand (core : Window) (start : Nat) (s : Split) : Operand :=
  ⟨⟨s.position + 1, core.stop⟩, .binary s.op, .right, ⟨start, core.stop⟩⟩

/-- Reads a chain operand by operand; the operand before the split `s` begins at `start`. -/
def Source.readChain (text : Source) (budget : Budget) (core : Window) (start : Nat) (s : Split) :
    List Split → Except ParseFault Formula
  | [] => do
      let left ← text.readPart budget chainCost (leftOperand core start s)
      let right ← text.readPart budget chainCost (lastOperand core start s)
      pure (.binary s.op left right)
  | t :: rest => do
      let left ← text.readPart budget chainCost (leftOperand core start s)
      let right ← text.readChain budget core (s.position + 1) t rest
      pure (.binary s.op left right)

/-! ## Computations that may fail -/

theorem Except.bind_eq_ok_iff {ε α β : Type} {x : Except ε α} {f : α → Except ε β} {b : β} :
    x >>= f = .ok b ↔ ∃ a, x = .ok a ∧ f a = .ok b := by
  cases x with
  | error fault =>
      constructor
      · intro h
        cases h
      · rintro ⟨a, ha, -⟩
        cases ha
  | ok a =>
      constructor
      · intro h
        exact ⟨a, rfl, h⟩
      · rintro ⟨a', ha, hf⟩
        cases ha
        exact hf

theorem Except.bind_eq_error_iff {ε α β : Type} {x : Except ε α} {f : α → Except ε β} {e : ε} :
    x >>= f = .error e ↔ x = .error e ∨ ∃ a, x = .ok a ∧ f a = .error e := by
  cases x with
  | error fault =>
      constructor
      · intro h
        cases h
        exact Or.inl rfl
      · rintro (h | ⟨a, ha, -⟩)
        · cases h
          rfl
        · cases ha
  | ok a =>
      constructor
      · intro h
        exact Or.inr ⟨a, rfl, h⟩
      · rintro (h | ⟨a', ha, hf⟩)
        · cases h
        · cases ha
          exact hf

theorem Except.mapError_eq_error_iff {ε δ α : Type} {f : ε → δ} {x : Except ε α} {d : δ} :
    x.mapError f = .error d ↔ ∃ e, x = .error e ∧ f e = d := by
  cases x with
  | error fault => simp [Except.mapError]
  | ok a => simp [Except.mapError]

theorem Except.mapError_eq_ok_iff {ε δ α : Type} {f : ε → δ} {x : Except ε α} {a : α} :
    x.mapError f = .ok a ↔ x = .ok a := by
  cases x with
  | error fault =>
      constructor
      · intro h
        cases h
      · intro h
        cases h
  | ok b => exact Iff.of_eq (by simp [Except.mapError])

theorem Except.mapError_bind {ε δ α β : Type} (g : ε → δ) (x : Except ε α) (f : α → Except ε β) :
    (x >>= f).mapError g = x.mapError g >>= fun a => (f a).mapError g := by
  cases x with
  | error fault => rfl
  | ok a => rfl

theorem Except.map_eq_ok_iff {ε α β : Type} {f : α → β} {x : Except ε α} {b : β} :
    x.map f = .ok b ↔ ∃ a, x = .ok a ∧ f a = b := by
  cases x with
  | error fault =>
      constructor
      · intro h
        cases h
      · rintro ⟨a, ha, -⟩
        cases ha
  | ok a => simp [Except.map]

/-! ## Reading, shape by shape -/

variable (text : Source) (budget : Budget)

theorem result_descend (cost : Nat) (w : Window) :
    (descend text.size budget cost fun left => parseWindow text left w).result =
      text.enter budget cost w := by
  rw [descend, Source.enter]
  cases budget.spend? cost with
  | some left => rfl
  | none => rfl

theorem result_readOperand (cost : Nat) (o : Operand) :
    (readOperand text budget cost o).result = text.readPart budget cost o := by
  rw [readOperand, readOperandAt, Traced.result_mapFault]
  exact congrArg (Except.mapError (o.attribute text)) (result_descend text budget cost o.window)

theorem result_readLefts (operands : List (Connective × Operand)) :
    (readLefts text budget operands).result =
      operands.mapM (fun p => do
        let f ← text.readPart budget chainCost p.2
        pure (p.1, f)) := by
  have hread (o : Operand) : (readOperandAt 0 text budget chainCost o).result =
      text.readPart budget chainCost o := result_readOperand text budget chainCost o
  rw [readLefts, readLeftsAt, Traced.result_mapM]
  simp only [Traced.result_bind, hread, Traced.result_pure]
  rfl

/-- Reading all left operands first gives the same result as reading operand by operand. -/
theorem result_chain (core : Window) (start : Nat) (s : Split) (rest : List Split) :
    (do
      let lefts ← (readLefts text budget (leftOperands core start (s :: rest))).result
      let last ← (readOperand text budget chainCost (rightOperand core start s rest)).result
      pure (chainTree lefts last)) = text.readChain budget core start s rest := by
  rw [result_readLefts, result_readOperand]
  -- the fold over the left operands is unrolled at its front, one split at a time
  induction rest generalizing start s with
  | nil =>
      simp only [leftOperands, rightOperand, List.mapM_cons, List.mapM_nil, bind_assoc, pure_bind,
        Source.readChain, chainTree, List.foldr_cons, List.foldr_nil]
      rfl
  | cons t rest ih =>
      rw [Source.readChain, ← ih]
      simp only [leftOperands, rightOperand, List.mapM_cons, bind_assoc, pure_bind, chainTree,
        List.foldr_cons]
      rfl

/-- The result of reading a window, shape by shape. -/
theorem Source.read_eq (w : Window) :
    text.read budget w =
      match text.shape w with
      | .unbalanced fault => .error (.unbalanced fault)
      | .blank => .error (.malformed .emptyOperand (text.fragment w))
      | .group inner => text.enter budget groupCost inner
      | .chain core first rest => text.readChain budget core core.start first rest
      | .negation core => (text.readPart budget negationCost (negatedOperand core)).map .neg
      | .buriedNegation core => .error (.malformed .textBeforeNegation (text.fragment core))
      | .leaf core =>
          match leaf (text.slice core) with
          | .ok f => .ok f
          | .error defect => .error (.malformed defect (text.fragment core)) := by
  rw [Source.read, parseWindow_eq]
  cases text.shape w with
  | unbalanced fault => rfl
  | blank => rfl
  | group inner => exact result_descend text budget groupCost inner
  | chain core first rest =>
      simp only [Traced.result_bind, Traced.result_noteAll, Traced.result_note, Traced.result_pure]
      exact result_chain text budget core core.start first rest
  | negation core =>
      simp only [Traced.result_bind, Traced.result_noteAll, Traced.result_pure, result_readOperand]
      cases text.readPart budget negationCost (negatedOperand core) with
      | ok f => rfl
      | error fault => rfl
  | buriedNegation core => rfl
  | leaf core =>
      simp only [Traced.result_bind, Traced.result_noteAll, readLeaf]
      cases leaf (text.slice core) with
      | ok f => rfl
      | error defect => rfl

theorem Formula.result_parseWithin (s : String) :
    (Formula.parseWithin budget s).result =
      (Source.ofString s).read budget (Source.ofString s).whole := rfl

/-! ## Successful parts -/

variable {text budget}

theorem Source.exists_read_of_enter {cost : Nat} {w : Window} {f : Formula}
    (h : text.enter budget cost w = .ok f) : ∃ left, text.read left w = .ok f := by
  rw [Source.enter] at h
  split at h
  next left _ => exact ⟨left, h⟩
  next => cases h

theorem Source.exists_read_of_readPart {cost : Nat} {o : Operand} {f : Formula}
    (h : text.readPart budget cost o = .ok f) : ∃ left, text.read left o.window = .ok f :=
  Source.exists_read_of_enter (Except.mapError_eq_ok_iff.1 h)

/-! ## Failure by nesting alone -/

/-- The budget allows the nesting. -/
def Budget.Covers : Budget → Nat → Prop
  | none, _ => True
  | some left, nesting => nesting ≤ left

instance (budget : Budget) (nesting : Nat) : Decidable (budget.Covers nesting) :=
  match budget with
  | none => inferInstanceAs (Decidable True)
  | some left => inferInstanceAs (Decidable (nesting ≤ left))

/-- The formula, if the budget allows its nesting. -/
def Budget.outcome (budget : Budget) (length nesting : Nat) (f : Formula) :
    Except ParseFault Formula :=
  if budget.Covers nesting then .ok f else .error (.tooDeep length)

theorem Budget.covers_zero (budget : Budget) : budget.Covers 0 := by
  cases budget with
  | none => exact trivial
  | some left => exact Nat.zero_le left

theorem Budget.covers_max_iff {budget : Budget} {m n : Nat} :
    budget.Covers (max m n) ↔ budget.Covers m ∧ budget.Covers n := by
  cases budget with
  | none => exact ⟨fun _ => ⟨trivial, trivial⟩, fun _ => trivial⟩
  | some left => exact Nat.max_le

theorem Budget.Covers.mono {budget : Budget} {m n : Nat} (h : budget.Covers n) (hle : m ≤ n) :
    budget.Covers m := by
  cases budget with
  | none => exact trivial
  | some amount => exact Nat.le_trans hle h

/-- A formula is an outcome only if the budget allows the nesting. -/
theorem Budget.covers_of_outcome {budget : Budget} {length nesting : Nat} {f g : Formula}
    (h : budget.outcome length nesting f = .ok g) : budget.Covers nesting := by
  rw [Budget.outcome] at h
  split at h
  next hcovers => exact hcovers
  next => cases h

/-- What is left after a cost covers what the budget covers beyond that cost. -/
theorem Budget.covers_iff_of_spend {budget left : Budget} {cost : Nat}
    (h : budget.spend? cost = some left) (nesting : Nat) :
    left.Covers nesting ↔ budget.Covers (cost + nesting) := by
  cases budget with
  | none =>
      cases h
      exact Iff.rfl
  | some amount =>
      rw [Budget.spend?] at h
      split at h
      next hcost =>
        cases h
        simp only [Budget.Covers]
        omega
      next => cases h

/-- A budget that a cost exceeds covers nothing that includes this cost. -/
theorem Budget.not_covers_of_spend {budget : Budget} {cost : Nat} (h : budget.spend? cost = none)
    (nesting : Nat) : ¬budget.Covers (cost + nesting) := by
  cases budget with
  | none => cases h
  | some amount =>
      rw [Budget.spend?] at h
      split at h
      next => cases h
      next hcost =>
        simp only [Budget.Covers]
        omega

/-- What is left after a cost allows the rest of the nesting exactly if the budget allows it all. -/
theorem Source.enter_outcome {cost nesting : Nat} {w : Window} {f : Formula}
    (h : ∀ left : Budget, text.read left w = left.outcome text.size nesting f) :
    text.enter budget cost w = budget.outcome text.size (cost + nesting) f := by
  rw [Source.enter]
  cases hspend : budget.spend? cost with
  | some left =>
      simp only [h, Budget.outcome, Budget.covers_iff_of_spend hspend]
  | none =>
      rw [Budget.outcome, if_neg (Budget.not_covers_of_spend hspend nesting)]

theorem Source.readPart_outcome {cost nesting : Nat} {o : Operand} {f : Formula}
    (h : ∀ left : Budget, text.read left o.window = left.outcome text.size nesting f) :
    text.readPart budget cost o = budget.outcome text.size (cost + nesting) f := by
  rw [Source.readPart, Source.enter_outcome h, Budget.outcome]
  split <;> rfl

theorem Budget.bind_outcome {length m n : Nat} {op : Connective} {f g : Formula}
    {x y : Except ParseFault Formula} (hx : x = budget.outcome length m f)
    (hy : y = budget.outcome length n g) :
    (do
      let left ← x
      let right ← y
      pure (Formula.binary op left right)) =
      budget.outcome length (max m n) (.binary op f g) := by
  rw [hx, hy]
  simp only [Budget.outcome, Budget.covers_max_iff]
  by_cases hm : budget.Covers m
  · by_cases hn : budget.Covers n
    · rw [if_pos hm, if_pos hn, if_pos ⟨hm, hn⟩]
      rfl
    · have hnot : ¬(budget.Covers m ∧ budget.Covers n) := fun h => hn h.2
      rw [if_pos hm, if_neg hn, if_neg hnot]
      rfl
  · have hnot : ¬(budget.Covers m ∧ budget.Covers n) := fun h => hm h.1
    rw [if_neg hm, if_neg hnot]
    rfl

end Sentential
