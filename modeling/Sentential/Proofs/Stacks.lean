import Sentential.Proofs.Answers
import Sentential.Proofs.Denotation
import Sentential.Proofs.Exhaustion

/-!
# Answers on different stacks

With less room on the stack a line is answered as it is with more, unless the room runs out
(`answerLine_settles`): an exhausted stack replaces an answer and never alters it. So the answer in
a run, which has been called, is the one outside of the run or exhaustion, and so is the answer
while the events of the reading are written. If every window that is entered while a text is read
leaves room for a record, writing the records makes no difference (`parseOn_eq_of_room`).
-/

namespace Sentential

/-- The line is nested too deeply for the stack. -/
def LineFault.IsExhausted : LineFault → Prop
  | .parse (.tooDeep _) => True
  | .evaluation (.tooDeep _) => True
  | _ => False

/-- The line is nested too deeply to be read. -/
def LineFault.IsUnread : LineFault → Prop
  | .parse (.tooDeep _) => True
  | _ => False

namespace Stack

/-- What fits onto the first stack fits onto the second, be it nesting or a record. -/
def FitsInto (s s' : Stack) : Prop := s.budget.FitsInto s.recordCost s'.recordCost s'.budget

variable {s s' : Stack}

theorem enter_fitsInto (s : Stack) : s.enter.FitsInto s := by
  have hle : s.frames - 1 ≤ s.frames := Nat.sub_le s.frames 1
  exact ⟨hle, Nat.add_le_add_right hle s.recordCost⟩

/-- On stacks of one size the one with the cheaper records has more room. -/
theorem fitsInto_of_frames_eq (hframes : s.frames = s'.frames)
    (hcost : s'.recordCost ≤ s.recordCost) : s.FitsInto s' :=
  ⟨Nat.le_of_eq hframes, Nat.add_le_add (Nat.le_of_eq hframes) hcost⟩

theorem FitsInto.walkLimit_le (h : s.FitsInto s') : s.walkLimit ≤ s'.walkLimit := by
  have hle : s.frames ≤ s'.frames := h.1
  exact Nat.div_le_div_right (Nat.add_le_add_right hle 5)

end Stack

/-! ## Evaluation within a smaller and a larger height -/

namespace Formula

variable {f : Formula} {a : Assignment} {limit limit' : Nat}

/-- With a smaller limit an evaluation is too deep, or it is the one with the larger limit. By
induction on the formula, whose operands are evaluated one after the other. -/
theorem evaluateWithin_settles (hle : limit ≤ limit') (f : Formula) (a : Assignment) :
    f.evaluateWithin limit a = .error (.tooDeep .evaluate) ∨
      f.evaluateWithin limit a = f.evaluateWithin limit' a := by
  induction f generalizing limit limit' with
  | const value =>
      right
      rw [evaluateWithin, evaluateWithin]
  | var name =>
      right
      rw [evaluateWithin, evaluateWithin]
  | neg operand ih =>
      cases limit with
      | zero => exact Or.inl rfl
      | succ rest =>
          obtain ⟨rest', rfl⟩ := Nat.exists_eq_add_of_lt hle
          rw [evaluateWithin, evaluateWithin]
          rcases ih (Nat.le_add_right rest rest') with hdeep | heq
          · left
            rw [hdeep]
            rfl
          · right
            rw [heq]
  | binary op left right ihl ihr =>
      cases limit with
      | zero => exact Or.inl rfl
      | succ rest =>
          obtain ⟨rest', rfl⟩ := Nat.exists_eq_add_of_lt hle
          rw [evaluateWithin, evaluateWithin]
          rcases ihl (Nat.le_add_right rest rest') with hdeep | heq
          · left
            rw [hdeep]
            rfl
          rw [heq]
          cases left.evaluateWithin (rest + rest') a with
          | error fault => exact Or.inr rfl
          | ok x =>
              rcases ihr (Nat.le_add_right rest rest') with hdeep | heq
              · left
                rw [hdeep]
                rfl
              · right
                rw [heq]

/-- A formula that both limits allow is evaluated alike within them. -/
theorem evaluateWithin_eq (h : f.height ≤ limit) (h' : f.height ≤ limit') (a : Assignment) :
    f.evaluateWithin limit a = f.evaluateWithin limit' a := by
  cases hfirst : a.firstUnbound? f.names with
  | some name =>
      rw [evaluateWithin_of_unbound h hfirst, evaluateWithin_of_unbound h' hfirst]
  | none =>
      have hcovers := Assignment.firstUnbound?_eq_none_iff.1 hfirst
      rw [evaluateWithin_of_follows h hcovers.follows,
        evaluateWithin_of_follows h' hcovers.follows]

end Formula

theorem ofFormulaWithin_settles {walk walk' : Nat} (hle : walk ≤ walk') (f : Formula)
    (limit : Int) :
    (TruthTable.ofFormulaWithin walk f limit).Settles (· = .tooDeep .traverse)
      (TruthTable.ofFormulaWithin walk' f limit) := by
  by_cases hdepth : f.height ≤ walk
  · right
    have hdepth' := Nat.le_trans hdepth hle
    have hrow : TruthTable.rowWithin walk f = TruthTable.rowWithin walk' f := by
      funext a
      rw [TruthTable.rowWithin, Formula.evaluateWithin_eq hdepth hdepth', TruthTable.rowWithin]
    rw [TruthTable.ofFormulaWithin, TruthTable.ofFormulaWithin, Formula.boundedNamesWithin,
      Formula.boundedNamesWithin, if_pos hdepth, if_pos hdepth', hrow]
  · left
    refine ⟨_, rfl, ?_⟩
    rw [TruthTable.result_ofFormulaWithin, if_neg hdepth]

/-! ## Answers with less and with more room -/

section Settles

variable {config : Config} {stack stack' : Stack}

theorem announce_settles {P : ParseFault → Prop} {x y : Traced ParseFault Formula}
    (h : x.Settles P y) (s : String) : (announce s x).Settles P (announce s y) := by
  rcases h with ⟨fault, hfault, hx⟩ | rfl
  · exact Or.inl ⟨fault, hfault, hx⟩
  · exact Traced.Settles.refl _

theorem parseOn_settles (h : stack.FitsInto stack') (s : String) :
    (Formula.parseOn stack s).Settles (· = .tooDeep s.length) (Formula.parseOn stack' s) := by
  have hread := parseWindowAt_settles (Source.ofString s) (Source.ofString s).whole h
  rw [Source.size_ofString] at hread
  exact announce_settles hread s

theorem printFormula_settles (hle : stack.walkLimit ≤ stack'.walkLimit) (config : Config)
    (normalized : String) (f : Formula) :
    (printFormula config stack normalized f).Settles LineFault.IsExhausted
      (printFormula config stack' normalized f) := by
  rw [printFormula, printFormula]
  split
  · have hvalue : (Traced.ofExcept (f.evaluateWithin stack.walkLimit ⟨[]⟩)).Settles
        (· = .tooDeep .evaluate) (.ofExcept (f.evaluateWithin stack'.walkLimit ⟨[]⟩)) := by
      rcases Formula.evaluateWithin_settles hle f ⟨[]⟩ with hdeep | heq
      · exact Or.inl ⟨_, rfl, hdeep⟩
      · right
        rw [heq]
    refine (hvalue.mapFault ?_).bind fun value => Traced.Settles.refl _
    rintro fault rfl
    trivial
  · have htable := ofFormulaWithin_settles hle f config.maxVariables
    refine (htable.mapFault ?_).bind fun table => Traced.Settles.refl _
    rintro fault rfl
    trivial

/-- What settles the printing of a formula, and the reading of a text that is nested too deeply,
settles the answer to a line. -/
theorem answerLine_settles_of {P : LineFault → Prop} (h : stack.FitsInto stack')
    (hread : ∀ length, P (.parse (.tooDeep length)))
    (hprint : ∀ normalized f, (printFormula config stack normalized f).Settles P
      (printFormula config stack' normalized f)) (number : Int) (raw : String) :
    (answerLine config stack number raw).Settles P (answerLine config stack' number raw) := by
  rw [answerLine, answerLine]
  refine (Traced.Settles.refl _).bind fun normalized => ?_
  refine (Traced.Settles.refl _).bind fun _ => ?_
  refine ((parseOn_settles h normalized).mapFault ?_).bind fun f => ?_
  · rintro fault rfl
    exact hread normalized.length
  · exact hprint normalized f

/-- With less room on the stack a line is nested too deeply, or it is answered in the same way. -/
theorem answerLine_settles (h : stack.FitsInto stack') (config : Config) (number : Int)
    (raw : String) :
    (answerLine config stack number raw).Settles LineFault.IsExhausted
      (answerLine config stack' number raw) :=
  answerLine_settles_of h (fun _ => trivial) (printFormula_settles h.walkLimit_le config) number raw

/-- On stacks of one size formulas are printed alike, so only the reading of a line can run out of
room. -/
theorem answerLine_settles_of_frames_eq (hframes : stack.frames = stack'.frames)
    (hcost : stack'.recordCost ≤ stack.recordCost) (config : Config) (number : Int)
    (raw : String) :
    (answerLine config stack number raw).Settles LineFault.IsUnread
      (answerLine config stack' number raw) := by
  have hfits := Stack.fitsInto_of_frames_eq hframes hcost
  apply answerLine_settles_of hfits fun _ => trivial
  intro normalized f
  right
  rw [printFormula, printFormula, Stack.walkLimit, Stack.walkLimit, hframes]

end Settles

/-! ## Room for records -/

variable {stack : Stack} {s : String}

/-- What is read within an amount of nesting is read alike on a stack that has room for this amount
and a record. -/
theorem parseWithin_settles {amount : Nat} (h : amount + stack.recordCost ≤ stack.frames)
    (s : String) :
    (Formula.parseWithin (some amount) s).Settles (· = .tooDeep s.length)
      (Formula.parseOn stack s) := by
  let less : Stack := ⟨amount, 0⟩
  have hfits : less.FitsInto stack := ⟨Nat.le_of_add_right_le h, h⟩
  have hsettles := parseOn_settles hfits s
  rwa [Formula.parseOn_of_recordCost_eq_zero rfl] at hsettles

/-- Every window that is entered while the text is read leaves room for a record on the stack. -/
def Stack.HasRoomFor (stack : Stack) (s : String) : Prop :=
  ∀ cost v, (Source.ofString s).Reaches (Source.ofString s).whole cost v →
    cost + stack.recordCost ≤ stack.frames

/-- If there is room for the records, a text is read as it is without writing them. -/
theorem parseOn_eq_of_room (h : stack.HasRoomFor s) :
    Formula.parseOn stack s = Formula.parseWithin stack.budget s := by
  have hroom : stack.frames - stack.recordCost + stack.recordCost ≤ stack.frames := by
    have hhere := h 0 _ .here
    omega
  -- the text is read within the room that the records leave, and so it is read alike with more room
  have hnot : ∀ fault : ParseFault, fault = .tooDeep s.length →
      (Formula.parseWithin (some (stack.frames - stack.recordCost)) s).result ≠ .error fault := by
    rintro fault rfl hdeep
    rw [Formula.result_parseWithin, ← Source.size_ofString] at hdeep
    obtain ⟨cost, v, hreaches, hnot⟩ := Source.uncovered_of_read hdeep
    exact hnot (Nat.le_sub_of_add_le (h cost v hreaches))
  let free : Stack := ⟨stack.frames, 0⟩
  have hfree : stack.frames - stack.recordCost + free.recordCost ≤ free.frames :=
    Nat.sub_le stack.frames stack.recordCost
  rw [← (parseWithin_settles hroom s).eq_of_not hnot, (parseWithin_settles hfree s).eq_of_not hnot,
    Formula.parseOn_of_recordCost_eq_zero rfl]
  rfl

end Sentential
