import Sentential.Proofs.Answers
import Sentential.Proofs.Normalizing
import Sentential.Proofs.Shape

/-!
# Nested groups

Every pair of parentheses around a text takes the same room on the stack (`parseWindowAt_nested`).
So the text of two groups side by side can be put as deep as the stack allows. Its outer parentheses
are no pair, which is reported before the text is rejected; whether it is rejected for what it says
or as nested too deeply depends on the cost of this record (`result_parseOn_nested`).
-/

namespace Sentential

open Text

/-- A text between pairs of parentheses. -/
def nested : Nat → List Char → List Char
  | 0, cs => cs
  | k + 1, cs => openParen :: nested k cs ++ [closeParen]

section Nested

variable {cs : List Char}

theorem length_nested (k : Nat) (cs : List Char) : (nested k cs).length = 2 * k + cs.length := by
  induction k with
  | zero => rw [nested, Nat.mul_zero, Nat.zero_add]
  | succ k ih =>
      rw [nested, List.length_append, List.length_cons, List.length_singleton, ih]
      omega

theorem balanced_nested (h : Balanced cs) (k : Nat) : Balanced (nested k cs) := by
  induction k with
  | zero => exact h
  | succ k ih => exact ih.group

theorem solid_nested (h : Solid cs) (k : Nat) : Solid (nested k cs) := by
  induction k with
  | zero => exact h
  | succ k ih => exact Solid.parens ih.paired

theorem isNormal_nested (h : Solid cs) (hnormal : IsNormal cs) (k : Nat) :
    IsNormal (nested k cs) := by
  induction k with
  | zero => exact hnormal
  | succ k ih =>
      rw [IsNormal, nested, List.cons_append, normalChars_open,
        normalChars_append_close (solid_nested h k).paired, ih]

/-- Inside of `k` groups there is the room that they leave, by induction on `k`. -/
theorem parseWindowAt_nested {text : Source} (recordCost left : Nat) (hbal : Balanced cs) (k : Nat)
    {w : Window} (h : text.Holds w (nested k cs)) :
    ∃ v, text.Holds v cs ∧
      parseWindowAt recordCost text (some (groupCost * k + left)) w =
        parseWindowAt recordCost text (some left) v := by
  induction k generalizing w with
  | zero =>
      refine ⟨w, h, ?_⟩
      rw [Nat.mul_zero, Nat.zero_add]
  | succ k ih =>
      have htrim : trim (nested (k + 1) cs) = openParen :: nested k cs ++ [closeParen] :=
        trim_of_trimmed (trimmed_between isBlank_openParen isBlank_closeParen _)
      have hinside : text.Holds (Source.inside (text.core w)) (nested k cs) := by
        have hcore := h.core
        rw [htrim] at hcore
        exact hcore.inside
      have hspend : Budget.spend? (some (groupCost * (k + 1) + left)) groupCost =
          some (some (groupCost * k + left)) := by
        rw [Nat.mul_succ, Nat.add_right_comm, Budget.spend?, if_pos (Nat.le_add_left _ _),
          Nat.add_sub_cancel]
      obtain ⟨v, hv, hread⟩ := ih hinside
      refine ⟨v, hv, ?_⟩
      rw [parseWindowAt_eq, shape_eq_group h htrim (balanced_nested hbal k)]
      dsimp only
      rw [descend, hspend]
      exact hread

end Nested

/-! ## Two groups side by side -/

/-- Two groups side by side, whose outer parentheses are no pair. -/
def sideBySide : List Char := "(p)(q)".toList

theorem balanced_sideBySide : Balanced sideBySide := by decide

theorem solid_sideBySide : Solid sideBySide where
  nonempty := by decide
  trimmed := trimmed_between isBlank_openParen isBlank_closeParen "p)(q".toList
  paired := quotesPaired_of_not_mem (by decide)

theorem isNormal_sideBySide : IsNormal sideBySide := by
  rw [IsNormal]
  decide +kernel

section Reading

variable {text : Source} {w : Window}

/-- The outer parentheses of a window are kept if they are no pair. -/
theorem keepsOuterParens_of_not_balanced {inner : List Char}
    (h : text.Holds w (openParen :: inner ++ [closeParen])) (hinner : ¬Balanced inner) :
    text.keepsOuterParens w = true := by
  have hcheck : (text.checkWindow (Source.inside w)).isOk = false := by
    rw [Source.checkWindow, h.inside.slice_eq, ← Bool.not_eq_true, isOk_checkPairs_iff]
    exact hinner
  rw [Source.keepsOuterParens, Source.hasOuterParens, h.slice_eq, hcheck, List.getLast?_concat]
  rfl

/-- Two groups side by side are rejected as an operand with unexpected symbols, once it is reported
that the outer parentheses are kept. -/
theorem result_parseWindowAt_sideBySide (recordCost left : Nat) (h : text.Holds w sideBySide) :
    (parseWindowAt recordCost text (some left) w).result =
      .error (if recordCost ≤ left then .malformed .unexpectedSymbol "(p)(q)"
        else .tooDeep text.size) := by
  have htrim : trim sideBySide = sideBySide := trim_of_trimmed solid_sideBySide.trimmed
  have hcore : text.Holds (text.core w) sideBySide := by
    have hcore := h.core
    rwa [htrim] at hcore
  have houter : sideBySide = openParen :: "p)(q".toList ++ [closeParen] := rfl
  have hbetween : ¬Balanced "p)(q".toList := by decide
  have hkept : text.keepsOuterParens (text.core w) = true :=
    keepsOuterParens_of_not_balanced (houter ▸ hcore) hbetween
  have hgroup : ¬Grouped (trim sideBySide) := by
    rw [htrim]
    rintro ⟨inner, hinner, hbal⟩
    have hsame : "p)(q".toList = inner := List.append_cancel_right (List.cons.inj hinner).2
    exact hbetween (hsame ▸ hbal)
  have hfree (family : Family) : FreeOf family sideBySide := by
    cases family <;> decide
  have hneg : negationGlyph ∉ surface (trim sideBySide) := by
    rw [htrim]
    decide
  have hleaf : leaf sideBySide = .error .unexpectedSymbol := by decide +kernel
  rw [parseWindowAt_eq, shape_eq_leaf h balanced_sideBySide (by decide) hgroup hfree hneg]
  dsimp only
  rw [keptParens, if_pos hkept, Traced.result_bind, report, Budget.spend?, readLeaf,
    Source.fragment, hcore.slice_eq, hleaf]
  by_cases hroom : recordCost ≤ left
  · rw [if_pos hroom, if_pos hroom]
    rfl
  · rw [if_neg hroom, if_neg hroom]
    rfl

/-- How deep the two groups are rejected for what they say depends on the cost of a record. -/
theorem result_parseOn_nested {stack : Stack} {k : Nat} (hroom : groupCost * k ≤ stack.frames) :
    (Formula.parseOn stack (String.ofList (nested k sideBySide))).result =
      .error (if groupCost * k + stack.recordCost ≤ stack.frames then
          .malformed .unexpectedSymbol "(p)(q)"
        else .tooDeep (2 * k + 6)) := by
  obtain ⟨left, hleft⟩ := Nat.exists_eq_add_of_le hroom
  have hwhole := Source.holds_whole (String.ofList (nested k sideBySide))
  rw [String.toList_ofList] at hwhole
  obtain ⟨v, hv, hread⟩ := parseWindowAt_nested stack.recordCost left balanced_sideBySide k hwhole
  have hsize : (Source.ofString (String.ofList (nested k sideBySide))).size = 2 * k + 6 := by
    rw [Source.size_ofString, ← String.length_toList, String.toList_ofList, length_nested]
    rfl
  rw [Formula.parseOn, Stack.budget, hleft]
  change (parseWindowAt _ _ _ _).result = _
  rw [hread, result_parseWindowAt_sideBySide _ _ hv, hsize]
  simp only [Nat.add_le_add_iff_left]

end Reading

/-- The line of two groups side by side, between `k` pairs of parentheses. -/
theorem result_answerLine_nested (config : Config) {stack : Stack} (number : Int) {k : Nat}
    (hroom : groupCost * k ≤ stack.frames) :
    (answerLine config stack number (String.ofList (nested k sideBySide))).result =
      .error (.parse (if groupCost * k + stack.recordCost ≤ stack.frames then
          .malformed .unexpectedSymbol "(p)(q)"
        else .tooDeep (2 * k + 6))) := by
  have htrimmed : trimmed (String.ofList (nested k sideBySide)) =
      String.ofList (nested k sideBySide) := by
    rw [trimmed, String.toList_ofList, trim_of_trimmed (solid_nested solid_sideBySide k).trimmed]
  have hnormal : normalizedText (String.ofList (nested k sideBySide)) =
      String.ofList (nested k sideBySide) := by
    rw [normalizedText_eq_self_iff, String.toList_ofList]
    exact isNormal_nested solid_sideBySide isNormal_sideBySide k
  rw [result_answerLine, htrimmed, hnormal, result_parseOn_nested hroom]
  rfl

end Sentential
