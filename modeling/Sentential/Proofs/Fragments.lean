import Sentential.Proofs.Attribution
import Sentential.Proofs.Exhaustion

/-!
# Windows and their fragments

The parser works on windows of one text and copies nothing, and yet a window is read like its
fragment on its own, within any budget (`parseWindow_fragment`). The formula is the same, and the
fault is the one that `ParseFault.inText` makes of the fault of the fragment: an imbalance moves to
its place in the text, exhausted nesting is reported with the length of the text, and a malformed
fragment is reported with the same words, the same operator and the same cause. What stands outside
of the window has no influence on the result.
-/

namespace Sentential

/-- The fault of a fragment as the fault of the window that holds the fragment; the window begins at
`offset` in a text of the given length. -/
def ParseFault.inText (offset length : Nat) : ParseFault → ParseFault
  | .unbalanced fault => .unbalanced (fault.shift offset)
  | .malformed defect text => .malformed defect text
  | .operand op role missing text cause => .operand op role missing text cause
  | .tooDeep _ => .tooDeep length

namespace Source

variable {text : Source} {budget : Budget} {w : Window} {cs : List Char} {fault : ParseFault}

/-- Nothing but the position of an imbalance and the length of the text changes when a fault of a
balanced window is moved: an operator is blamed for a malformed operand only, and there is no
position in that cause. -/
theorem Fails.relocate_eq (h : text.Fails budget w fault) (hw : text.Holds w cs) (hcs : Balanced cs)
    (offset length : Nat) : fault.relocate offset length = fault.inText offset length := by
  cases fault with
  | unbalanced => rfl
  | malformed => rfl
  | tooDeep => rfl
  | operand op role missing fragment cause =>
      obtain ⟨v, o, rest, cause', hblames⟩ := h.exists_blames hw hcs (Option.some_ne_none _)
      obtain ⟨defect, quoted, rfl⟩ := hblames.malformed
      cases hblames.eq_operand
      rfl

theorem relocate_of_read_whole {s : String}
    (h : (ofString s).read budget (ofString s).whole = .error fault) (offset length : Nat) :
    fault.relocate offset length = fault.inText offset length := by
  cases hcheck : checkPairs 0 s.toList with
  | ok u =>
      have hbal := (checkPairs_eq_ok_iff 0 s.toList).1 hcheck
      exact (fails_of_read h).relocate_eq (holds_whole s) hbal offset length
  | error imbalance =>
      rw [read_whole_of_not_balanced hcheck] at h
      cases h
      rfl

/-- Without a budget no window is nested too deeply. -/
theorem read_none_ne_tooDeep (text : Source) (w : Window) (length : Nat) :
    text.read none w ≠ .error (.tooDeep length) := by
  intro h
  obtain rfl := (fails_of_read h).length_eq
  obtain ⟨n, u, -, hnot⟩ := uncovered_of_read h
  exact hnot trivial

/-- A window inside a text is read like its fragment on its own. -/
theorem read_eq_fragment (s : String) (budget : Budget) (hw : w.start ≤ w.stop)
    (hstop : w.stop ≤ s.length) :
    (ofString s).read budget w =
      ((Formula.parseWithin budget ((ofString s).fragment w)).result).mapError
        (ParseFault.inText w.start s.length) := by
  have hsize : w.stop ≤ (ofString s).size := by rwa [size_ofString]
  have hholds := holds_slice hw hsize
  rw [read_fragment budget hholds, Formula.result_parseWithin, size_ofString]
  cases hread : (ofString ((ofString s).fragment w)).read budget
      (ofString ((ofString s).fragment w)).whole with
  | ok f => rfl
  | error fault => exact congrArg Except.error (relocate_of_read_whole hread w.start s.length)

end Source

/-- Reading a window of a text is reading its fragment. Within any budget the result is that of the
fragment on its own: the same formula, the same imbalance further to the right, or the same
malformed formula; only the length that is reported with exhausted nesting is that of the whole
text. Without a budget two texts that have the same fragment in a window are therefore read alike
there, whatever else they hold. -/
theorem parseWindow_fragment (s : String) (w : Window) (hw : w.start ≤ w.stop)
    (hstop : w.stop ≤ s.length) :
    (∀ budget : Budget, (parseWindow (Source.ofString s) budget w).result =
        ((Formula.parseWithin budget ((Source.ofString s).fragment w)).result).mapError
          (ParseFault.inText w.start s.length)) ∧
      (∀ length : Nat, (parseWindow (Source.ofString s) none w).result ≠ .error (.tooDeep length)) ∧
      ∀ other : String, w.stop ≤ other.length →
        (Source.ofString other).fragment w = (Source.ofString s).fragment w →
        (parseWindow (Source.ofString other) none w).result =
          (parseWindow (Source.ofString s) none w).result := by
  refine ⟨fun budget => Source.read_eq_fragment s budget hw hstop,
    (Source.ofString s).read_none_ne_tooDeep w, ?_⟩
  intro other hother hfragment
  have hleft := Source.read_eq_fragment other none hw hother
  have hright := Source.read_eq_fragment s none hw hstop
  rw [hfragment] at hleft
  refine hleft.trans (Eq.trans ?_ hright.symm)
  -- the lengths of the two texts would be reported with exhausted nesting only
  cases hread : (Formula.parseWithin none ((Source.ofString s).fragment w)).result with
  | ok f => rfl
  | error fault =>
      cases fault with
      | tooDeep length => exact absurd hread (Source.read_none_ne_tooDeep _ _ length)
      | _ => rfl

/-- The closing parenthesis without a partner stands at position 3 of the text and at position 1 of
its fragment. The disjunction without a right operand is reported for the window as for the
fragment. -/
theorem parseWindow_fragment_unbalanced :
    let s := "¬(p)) ∧ (q ∨ )"
    5 ≤ s.length ∧ 14 ≤ s.length ∧
      (Source.ofString s).fragment ⟨2, 5⟩ = "p))" ∧
      (Formula.parseWithin none "p))").result = .error (.unbalanced (.unmatchedClose 1)) ∧
      (parseWindow (Source.ofString s) none ⟨2, 5⟩).result =
        .error (.unbalanced (.unmatchedClose 3)) ∧
      (Source.ofString s).fragment ⟨8, 14⟩ = "(q ∨ )" ∧
      (parseWindow (Source.ofString s) none ⟨8, 14⟩).result =
        .error (.operand (.binary .or) .right true "q ∨" (.malformed .emptyOperand "")) := by
  intro s
  have hfive : 5 ≤ s.length := by decide
  have hall : 14 ≤ s.length := by decide
  have hclose : (Source.ofString s).fragment ⟨2, 5⟩ = "p))" := by decide +kernel
  have hgroup : (Source.ofString s).fragment ⟨8, 14⟩ = "(q ∨ )" := by decide +kernel
  have hcloseAlone : (Formula.parseWithin none "p))").result =
      .error (.unbalanced (.unmatchedClose 1)) := by decide +kernel
  have hgroupAlone : (Formula.parseWithin none "(q ∨ )").result =
      .error (.operand (.binary .or) .right true "q ∨" (.malformed .emptyOperand "")) := by
    decide +kernel
  have hcloseRead := (parseWindow_fragment s ⟨2, 5⟩ (by decide) hfive).1 none
  have hgroupRead := (parseWindow_fragment s ⟨8, 14⟩ (by decide) hall).1 none
  rw [hclose, hcloseAlone] at hcloseRead
  rw [hgroup, hgroupAlone] at hgroupRead
  exact ⟨hfive, hall, hclose, hcloseAlone, hcloseRead, hgroup, hgroupRead⟩

end Sentential
