import Sentential.Proofs.Visits

/-!
# How a reading fails

`Source.Fails` derives the fault of a window from the fault of the part that could not be read. It
has one constructor for each way in which a reading ends without a formula, and every failed reading
has such a derivation (`Source.fails_of_read`), so that what holds of faults is shown by induction
on it.

The parentheses of a text are judged once, before anything else. A balanced text is never found
unbalanced in one of its windows, and an unbalanced one is rejected as a whole
(`parse_unbalanced_iff`).
-/

namespace Sentential

open Text

/-- The shapes that have no parts to read. -/
def Shape.IsSimple : Shape → Prop
  | .blank | .buriedNegation _ | .leaf _ => True
  | .unbalanced _ | .group _ | .chain .. | .negation _ => False

namespace Source

/-- The window cannot be read within the budget because of the fault. -/
inductive Fails (text : Source) : Budget → Window → ParseFault → Prop
  | unbalanced {budget : Budget} {w : Window} {fault : Imbalance} :
      text.shape w = .unbalanced fault → Fails text budget w (.unbalanced fault)
  | tooDeep {budget : Budget} {w : Window} : Fails text budget w (.tooDeep text.size)
  | malformed {budget : Budget} {w : Window} (defect : Defect) (v : Window) :
      (text.shape w).IsSimple → Fails text budget w (.malformed defect (text.fragment v))
  /-- The inside of a group fails. -/
  | group {budget left : Budget} {w inner : Window} {fault : ParseFault} :
      text.shape w = .group inner → text.Begins budget w left inner →
      Fails text left inner fault → Fails text budget w fault
  /-- The first operand that fails is to blame. -/
  | operand {budget left : Budget} {w : Window} {o : Operand} {fault : ParseFault} :
      o ∈ text.operands w → text.Begins budget w left o.window →
      text.read left o.window = .error fault → Fails text left o.window fault →
      Fails text budget w (o.attribute text fault)

variable {text : Source} {budget left : Budget} {w v : Window} {cs : List Char} {o : Operand}
  {fault : ParseFault}

/-- A part fails by itself, or the budget does not cover it. -/
theorem enter_eq_error {cost : Nat} (h : text.enter budget cost w = .error fault) :
    (∃ left, budget.spend? cost = some left ∧ text.read left w = .error fault) ∨
      fault = .tooDeep text.size := by
  rw [enter] at h
  split at h
  next left hspend => exact Or.inl ⟨left, hspend, h⟩
  next => exact Or.inr (Except.error.inj h).symm

/-- A chain fails as the first of its operands that fails. -/
theorem exists_failing_chainOperand {core : Window} {rest : List Split} :
    ∀ {start : Nat} {s : Split}, text.readChain budget core start s rest = .error fault →
      ∃ before o after, chainOperands core start s rest = before ++ o :: after ∧
        (∀ p ∈ before, ∃ f, text.readPart budget p.cost p = .ok f) ∧
        text.readPart budget o.cost o = .error fault := by
  induction rest with
  | nil =>
      intro start s h
      rcases Except.bind_eq_error_iff.1 h with hleft | ⟨left, hleft, h⟩
      · exact ⟨[], _, _, rfl, fun p hp => absurd hp List.not_mem_nil, hleft⟩
      rcases Except.bind_eq_error_iff.1 h with hright | ⟨right, -, h⟩
      · refine ⟨[leftOperand core start s], _, [], rfl, ?_, hright⟩
        intro p hp
        rw [List.mem_singleton.1 hp]
        exact ⟨left, hleft⟩
      · cases h
  | cons t rest ih =>
      intro start s h
      rcases Except.bind_eq_error_iff.1 h with hleft | ⟨left, hleft, h⟩
      · exact ⟨[], _, _, rfl, fun p hp => absurd hp List.not_mem_nil, hleft⟩
      rcases Except.bind_eq_error_iff.1 h with hright | ⟨right, -, h⟩
      · -- the operand that fails stands further to the right, behind one that was read
        obtain ⟨before, o, after, hsplit, hbefore, ho⟩ := ih hright
        refine ⟨leftOperand core start s :: before, o, after, ?_, ?_, ho⟩
        · rw [chainOperands, hsplit, List.cons_append]
        · intro p hp
          rcases List.mem_cons.1 hp with rfl | hp
          · exact ⟨left, hleft⟩
          · exact hbefore p hp
      · cases h

/-- A window with operands fails as the first of them that fails. -/
theorem exists_failing_operand (hne : text.operands w ≠ [])
    (h : text.read budget w = .error fault) :
    ∃ before o after, text.operands w = before ++ o :: after ∧
      (∀ p ∈ before, ∃ f, text.readPart budget p.cost p = .ok f) ∧
      text.readPart budget o.cost o = .error fault := by
  rw [read_eq] at h
  rw [operands] at hne ⊢
  generalize text.shape w = shape at h hne ⊢
  cases shape with
  | chain core first rest => exact exists_failing_chainOperand h
  | negation core =>
      refine ⟨[], _, [], rfl, fun p hp => absurd hp List.not_mem_nil, ?_⟩
      change (text.readPart budget (negatedOperand core).cost (negatedOperand core)).map _ = _ at h
      cases hread : text.readPart budget (negatedOperand core).cost (negatedOperand core) with
      | ok f =>
          rw [hread] at h
          cases h
      | error e =>
          rw [hread] at h
          cases h
          rfl
  | _ => exact absurd rfl hne

/-- Every failure has a derivation, by induction on the size of the window. -/
theorem fails_of_read (h : text.read budget w = .error fault) : text.Fails budget w fault := by
  induction hn : w.size using Nat.strongRecOn generalizing budget w fault with
  | ind n ih =>
      by_cases hne : text.operands w = []
      · -- without operands the window fails by its shape alone, or inside its group
        have heq := h
        rw [read_eq] at heq
        cases hshape : text.shape w with
        | unbalanced imbalance =>
            rw [hshape] at heq
            cases heq
            exact .unbalanced hshape
        | blank =>
            rw [hshape] at heq
            cases heq
            exact .malformed _ _ (by rw [hshape]; trivial)
        | group inner =>
            rw [hshape] at heq
            rcases enter_eq_error heq with ⟨left, hspend, hread⟩ | rfl
            · have hlt : inner.size < n := hn ▸ shape_group_size_lt hshape
              exact .group hshape (.group hshape hspend) (ih _ hlt hread rfl)
            · exact .tooDeep
        | chain core first rest =>
            rw [operands, hshape] at hne
            exact absurd hne (by cases rest <;> exact List.cons_ne_nil _ _)
        | negation core =>
            rw [operands, hshape] at hne
            exact absurd hne (List.cons_ne_nil _ _)
        | buriedNegation core =>
            rw [hshape] at heq
            cases heq
            exact .malformed _ _ (by rw [hshape]; trivial)
        | leaf core =>
            rw [hshape] at heq
            dsimp only at heq
            split at heq
            · cases heq
            · cases heq
              exact .malformed _ _ (by rw [hshape]; trivial)
      · -- the first operand that fails does so by itself, or the budget does not cover it
        obtain ⟨before, o, after, hsplit, hbefore, ho⟩ := exists_failing_operand hne h
        have hmem : o ∈ text.operands w := by
          rw [hsplit]
          exact List.mem_append_right _ List.mem_cons_self
        obtain ⟨cause, henter, rfl⟩ := Except.mapError_eq_error_iff.1 ho
        rcases enter_eq_error henter with ⟨left, hspend, hread⟩ | rfl
        · have hlt : o.window.size < n := hn ▸ operands_size_lt hmem
          exact .operand hmem (.operand hsplit hbefore hspend) hread (ih _ hlt hread rfl)
        · exact .tooDeep

/-! ## Imbalance -/

/-- No operator is blamed for parentheses that do not pair up: an operand of a balanced window is
balanced itself, and any other fault stays what it is. -/
theorem Fails.ne_unbalanced (h : text.Fails budget w fault) :
    ∀ {cs : List Char}, text.Holds w cs → Balanced cs →
      ∀ imbalance, fault ≠ .unbalanced imbalance := by
  induction h with
  | unbalanced hshape =>
      intro cs hw hcs
      have hof := hw.shapeOf_shape
      rw [hshape] at hof
      cases hof with
      | unbalanced hfault => exact absurd hfault (checkPairs_ne_error hcs)
  | tooDeep =>
      intro cs hw hcs imbalance h
      cases h
  | malformed =>
      intro cs hw hcs imbalance h
      cases h
  | group _ hbegins _ ih =>
      intro cs hw hcs
      obtain ⟨as, hinner, has⟩ := hbegins.balanced hw
      exact ih hinner has
  | @operand _ _ _ o fault _ _ _ _ _ =>
      intro cs hw hcs imbalance h
      cases fault <;> cases h

/-- Only the length of the whole text is reported with exhausted nesting. -/
theorem Fails.length_eq {length : Nat} (h : text.Fails budget w (.tooDeep length)) :
    length = text.size := by
  generalize hfault : ParseFault.tooDeep length = fault at h
  induction h with
  | unbalanced => cases hfault
  | tooDeep =>
      cases hfault
      rfl
  | malformed => cases hfault
  | group _ _ _ ih => exact ih hfault
  | @operand _ _ _ o fault _ _ _ _ ih =>
      apply ih
      cases fault with
      | tooDeep => exact hfault
      | _ => cases hfault

/-- A text whose parentheses do not pair up is rejected for that, whatever else is wrong with it. -/
theorem read_whole_of_not_balanced {s : String} {imbalance : Imbalance}
    (h : checkPairs 0 s.toList = .error imbalance) :
    (ofString s).read budget (ofString s).whole = .error (.unbalanced imbalance) := by
  have hcheck : (ofString s).checkWindow (ofString s).whole = checkPairs 0 s.toList := by
    rw [checkWindow, (holds_whole s).slice_eq]
    rfl
  rw [read_eq, shape, hcheck, h]

end Source

/-- A fault that reports a malformed fragment: the fragment that it quotes. -/
def ParseFault.fragment? : ParseFault → Option String
  | .malformed _ text => some text
  | .operand _ _ _ text _ => some text
  | .unbalanced _ | .tooDeep _ => none

/-- Imbalance is decided on the whole text. Reading a text reports an imbalance exactly if the check
of its parentheses does, and the same one. If the check accepts the text, then every window that is
visited lies inside the text and is accepted by the check as well, no window is found unbalanced,
and the text can only be malformed or too deep. -/
theorem parse_unbalanced_iff (s : String) :
    (∀ imbalance : Imbalance, (Formula.parse s).result = .error (.unbalanced imbalance) ↔
        checkPairs 0 s.toList = .error imbalance) ∧
      (checkPairs 0 s.toList = .ok () →
        (∀ (left : Budget) (v : Window),
          (Source.ofString s).Visits nestingBudget (Source.ofString s).whole left v →
            v.start ≤ v.stop ∧ v.stop ≤ s.length ∧ (Source.ofString s).checkWindow v = .ok () ∧
              ∀ imbalance : Imbalance,
                (Source.ofString s).read left v ≠ .error (.unbalanced imbalance)) ∧
        ∀ fault : ParseFault, (Formula.parse s).result = .error fault →
          fault.fragment?.isSome = true ∨ fault = .tooDeep s.length) := by
  have hwhole := Source.holds_whole s
  rw [Formula.parse, Formula.result_parseWithin]
  constructor
  · intro imbalance
    constructor
    · intro h
      -- a balanced text would not be reported, and the check of any other text has this outcome
      cases hcheck : checkPairs 0 s.toList with
      | ok u =>
          have hbal := (checkPairs_eq_ok_iff 0 s.toList).1 hcheck
          exact absurd rfl ((Source.fails_of_read h).ne_unbalanced hwhole hbal imbalance)
      | error other =>
          rw [Source.read_whole_of_not_balanced hcheck] at h
          cases h
          rfl
    · intro h
      exact Source.read_whole_of_not_balanced h
  · intro hcheck
    have hbal := (checkPairs_eq_ok_iff 0 s.toList).1 hcheck
    constructor
    · intro left v hvisits
      obtain ⟨as, hv, has⟩ := hvisits.balanced hwhole hbal
      refine ⟨?_, ?_, ?_, ?_⟩
      · rw [hv.stop_eq]
        exact Nat.le_add_right _ _
      · rw [← Source.size_ofString]
        exact hv.stop_le
      · rw [Source.checkWindow, hv.slice_eq]
        exact (checkPairs_eq_ok_iff _ as).2 has
      · intro imbalance h
        exact absurd rfl ((Source.fails_of_read h).ne_unbalanced hv has imbalance)
    · intro fault h
      cases fault with
      | unbalanced imbalance =>
          exact absurd rfl ((Source.fails_of_read h).ne_unbalanced hwhole hbal imbalance)
      | malformed => exact Or.inl rfl
      | operand => exact Or.inl rfl
      | tooDeep length =>
          right
          rw [(Source.fails_of_read h).length_eq, Source.size_ofString]

/-- Parentheses count inside quotation marks as well. -/
theorem parse_quoted_parenthesis :
    (Formula.parse "`(` ∧ p").result = .error (.unbalanced (.unmatchedOpen 1 1)) ∧
      checkPairs 0 "¬(`p)` = (q)".toList = .ok () ∧
      ∀ (left : Budget) (v : Window),
        (Source.ofString "¬(`p)` = (q)").Visits nestingBudget
          (Source.ofString "¬(`p)` = (q)").whole left v →
        (Source.ofString "¬(`p)` = (q)").checkWindow v = .ok () := by
  have hopen : checkPairs 0 "`(` ∧ p".toList = .error (.unmatchedOpen 1 1) := by decide +kernel
  have hclosed : checkPairs 0 "¬(`p)` = (q)".toList = .ok () := by decide +kernel
  refine ⟨((parse_unbalanced_iff _).1 _).2 hopen, hclosed, ?_⟩
  intro left v hvisits
  exact (((parse_unbalanced_iff _).2 hclosed).1 left v hvisits).2.2.1

end Sentential
