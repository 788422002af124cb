import Sentential.Proofs.Failure
import Sentential.Proofs.Nesting

/-!
# When the nesting budget runs out

`Source.Reaches` lists the windows that are entered while a window is read without a budget, each
with the cost of the path that leads there. A budget runs out exactly if it does not cover the cost
of one of these paths (`Source.read_tooDeep_iff`). Since a larger budget changes nothing else
(`Source.read_settles`), an exhausted budget replaces the answer of a reading and never alters it
(`parseWithin_exhaustion`).
-/

namespace Sentential

namespace Source

/-- Reading `w` without a budget begins to read another window, at a cost. -/
inductive Enters (text : Source) (w : Window) : Nat → Window → Prop
  /-- The inside of a group. -/
  | group {inner : Window} : text.shape w = .group inner → Enters text w groupCost inner
  /-- An operand, after all operands before it have been read. -/
  | operand {before after : List Operand} {o : Operand} :
      text.operands w = before ++ o :: after →
      (∀ p ∈ before, ∃ f, text.readPart none p.cost p = .ok f) → Enters text w o.cost o.window

/-- The windows that are entered while a window is read without a budget, each with the sum of the
costs on the path to it. -/
inductive Reaches (text : Source) : Window → Nat → Window → Prop
  | here {w : Window} : Reaches text w 0 w
  | through {w v u : Window} {cost n : Nat} :
      text.Enters w cost v → Reaches text v n u → Reaches text w (cost + n) u

variable {text : Source} {budget left : Budget} {w v : Window} {cost n : Nat} {o : Operand}

theorem Enters.begins (h : text.Enters w cost v) : text.Begins none w none v := by
  cases h with
  | group hshape => exact .group hshape rfl
  | operand hsplit hbefore => exact .operand hsplit hbefore rfl

theorem Begins.exists_enters (h : text.Begins none w left v) :
    left = none ∧ ∃ cost, text.Enters w cost v := by
  cases h with
  | group hshape hspend => exact ⟨(Option.some.inj hspend).symm, _, .group hshape⟩
  | operand hsplit hbefore hspend =>
      exact ⟨(Option.some.inj hspend).symm, _, .operand hsplit hbefore⟩

theorem Visits.exists_reaches (h : text.Visits budget w left v) :
    budget = none → ∃ n, text.Reaches w n v := by
  induction h with
  | here => exact fun _ => ⟨0, .here⟩
  | through hbegins _ ih =>
      rintro rfl
      obtain ⟨rfl, cost, henters⟩ := hbegins.exists_enters
      obtain ⟨n, hreaches⟩ := ih rfl
      exact ⟨cost + n, .through henters hreaches⟩

/-- The windows to which a path leads are those that a reading without a budget visits. -/
theorem exists_reaches_iff_visits : (∃ n, text.Reaches w n v) ↔ text.Visits none w none v := by
  constructor
  · rintro ⟨n, h⟩
    induction h with
    | here => exact .here
    | through henters _ ih => exact .through henters.begins ih
  · exact fun h => h.exists_reaches rfl

/-! ## From exhausted nesting to a path that is not covered -/

/-- The budget does not cover the path to some window that is entered. -/
def Uncovered (text : Source) (budget : Budget) (w : Window) : Prop :=
  ∃ n u, text.Reaches w n u ∧ ¬budget.Covers n

/-- A part for which the nesting is exhausted lies on a path that is not covered. -/
theorem uncovered_of_enter (hv : text.Enters w cost v)
    (hread : ∀ left, text.read left v = .error (.tooDeep text.size) → text.Uncovered left v)
    (h : text.enter budget cost v = .error (.tooDeep text.size)) : text.Uncovered budget w := by
  rw [enter] at h
  cases hspend : budget.spend? cost with
  | none => exact ⟨cost + 0, v, .through hv .here, Budget.not_covers_of_spend hspend 0⟩
  | some left =>
      rw [hspend] at h
      obtain ⟨n, u, hreaches, hnot⟩ := hread left h
      refine ⟨cost + n, u, .through hv hreaches, ?_⟩
      rwa [← Budget.covers_iff_of_spend hspend]

/-- Only a fault that is exhausted nesting is attributed as exhausted nesting. -/
theorem enter_tooDeep_of_readPart {length : Nat}
    (h : text.readPart budget cost o = .error (.tooDeep length)) :
    text.enter budget cost o.window = .error (.tooDeep length) := by
  obtain ⟨fault, hfault, hattribute⟩ := Except.mapError_eq_error_iff.1 h
  cases fault with
  | tooDeep => rw [hfault, ← hattribute]; rfl
  | unbalanced => cases hattribute
  | malformed => cases hattribute
  | operand => cases hattribute

/-- What is read within some budget is read without a budget as well. -/
theorem readPart_none_of_ok {f : Formula} (h : text.readPart budget cost o = .ok f) :
    text.readPart none cost o = .ok f := by
  have hsettles : Settles text.size (text.readPart budget cost o) (text.readPart none cost o) :=
    readPart_settles budget.atMost_none cost o
  rcases hsettles with hdeep | heq
  · rw [h] at hdeep
    cases hdeep
  · rw [← heq, h]

/-- If the nesting is exhausted, some path is not covered. By induction on the size of the window:
the first operand that fails is the one that is too deep. -/
theorem uncovered_of_read (h : text.read budget w = .error (.tooDeep text.size)) :
    text.Uncovered budget w := by
  induction hn : w.size using Nat.strongRecOn generalizing budget w with
  | ind size ih =>
      subst hn
      by_cases hne : text.operands w = []
      · rw [read_eq] at h
        cases hshape : text.shape w with
        | group inner =>
            rw [hshape] at h
            exact uncovered_of_enter (.group hshape)
              (fun left hread => ih _ (shape_group_size_lt hshape) hread rfl) h
        | chain core first rest =>
            rw [operands, hshape] at hne
            exact absurd hne (by cases rest <;> exact List.cons_ne_nil _ _)
        | negation core =>
            rw [operands, hshape] at hne
            exact absurd hne (List.cons_ne_nil _ _)
        | leaf core =>
            rw [hshape] at h
            dsimp only at h
            split at h <;> cases h
        | unbalanced => rw [hshape] at h; cases h
        | blank => rw [hshape] at h; cases h
        | buriedNegation => rw [hshape] at h; cases h
      · obtain ⟨before, o, after, hsplit, hbefore, ho⟩ := exists_failing_operand hne h
        have hmem : o ∈ text.operands w := by
          rw [hsplit]
          exact List.mem_append_right _ List.mem_cons_self
        have henters : text.Enters w o.cost o.window := by
          apply Enters.operand hsplit
          intro p hp
          obtain ⟨f, hf⟩ := hbefore p hp
          exact ⟨f, readPart_none_of_ok hf⟩
        exact uncovered_of_enter henters
          (fun left hread => ih _ (operands_size_lt hmem) hread rfl) (enter_tooDeep_of_readPart ho)

/-! ## From a path that is not covered to exhausted nesting -/

/-- A chain is too deep if one of its operands is, and those before it are too deep or read. By
induction on the splits. -/
theorem readChain_tooDeep {core : Window} {rest : List Split} :
    ∀ {start : Nat} {s : Split} {before after : List Operand},
      chainOperands core start s rest = before ++ o :: after →
      (∀ p ∈ before, text.readPart budget p.cost p = .error (.tooDeep text.size) ∨
        ∃ f, text.readPart budget p.cost p = .ok f) →
      text.readPart budget o.cost o = .error (.tooDeep text.size) →
      text.readChain budget core start s rest = .error (.tooDeep text.size) := by
  induction rest with
  | nil =>
      intro start s before after hsplit hbefore ho
      rw [readChain]
      cases before with
      | nil =>
          obtain ⟨rfl, -⟩ := List.cons.inj hsplit
          exact Except.bind_eq_error_iff.2 (Or.inl ho)
      | cons p before =>
          obtain ⟨rfl, hlast⟩ := List.cons.inj hsplit
          rcases hbefore _ List.mem_cons_self with hdeep | ⟨left, hleft⟩
          · exact Except.bind_eq_error_iff.2 (Or.inl hdeep)
          · -- the operand that is too deep can only be the last one
            cases before with
            | nil =>
                obtain ⟨rfl, -⟩ := List.cons.inj hlast
                refine Except.bind_eq_error_iff.2 (Or.inr ⟨left, hleft, ?_⟩)
                exact Except.bind_eq_error_iff.2 (Or.inl ho)
            | cons q before => exact absurd (List.cons.inj hlast).2 (by simp)
  | cons t rest ih =>
      intro start s before after hsplit hbefore ho
      rw [readChain]
      cases before with
      | nil =>
          obtain ⟨rfl, -⟩ := List.cons.inj hsplit
          exact Except.bind_eq_error_iff.2 (Or.inl ho)
      | cons p before =>
          obtain ⟨rfl, hrest⟩ := List.cons.inj hsplit
          rcases hbefore _ List.mem_cons_self with hdeep | ⟨left, hleft⟩
          · exact Except.bind_eq_error_iff.2 (Or.inl hdeep)
          · have hdeep := ih hrest (fun q hq => hbefore q (List.mem_cons_of_mem _ hq)) ho
            refine Except.bind_eq_error_iff.2 (Or.inr ⟨left, hleft, ?_⟩)
            exact Except.bind_eq_error_iff.2 (Or.inl hdeep)

/-- A part is too deep if the nesting inside it is, within what is left of the budget. -/
theorem enter_tooDeep (hread : ∀ left : Budget, ¬left.Covers n →
      text.read left v = .error (.tooDeep text.size)) (hnot : ¬budget.Covers (cost + n)) :
    text.enter budget cost v = .error (.tooDeep text.size) := by
  rw [enter]
  cases hspend : budget.spend? cost with
  | none => rfl
  | some left =>
      apply hread left
      rwa [Budget.covers_iff_of_spend hspend]

/-- If a path is not covered, the nesting is exhausted. By induction on the path. -/
theorem Reaches.read_tooDeep (h : text.Reaches w n v) :
    ∀ {budget : Budget}, ¬budget.Covers n → text.read budget w = .error (.tooDeep text.size) := by
  induction h with
  | here => exact fun hnot => absurd (Budget.covers_zero _) hnot
  | @through w _ _ _ _ henters _ ih =>
      intro budget hnot
      have hdeep := enter_tooDeep (fun left => ih) hnot
      rw [read_eq]
      cases henters with
      | group hshape =>
          rw [hshape]
          exact hdeep
      | @operand before after o hsplit hbefore =>
          have ho : text.readPart budget o.cost o = .error (.tooDeep text.size) := by
            rw [readPart, hdeep]
            rfl
          -- the operands before it were read without a budget, so that only their depth can make
          -- them fail
          have hearlier :
              ∀ p ∈ before, text.readPart budget p.cost p = .error (.tooDeep text.size) ∨
              ∃ f, text.readPart budget p.cost p = .ok f := by
            intro p hp
            obtain ⟨f, hf⟩ := hbefore p hp
            have hsettles : Settles text.size (text.readPart budget p.cost p)
                (text.readPart none p.cost p) :=
              readPart_settles budget.atMost_none p.cost p
            rcases hsettles with hdeep | heq
            · exact Or.inl hdeep
            · exact Or.inr ⟨f, heq.trans hf⟩
          rw [operands] at hsplit
          generalize text.shape w = shape at hsplit ⊢
          cases shape with
          | chain core first rest => exact readChain_tooDeep hsplit hearlier ho
          | negation core =>
              cases before with
              | nil =>
                  obtain ⟨rfl, -⟩ := List.cons.inj hsplit
                  exact congrArg (Except.map Formula.neg) ho
              | cons p before => exact absurd (List.cons.inj hsplit).2 (by simp)
          | _ => exact absurd hsplit (by simp)

/-- The nesting is exhausted exactly if the path to some window is not covered. -/
theorem read_tooDeep_iff :
    text.read budget w = .error (.tooDeep text.size) ↔ text.Uncovered budget w := by
  constructor
  · exact uncovered_of_read
  · rintro ⟨n, u, hreaches, hnot⟩
    exact hreaches.read_tooDeep hnot

end Source

/-- An exhausted budget replaces an answer and never changes it. Within any amount of nesting a text
is found to be nested too deeply, or the answer is the one without a budget, which is never
exhausted nesting. The two answers are equal exactly if the amount covers the paths to all windows
that are entered without a budget. An answer other than exhausted nesting stays the same when the
amount grows. -/
theorem parseWithin_exhaustion (s : String) (amount : Nat) :
    ((Formula.parseWithin (some amount) s).result = .error (.tooDeep s.length) ∨
        (Formula.parseWithin (some amount) s).result = (Formula.parseWithin none s).result) ∧
      (∀ length, (Formula.parseWithin none s).result ≠ .error (.tooDeep length)) ∧
      ((∀ cost v, (Source.ofString s).Reaches (Source.ofString s).whole cost v → cost ≤ amount) ↔
        (Formula.parseWithin (some amount) s).result = (Formula.parseWithin none s).result) ∧
      ∀ more, amount ≤ more →
        (Formula.parseWithin (some amount) s).result ≠ .error (.tooDeep s.length) →
        (Formula.parseWithin (some more) s).result =
          (Formula.parseWithin (some amount) s).result := by
  simp only [Formula.result_parseWithin, ← Source.size_ofString]
  have hsettles {budget budget' : Budget} (h : budget.AtMost budget') :=
    (Source.ofString s).read_settles (Source.ofString s).whole h
  have hfree : ∀ length, (Source.ofString s).read none (Source.ofString s).whole ≠
      .error (.tooDeep length) := by
    intro length h
    obtain rfl := (Source.fails_of_read h).length_eq
    obtain ⟨n, u, -, hnot⟩ := Source.uncovered_of_read h
    exact hnot trivial
  have hlarge := hsettles (Budget.atMost_none (some amount))
  refine ⟨hlarge, hfree, ?_, ?_⟩
  · constructor
    · intro hcovered
      refine hlarge.resolve_left ?_
      intro hdeep
      obtain ⟨n, u, hreaches, hnot⟩ := Source.uncovered_of_read hdeep
      exact hnot (hcovered n u hreaches)
    · intro heq cost v hreaches
      by_contra hnot
      apply hfree (Source.ofString s).size
      rw [← heq]
      exact hreaches.read_tooDeep hnot
  · intro more hle hnot
    have hmost : Budget.AtMost (some amount) (some more) := hle
    exact ((hsettles hmost).resolve_left hnot).symm

/-- The nesting of a negation of a group with a chain inside is seven: two, two and three. -/
theorem parseWithin_exhaustion_nested :
    (∀ cost v, (Source.ofString "¬(p ∧ q)").Reaches (Source.ofString "¬(p ∧ q)").whole cost v →
        cost ≤ 7) ∧
      (Formula.parseWithin (some 6) "¬(p ∧ q)").result = .error (.tooDeep 8) ∧
      (Formula.parseWithin (some 7) "¬(p ∧ q)").result ≠ .error (.tooDeep 8) ∧
      (Formula.parse "¬(p ∧ q)").result = (Formula.parseWithin (some 7) "¬(p ∧ q)").result := by
  have hequal : (Formula.parseWithin (some 7) "¬(p ∧ q)").result =
      (Formula.parseWithin none "¬(p ∧ q)").result := by decide +kernel
  have hless : (Formula.parseWithin (some 6) "¬(p ∧ q)").result = .error (.tooDeep 8) := by
    decide +kernel
  have hfound : (Formula.parseWithin (some 7) "¬(p ∧ q)").result ≠ .error (.tooDeep 8) := by
    decide +kernel
  obtain ⟨-, -, hiff, hmore⟩ := parseWithin_exhaustion "¬(p ∧ q)" 7
  exact ⟨hiff.2 hequal, hless, hfound, hmore 985 (by decide) hfound⟩

end Sentential
