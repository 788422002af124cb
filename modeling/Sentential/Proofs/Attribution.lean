import Sentential.Proofs.Excerpt
import Sentential.Proofs.Failure
import Sentential.Proofs.Nesting

/-!
# The operator that a fault is attributed to

A malformed text is reported with the innermost operator whose operand cannot be read, and with one
level of cause (`parse_malformed_attribution`). No operator is named exactly if the text has none on
the surface of its `innermost` part, which is what is left of it without blanks at the ends and
without enclosing parentheses.

The proof is by induction on the derivation of the fault (`Source.Fails`). The fault of an operand
is the one that its text has on its own: a window is read like a copy of its text
(`Source.read_fragment`), and what is left of the budget inside the text only matters for exhausted
nesting (`Source.read_error_of_atMost`).
-/

namespace Sentential

open Text

/-! ## The text inside enclosing parentheses -/

/-- The text inside the pair of parentheses that encloses everything else, if there is such a
pair. -/
def ungroup? : List Char → Option (List Char)
  | [] => none
  | c :: rest =>
      if c = openParen ∧ rest.getLast? = some closeParen ∧ Balanced rest.dropLast then
        some rest.dropLast
      else none

theorem ungroup?_eq_some_iff {cs inner : List Char} :
    ungroup? cs = some inner ↔ cs = openParen :: inner ++ [closeParen] ∧ Balanced inner := by
  cases cs with
  | nil =>
      constructor
      · intro h
        cases h
      · rintro ⟨h, -⟩
        cases h
  | cons c rest =>
      rw [ungroup?]
      constructor
      · intro h
        split at h
        next hcond =>
          obtain ⟨rfl, hlast, hbal⟩ := hcond
          cases h
          obtain ⟨init, rfl⟩ := List.getLast?_eq_some_iff.1 hlast
          rw [List.dropLast_concat] at hbal ⊢
          exact ⟨rfl, hbal⟩
        next => cases h
      · rintro ⟨h, hbal⟩
        rw [List.cons_append, List.cons.injEq] at h
        obtain ⟨rfl, rfl⟩ := h
        rw [List.dropLast_concat, if_pos ⟨rfl, List.getLast?_concat, hbal⟩]

theorem ungroup?_eq_none_iff {cs : List Char} : ungroup? cs = none ↔ ¬Grouped cs := by
  rw [Option.eq_none_iff_forall_ne_some]
  constructor
  · rintro h ⟨inner, hcs⟩
    exact h inner (ungroup?_eq_some_iff.2 hcs)
  · intro h inner hinner
    exact h ⟨inner, ungroup?_eq_some_iff.1 hinner⟩

/-- The text without the blanks at its ends and the parentheses around it, however many there
are. -/
def innermost (cs : List Char) : List Char :=
  match _h : ungroup? (trim cs) with
  | some inner => innermost inner
  | none => trim cs
termination_by cs.length
decreasing_by
  have hlen := congrArg List.length (ungroup?_eq_some_iff.1 _h).1
  have hle := trim_length_le cs
  simp only [List.length_append, List.length_cons, List.length_nil] at hlen
  omega

theorem innermost_of_group {cs inner : List Char}
    (htrim : trim cs = openParen :: inner ++ [closeParen])
    (hinner : Balanced inner) : innermost cs = innermost inner := by
  have hungroup := ungroup?_eq_some_iff.2 ⟨htrim, hinner⟩
  rw [innermost]
  split
  next inner' h =>
    rw [hungroup, Option.some.injEq] at h
    rw [h]
  next h =>
    rw [hungroup] at h
    cases h

theorem innermost_of_not_grouped {cs : List Char} (h : ¬Grouped (trim cs)) :
    innermost cs = trim cs := by
  have hungroup := ungroup?_eq_none_iff.2 h
  rw [innermost]
  split
  next inner hinner =>
    rw [hungroup] at hinner
    cases hinner
  next => rfl

/-- Outside its parentheses the text has no connective, and it does not begin with a negation. -/
def NoOperator (cs : List Char) : Prop :=
  (∀ op : Connective, op.glyph ∉ surface cs) ∧ ∀ rest, cs ≠ negationGlyph :: rest

theorem forall_freeOf_iff {cs : List Char} :
    (∀ family : Family, FreeOf family cs) ↔ ∀ op : Connective, op.glyph ∉ surface cs :=
  ⟨fun h op => h op.family op rfl, fun h _ op _ => h op⟩

namespace Source

variable {text : Source} {budget left : Budget} {w v : Window} {cs : List Char} {o : Operand}
  {fault : ParseFault}

/-- A window that has no parts has no operator either. -/
theorem Holds.noOperator_of_isSimple (h : text.Holds w cs) (hsimple : (text.shape w).IsSimple) :
    NoOperator (innermost cs) := by
  have hof := h.shapeOf_shape
  generalize text.shape w = shape at hof hsimple
  cases hof with
  | blank hbal hblank =>
      have htrim := trim_of_isAllBlank hblank
      have hnot : ¬Grouped (trim cs) := by
        rintro ⟨inner, hinner, -⟩
        rw [htrim] at hinner
        cases hinner
      rw [innermost_of_not_grouped hnot, htrim]
      exact ⟨fun op => List.not_mem_nil, fun rest hrest => absurd hrest.symm (List.cons_ne_nil _ _)⟩
  | buriedNegation hbal hfree hmem hnot =>
      have hgroup : ¬Grouped (trim cs) := by
        rintro ⟨inner, hinner, hbalInner⟩
        rw [hinner, surface_group hbalInner] at hmem
        exact List.not_mem_nil hmem
      rw [innermost_of_not_grouped hgroup]
      exact ⟨forall_freeOf_iff.1 fun family => (freeOf_trim_iff hbal).2 (hfree family), hnot⟩
  | leaf hbal hblank hgroup hfree hneg =>
      rw [innermost_of_not_grouped hgroup]
      refine ⟨forall_freeOf_iff.1 fun family => (freeOf_trim_iff hbal).2 (hfree family), ?_⟩
      intro rest hrest
      rw [hrest, surface_cons isPlain_negationGlyph] at hneg
      exact hneg List.mem_cons_self
  | unbalanced => exact absurd hsimple not_false
  | group => exact absurd hsimple not_false
  | chain => exact absurd hsimple not_false
  | negation => exact absurd hsimple not_false

/-- A window with operands has an operator. -/
theorem Holds.not_noOperator_of_mem_operands (h : text.Holds w cs) (ho : o ∈ text.operands w) :
    ¬NoOperator (innermost cs) := by
  have hof := h.shapeOf_shape
  rw [operands] at ho
  generalize text.shape w = shape at hof ho
  cases hof with
  | chain hbal hsplits =>
      have hnotFree : ¬∀ family : Family, FreeOf family (trim cs) := by
        intro hfree
        rw [loosestSplits_eq_nil_iff.2 hfree] at hsplits
        cases hsplits
      rw [innermost_of_not_grouped fun hgroup => hnotFree hgroup.freeOf]
      intro hno
      exact hnotFree (forall_freeOf_iff.2 hno.1)
  | @negation rest hbal htrim hfree =>
      have hgroup : ¬Grouped (trim cs) := by
        rintro ⟨inner, hinner, -⟩
        rw [htrim, List.cons_append, List.cons.injEq] at hinner
        exact negationGlyph_ne_openParen hinner.1
      rw [innermost_of_not_grouped hgroup]
      intro hno
      exact hno.2 rest htrim
  | _ => exact absurd ho List.not_mem_nil

/-! ## What a fault says -/

theorem fragment_infix (text : Source) (w : Window) :
    (text.fragment w).toList <:+: text.chars.toList := by
  rw [fragment, String.toList_ofList, slice, Array.toList_extract, List.extract_eq_take_drop]
  exact (List.take_prefix _ _).isInfix.trans (List.drop_suffix _ _).isInfix

/-- The quoted fragment stands in the text. -/
theorem Fails.fragment_infix (h : text.Fails budget w fault) :
    ∀ fragment ∈ fault.fragment?, fragment.toList <:+: text.chars.toList := by
  induction h with
  | unbalanced => exact fun fragment h => absurd h (Option.not_mem_none _)
  | tooDeep => exact fun fragment h => absurd h (Option.not_mem_none _)
  | malformed defect v hsimple =>
      intro fragment h
      cases h
      exact text.fragment_infix v
  | group _ _ _ ih => exact ih
  | @operand _ _ _ o fault _ _ _ _ ih =>
      -- the operator is blamed for a fault that has none, and the fault is passed on otherwise
      cases fault with
      | unbalanced | malformed =>
          intro fragment h
          cases h
          exact text.fragment_infix o.context
      | operand => exact ih
      | tooDeep => exact ih

/-- A malformed window is blamed on no operator exactly if it has none. -/
theorem Fails.operator?_eq_none_iff (h : text.Fails budget w fault) :
    ∀ {cs : List Char}, text.Holds w cs → Balanced cs → fault.fragment?.isSome = true →
      (fault.operator? = none ↔ NoOperator (innermost cs)) := by
  induction h with
  | unbalanced => exact fun _ _ hsome => absurd hsome Bool.false_ne_true
  | tooDeep => exact fun _ _ hsome => absurd hsome Bool.false_ne_true
  | malformed defect v hsimple =>
      intro cs hw _ _
      exact iff_of_true rfl (hw.noOperator_of_isSimple hsimple)
  | @group budget left w inner fault hshape hbegins _ ih =>
      intro cs hw hcs hsome
      have hcore := hw.core
      have hof := hw.shapeOf_shape
      rw [hshape] at hof
      cases hof with
      | group _ htrim hbal =>
          rw [htrim] at hcore
          rw [innermost_of_group htrim hbal]
          exact ih hcore.inside hbal hsome
  | @operand budget left w o fault ho hbegins hread _ _ =>
      intro cs hw hcs hsome
      refine iff_of_false ?_ (hw.not_noOperator_of_mem_operands ho)
      cases fault with
      | unbalanced => exact Option.some_ne_none _
      | malformed => exact Option.some_ne_none _
      | operand => exact Option.some_ne_none _
      | tooDeep => exact absurd hsome Bool.false_ne_true

/-- The fault is that of an operand which cannot be read for a defect of its own; the operand
belongs to a window `v` that is visited, and it is entered with `rest` left of the budget. -/
structure Blames (text : Source) (budget : Budget) (w : Window) (fault : ParseFault) (v : Window)
    (o : Operand) (rest : Budget) (cause : ParseFault) : Prop where
  visited : ∃ left, text.Visits budget w left v ∧ text.Begins left v rest o.window
  mem_operands : o ∈ text.operands v
  /-- The operand is read to the cause. -/
  read : text.read rest o.window = .error cause
  /-- The cause names no operator itself. -/
  malformed : ∃ defect fragment, cause = .malformed defect fragment
  eq_operand : fault =
    .operand o.op o.role (isAllBlank (text.slice o.window)) (text.fragment o.context) cause

/-- Whoever blames an operator blames the innermost one: the first fault that names an operator is
passed on unchanged. -/
theorem Fails.exists_blames (h : text.Fails budget w fault) :
    ∀ {cs : List Char}, text.Holds w cs → Balanced cs → fault.operator? ≠ none →
      ∃ v o rest cause, text.Blames budget w fault v o rest cause := by
  induction h with
  | unbalanced => exact fun _ _ hop => absurd rfl hop
  | tooDeep => exact fun _ _ hop => absurd rfl hop
  | malformed => exact fun _ _ hop => absurd rfl hop
  | group _ hbegins _ ih =>
      intro cs hw hcs hop
      obtain ⟨as, hinner, has⟩ := hbegins.balanced hw
      obtain ⟨v, o, rest, cause, hblames⟩ := ih hinner has hop
      obtain ⟨left, hvisits, hread⟩ := hblames.visited
      exact ⟨v, o, rest, cause, { hblames with visited := ⟨left, .through hbegins hvisits, hread⟩ }⟩
  | @operand budget left w o fault ho hbegins hread hfails ih =>
      intro cs hw hcs hop
      obtain ⟨as, hwindow, has⟩ := hbegins.balanced hw
      cases fault with
      | unbalanced imbalance => exact absurd rfl (hfails.ne_unbalanced hwindow has imbalance)
      | malformed defect fragment =>
          -- the operand is malformed in itself, so that its operator is the innermost one
          refine ⟨w, o, left, .malformed defect fragment, ?_⟩
          exact ⟨⟨budget, .here, hbegins⟩, ho, hread, ⟨defect, fragment, rfl⟩, rfl⟩
      | operand op role missing fragment cause =>
          -- an operator inside the operand is blamed already
          obtain ⟨v, o', rest, cause', hblames⟩ := ih hwindow has (Option.some_ne_none _)
          obtain ⟨left', hvisits, hread'⟩ := hblames.visited
          exact ⟨v, o', rest, cause',
            { hblames with visited := ⟨left', .through hbegins hvisits, hread'⟩ }⟩
      | tooDeep => exact absurd rfl hop

/-! ## Fragments on their own -/

/-- A window is read like its fragment on its own. -/
theorem read_fragment (budget : Budget) (h : text.Holds w cs) :
    text.read budget w =
      ((Source.ofString (text.fragment w)).read budget
        (Source.ofString (text.fragment w)).whole).mapError
          (ParseFault.relocate w.start text.size) := by
  have hchars : (Source.ofString (text.fragment w)).chars.toList = cs := by
    rw [fragment, h.slice_eq]
    simp [ofString]
  have hsize : (Source.ofString (text.fragment w)).size = cs.length := by
    rw [size, ← Array.length_toList, hchars]
  have hwindow : (Source.ofString (text.fragment w)).whole.shift w.start = w := by
    simp only [Window.shift, whole, hsize, Nat.zero_add, Nat.add_comm cs.length, ← h.stop_eq]
  have hcontains : text.Contains (Source.ofString (text.fragment w)) w.start := by
    rw [Contains, hchars, hsize, ← h.stop_eq]
    exact h
  have hread := read_shift hcontains (holds_whole (text.fragment w)) budget
  rwa [hwindow] at hread

/-- What is wrong with a window that is visited is wrong with its fragment on its own. -/
theorem result_parse_fragment {defect : Defect} {fragment : String} (h : text.Holds w cs)
    (hle : budget.AtMost nestingBudget)
    (hread : text.read budget w = .error (.malformed defect fragment)) :
    (Formula.parse (text.fragment w)).result = .error (.malformed defect fragment) := by
  have hfull : text.read nestingBudget w = .error (.malformed defect fragment) :=
    read_error_of_atMost hle hread ParseFault.noConfusion
  rw [read_fragment nestingBudget h] at hfull
  obtain ⟨fault, hfault, hrelocate⟩ := Except.mapError_eq_error_iff.1 hfull
  rw [Formula.parse, Formula.result_parseWithin, hfault]
  -- moving a fault changes neither its class nor the fragment of a malformed text
  cases fault with
  | malformed => exact congrArg Except.error hrelocate
  | unbalanced => cases hrelocate
  | operand => cases hrelocate
  | tooDeep => cases hrelocate

end Source

/-- The attribution of a malformed text. The quoted fragment stands in the text. The fault names an
operator exactly if the innermost text has one, and otherwise it has no cause. If it names an
operator, then this is the operator `g` of an operand `o` of some window that is visited: its glyph
stands beside the operand, the cause is the fault of the fragment of the operand on its own, this
fault names no operator and has no cause itself, and the reason tells whether the operand is missing
or invalid. -/
theorem parse_malformed_attribution (t : String) (m : ParseFault) (fragment : String)
    (h : (Formula.parse t).result = .error m) (hm : m.fragment? = some fragment) :
    fragment.toList <:+: t.toList ∧
      (m.operator? = none ↔ NoOperator (innermost t.toList)) ∧
      (m.operator? = none → m.cause? = none) ∧
      ∀ g : Operator, m.operator? = some g →
        ∃ (left rest : Budget) (v : Window) (o : Operand) (c : ParseFault),
          (Source.ofString t).Visits nestingBudget (Source.ofString t).whole left v ∧
          (Source.ofString t).Begins left v rest o.window ∧
          o ∈ (Source.ofString t).operands v ∧ o.op = g ∧
          t.toList[o.glyphPosition]? = some g.glyph ∧
          m.cause? = some c ∧
          (Formula.parse ((Source.ofString t).fragment o.window)).result = .error c ∧
          c.operator? = none ∧ c.cause? = none ∧
          m.reason =
            if isAllBlank ((Source.ofString t).slice o.window) = true then
              s!"'{g.glyph}' is missing its {o.role.message}"
            else s!"'{g.glyph}' has an invalid {o.role.message} ({c.message})" := by
  have hwhole := Source.holds_whole t
  have hchars : (Source.ofString t).chars.toList = t.toList := by simp [Source.ofString]
  rw [Formula.parse, Formula.result_parseWithin] at h
  have hfails := Source.fails_of_read h
  have hsome : m.fragment?.isSome = true := by rw [hm, Option.isSome_some]
  have hbal : Balanced t.toList := by
    -- an unbalanced text is rejected for its parentheses, and nothing of it is quoted
    rw [← checkPairs_eq_ok_iff 0]
    cases hcheck : checkPairs 0 t.toList with
    | ok u => rfl
    | error imbalance =>
        rw [Source.read_whole_of_not_balanced hcheck] at h
        cases h
        cases hm
  refine ⟨?_, hfails.operator?_eq_none_iff hwhole hbal hsome, ?_, ?_⟩
  · rw [← hchars]
    exact hfails.fragment_infix fragment hm
  · intro hop
    cases m with
    | operand => cases hop
    | _ => rfl
  · intro g hg
    have hop : m.operator? ≠ none := by
      rw [hg]
      exact Option.some_ne_none g
    obtain ⟨v, o, rest, cause, hblames⟩ := hfails.exists_blames hwhole hbal hop
    obtain ⟨left, hvisits, hbegins⟩ := hblames.visited
    obtain ⟨defect, quoted, rfl⟩ := hblames.malformed
    obtain ⟨as, hv, has⟩ := hvisits.balanced hwhole hbal
    obtain ⟨bs, hwindow, -⟩ := hbegins.balanced hv
    -- the operand is entered with less than the whole budget, with which its fragment is read
    have hrest : rest.AtMost nestingBudget :=
      (Source.Visits.through hbegins .here).atMost.trans hvisits.atMost
    have hglyph := (hv.placed hblames.mem_operands).glyph
    obtain rfl := hblames.eq_operand
    cases hg
    refine ⟨left, rest, v, o, _, hvisits, hbegins, hblames.mem_operands, rfl, ?_, rfl,
      Source.result_parse_fragment hwindow hrest hblames.read, rfl, rfl, rfl⟩
    rw [← hchars, Array.getElem?_toList]
    exact hglyph

/-- The disjunction is blamed, not the negation or the conjunction around it. -/
theorem parse_missing_right_operand :
    (Formula.parse "p ∧ ¬( q ∨ )").result =
        .error (.operand (.binary .or) .right true "q ∨" (.malformed .emptyOperand "")) ∧
      ∃ (o : Operand) (c : ParseFault), o.op = .binary .or ∧
        "p ∧ ¬( q ∨ )".toList[o.glyphPosition]? = some '∨' ∧
        (Formula.parse ((Source.ofString "p ∧ ¬( q ∨ )").fragment o.window)).result = .error c ∧
        c.cause? = none := by
  have hresult : (Formula.parse "p ∧ ¬( q ∨ )").result =
      .error (.operand (.binary .or) .right true "q ∨" (.malformed .emptyOperand "")) := by
    decide +kernel
  obtain ⟨left, rest, v, o, c, -, -, -, hop, hglyph, -, hparse, -, hcause, -⟩ :=
    (parse_malformed_attribution _ _ _ hresult rfl).2.2.2 (.binary .or) rfl
  exact ⟨hresult, o, c, hop, hglyph, hparse, hcause⟩

end Sentential
