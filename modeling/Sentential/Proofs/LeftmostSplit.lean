import Sentential.Proofs.Reading

/-!
# Splitting a chain once or all at once

`Source.readLeftmost` reads a window as the parser does without a budget, except that it divides a
chain at its first split only, and reads everything after the split as the right operand. It trims,
checks and splits the rest of the chain again each time. The parser divides a chain at all its
splits at once.

Both give the same formulas, and their faults are of the same class, with the same reason, operator
and position (`parse_eq_parseLeftmost`). The faults of a chain that is read at once quote fragments
that may begin with blanks, where the other reader has trimmed them; `ParseFault.Similar` leaves
room for that, and for nothing else.
-/

namespace Sentential

open Text

/-- Reads a window without a budget. A chain is divided at its first split into two operands. -/
def Source.readLeftmost (text : Source) (w : Window) : Except ParseFault Formula :=
  match _h : text.shape w with
  | .unbalanced fault => .error (.unbalanced fault)
  | .blank => .error (.malformed .emptyOperand (text.fragment w))
  | .group inner => text.readLeftmost inner
  | .chain core first _ => do
      let before := leftOperand core core.start first
      let after := lastOperand core core.start first
      let left ← (text.readLeftmost before.window).mapError (before.attribute text)
      let right ← (text.readLeftmost after.window).mapError (after.attribute text)
      pure (.binary first.op left right)
  | .negation core =>
      let o := negatedOperand core
      ((text.readLeftmost o.window).mapError (o.attribute text)).map .neg
  | .buriedNegation core => .error (.malformed .textBeforeNegation (text.fragment core))
  | .leaf core =>
      match leaf (text.slice core) with
      | .ok f => .ok f
      | .error defect => .error (.malformed defect (text.fragment core))
termination_by w.size
decreasing_by
  · exact Source.shape_group_size_lt _h
  · obtain ⟨hle, hsplits⟩ := Source.shape_chain_bounds _h
    have := hsplits _ List.mem_cons_self
    simp only [leftOperand, Window.size] at *
    omega
  · obtain ⟨hle, hsplits⟩ := Source.shape_chain_bounds _h
    have := hsplits _ List.mem_cons_self
    simp only [lastOperand, Window.size] at *
    omega
  · exact Source.shape_negation_size_lt _h

/-- Reads normalized text without a budget, dividing chains at their first splits. -/
def Formula.parseLeftmost (s : String) : Except ParseFault Formula :=
  (Source.ofString s).readLeftmost (Source.ofString s).whole

/-- What a fault is apart from the fragments that it quotes. -/
inductive Complaint where
  | unbalanced (fault : Imbalance)
  | malformed (reason : String) (operator : Option Operator)
  | tooDeep (length : Nat)

/-- The class of a fault with its reason and operator; an imbalance has its position. -/
def ParseFault.complaint : ParseFault → Complaint
  | .unbalanced fault => .unbalanced fault
  | .malformed defect text => .malformed (ParseFault.malformed defect text).reason none
  | .operand op role missing text cause =>
      .malformed (ParseFault.operand op role missing text cause).reason (some op)
  | .tooDeep length => .tooDeep length

/-! ## Results that agree -/

/-- Faults that differ at most in the fragment of the operator, and in the cause of a missing
operand. -/
inductive ParseFault.Similar : ParseFault → ParseFault → Prop
  | unbalanced (fault : Imbalance) : Similar (.unbalanced fault) (.unbalanced fault)
  | malformed (defect : Defect) (text : String) :
      Similar (.malformed defect text) (.malformed defect text)
  | missing (op : Operator) (role : Role) (text text' : String) (cause cause' : ParseFault) :
      Similar (.operand op role true text cause) (.operand op role true text' cause')
  | invalid (op : Operator) (role : Role) (text text' : String) (cause : ParseFault) :
      Similar (.operand op role false text cause) (.operand op role false text' cause)

/-- Results that agree: the same formula, or similar faults. -/
inductive Agree : Except ParseFault Formula → Except ParseFault Formula → Prop
  | ok (f : Formula) : Agree (.ok f) (.ok f)
  | error {fault fault' : ParseFault} (h : fault.Similar fault') :
      Agree (.error fault) (.error fault')

theorem ParseFault.Similar.complaint_eq {fault fault' : ParseFault} (h : fault.Similar fault') :
    fault.complaint = fault'.complaint := by
  cases h <;> rfl

theorem Agree.mapError_complaint {x y : Except ParseFault Formula} (h : Agree x y) :
    x.mapError ParseFault.complaint = y.mapError ParseFault.complaint := by
  cases h with
  | ok f => rfl
  | error h => exact congrArg Except.error h.complaint_eq

theorem Agree.bind {x y : Except ParseFault Formula} {k k' : Formula → Except ParseFault Formula}
    (h : Agree x y) (hk : ∀ f, Agree (k f) (k' f)) : Agree (x >>= k) (y >>= k') := by
  cases h with
  | ok f => exact hk f
  | error h => exact .error h

theorem Agree.map {x y : Except ParseFault Formula} (h : Agree x y) (g : Formula → Formula) :
    Agree (x.map g) (y.map g) := by
  cases h with
  | ok f => exact .ok (g f)
  | error h => exact .error h

/-- Attributing similar faults to the same operand gives similar faults. -/
theorem Agree.attribute {x y : Except ParseFault Formula} (h : Agree x y) (text : Source)
    {o o' : Operand} (hop : o.op = o'.op) (hrole : o.role = o'.role)
    (hblank : isAllBlank (text.slice o.window) = isAllBlank (text.slice o'.window)) :
    Agree (x.mapError (o.attribute text)) (y.mapError (o'.attribute text)) := by
  have hattribute (cause : ParseFault) :
      ParseFault.Similar
        (.operand o.op o.role (isAllBlank (text.slice o.window)) (text.fragment o.context) cause)
        (.operand o'.op o'.role (isAllBlank (text.slice o'.window)) (text.fragment o'.context)
          cause) := by
    rw [hop, hrole, hblank]
    cases isAllBlank (text.slice o'.window) with
    | true => exact .missing _ _ _ _ _ _
    | false => exact .invalid _ _ _ _ _
  cases h with
  | ok f => exact .ok f
  | error h =>
      refine .error ?_
      cases h with
      | unbalanced fault => exact hattribute (.unbalanced fault)
      | malformed defect text => exact hattribute (.malformed defect text)
      | missing op role text text' cause cause' => exact .missing op role text text' cause cause'
      | invalid op role text text' cause => exact .invalid op role text text' cause

/-- A fault is attributed once. -/
theorem Operand.attribute_attribute (text : Source) (o o' : Operand) (fault : ParseFault) :
    o.attribute text (o'.attribute text fault) = o'.attribute text fault := by
  cases fault <;> rfl

/-! ## Reading, shape by shape -/

variable {text : Source}

theorem Source.readLeftmost_eq (text : Source) (w : Window) :
    text.readLeftmost w =
      match text.shape w with
      | .unbalanced fault => .error (.unbalanced fault)
      | .blank => .error (.malformed .emptyOperand (text.fragment w))
      | .group inner => text.readLeftmost inner
      | .chain core first _ => do
          let before := leftOperand core core.start first
          let after := lastOperand core core.start first
          let left ← (text.readLeftmost before.window).mapError (before.attribute text)
          let right ← (text.readLeftmost after.window).mapError (after.attribute text)
          pure (.binary first.op left right)
      | .negation core =>
          let o := negatedOperand core
          ((text.readLeftmost o.window).mapError (o.attribute text)).map .neg
      | .buriedNegation core => .error (.malformed .textBeforeNegation (text.fragment core))
      | .leaf core =>
          match leaf (text.slice core) with
          | .ok f => .ok f
          | .error defect => .error (.malformed defect (text.fragment core)) := by
  rw [readLeftmost]
  split <;> rename_i h <;> simp only [h]

/-- The faults of a chain name an operator, so that no other operator is blamed for them. -/
theorem Source.readLeftmost_mapError {w core : Window} {s : Split} {rest : List Split}
    (h : text.shape w = .chain core s rest) (o : Operand) :
    (text.readLeftmost w).mapError (o.attribute text) = text.readLeftmost w := by
  rw [readLeftmost_eq, h]
  dsimp only
  cases text.readLeftmost (leftOperand core core.start s).window with
  | error fault => exact congrArg Except.error (Operand.attribute_attribute text o _ fault)
  | ok left =>
      cases text.readLeftmost (lastOperand core core.start s).window with
      | error fault => exact congrArg Except.error (Operand.attribute_attribute text o _ fault)
      | ok right => rfl

theorem Source.readPart_none (text : Source) (cost : Nat) (o : Operand) :
    text.readPart none cost o = (text.read none o.window).mapError (o.attribute text) := rfl

/-! ## Windows with the same core -/

variable {w w' : Window} {cs cs' : List Char}

/-- The shape of a balanced window is the shape of its core. -/
theorem shape_eq_of_core_eq (hw : text.Holds w cs) (hw' : text.Holds w' cs') (hcs : Balanced cs)
    (hcs' : Balanced cs') (hcore : text.core w = text.core w') : text.shape w = text.shape w' := by
  have hcheck : text.checkWindow w = .ok () := by
    rw [Source.checkWindow, hw.slice_eq]
    exact (checkPairs_eq_ok_iff _ _).2 hcs
  have hcheck' : text.checkWindow w' = .ok () := by
    rw [Source.checkWindow, hw'.slice_eq]
    exact (checkPairs_eq_ok_iff _ _).2 hcs'
  simp only [Source.shape, hcheck, hcheck', hcore]

theorem shape_eq_blank (hw : text.Holds w cs) (hblank : isAllBlank cs = true) :
    text.shape w = .blank := by
  have hcheck : text.checkWindow w = .ok () := by
    rw [Source.checkWindow, hw.slice_eq]
    exact (checkPairs_eq_ok_iff _ _).2 (balanced_of_isAllBlank hblank)
  simp only [Source.shape, hcheck]
  exact if_pos ((Source.core_start_eq_stop_iff hw).2 hblank)

theorem shape_ne_blank (hw : text.Holds w cs) (hblank : isAllBlank cs = false) :
    text.shape w ≠ .blank := by
  intro h
  have hshape := hw.shapeOf_shape
  rw [h] at hshape
  cases hshape with
  | blank _ hb =>
      rw [hb] at hblank
      exact Bool.noConfusion hblank

/-- Blanks before a text that is not blank do not change the core of its window. -/
theorem core_eq_of_blank_append {start stop : Nat} {pre as : List Char}
    (hw : text.Holds ⟨start, stop⟩ (pre ++ as)) (hpre : isAllBlank pre = true)
    (has : isAllBlank as = false) :
    text.core ⟨start, stop⟩ = text.core ⟨start + pre.length, stop⟩ := by
  obtain ⟨pre', post, hpre', hpost, hsplit, htrimmed⟩ := exists_trim as
  have hne : trim as ≠ [] := by
    rw [Ne, trim_eq_nil_iff, has]
    exact Bool.false_ne_true
  have hwhole : text.Holds ⟨start, stop⟩ ((pre ++ pre') ++ trim as ++ post) := by
    rw [List.append_assoc, List.append_assoc, ← List.append_assoc pre', ← hsplit]
    exact hw
  have hright : text.Holds ⟨start + pre.length, stop⟩ (pre' ++ trim as ++ post) := by
    rw [← hsplit]
    exact hw.right
  rw [Source.core_eq hwhole (isAllBlank_append.2 ⟨hpre, hpre'⟩) hpost htrimmed hne,
    Source.core_eq hright hpre' hpost htrimmed hne, List.length_append]
  simp only [Nat.add_assoc]

/-- An operand is read in the same way without the blanks before it. -/
theorem agree_operand {start stop cost : Nat} {pre as : List Char} {o o' : Operand}
    (hw : text.Holds ⟨start, stop⟩ (pre ++ as)) (hpre : isAllBlank pre = true) (hbal : Balanced as)
    (h : Agree (text.read none ⟨start, stop⟩) (text.readLeftmost ⟨start, stop⟩))
    (ho : o.window = ⟨start, stop⟩) (ho' : o'.window = ⟨start + pre.length, stop⟩)
    (hop : o.op = o'.op) (hrole : o.role = o'.role) :
    Agree (text.readPart none cost o)
      ((text.readLeftmost o'.window).mapError (o'.attribute text)) := by
  have hright : text.Holds ⟨start + pre.length, stop⟩ as := hw.right
  have hslice : text.slice o.window = pre ++ as := by rw [ho, hw.slice_eq]
  have hslice' : text.slice o'.window = as := by rw [ho', hright.slice_eq]
  have hflag : isAllBlank (text.slice o.window) = isAllBlank (text.slice o'.window) := by
    rw [hslice, hslice', isAllBlank, List.all_append, show pre.all isBlank = true from hpre]
    rfl
  rw [Source.readPart_none]
  cases hblank : isAllBlank as with
  | true =>
      -- the operand is missing in either case, and the blanks are its text
      have hwhole : isAllBlank (pre ++ as) = true := isAllBlank_append.2 ⟨hpre, hblank⟩
      rw [ho, ho', Source.read_eq, shape_eq_blank hw hwhole, Source.readLeftmost_eq,
        shape_eq_blank hright hblank]
      refine .error ?_
      simp only [Operand.attribute, hflag, hslice', hblank, hop, hrole]
      exact .missing _ _ _ _ _ _
  | false =>
      have hshape := shape_eq_of_core_eq hw hright ((balanced_of_isAllBlank hpre).append hbal) hbal
        (core_eq_of_blank_append hw hpre hblank)
      have hread : text.readLeftmost ⟨start, stop⟩ =
          text.readLeftmost ⟨start + pre.length, stop⟩ := by
        have hne := shape_ne_blank hright hblank
        rw [Source.readLeftmost_eq, Source.readLeftmost_eq, hshape]
        cases hs : text.shape ⟨start + pre.length, stop⟩ with
        | blank => exact absurd hs hne
        | _ => rfl
      rw [hread] at h
      rw [ho, ho']
      exact h.attribute text hop hrole hflag

/-! ## Chains -/

/-- A chain without blanks at its end, seen from the start of one of its operands. The blanks before
the operand are trimmed, and the splits stay where they are. -/
theorem shape_eq_chain_of_splits {family : Family} {start stop : Nat} {pre body : List Char}
    {s : Split} {rest : List Split} (hw : text.Holds ⟨start, stop⟩ (pre ++ body))
    (hpre : isAllBlank pre = true) (hbody : Trimmed body) (hbal : Balanced body)
    (hloose : NothingLooser family body)
    (hsplits : splits family (start + pre.length) body = s :: rest) :
    text.shape ⟨start, stop⟩ = .chain ⟨start + pre.length, stop⟩ s rest := by
  have hne : body ≠ [] := by
    rintro rfl
    cases hsplits
  have htrim : trim (pre ++ body) = body := by
    rw [trim_append_left hpre, trim_of_trimmed hbody]
  have hwhole : text.Holds ⟨start, stop⟩ (pre ++ body ++ []) := by
    rw [List.append_nil]
    exact hw
  have hcore : text.core ⟨start, stop⟩ = ⟨start + pre.length, stop⟩ := by
    have hstop : stop = start + (pre ++ body).length := hw.stop_eq
    rw [Source.core_eq hwhole hpre isAllBlank_nil hbody hne, hstop, List.length_append,
      Nat.add_assoc]
  have hsplitsNe : splits family (start + pre.length) body ≠ [] := by
    rw [hsplits]
    exact List.cons_ne_nil s rest
  rw [← hcore]
  apply shape_eq_chain hw ((balanced_of_isAllBlank hpre).append hbal)
  rw [hcore, htrim, loosestSplits_eq hloose hsplitsNe, hsplits]

/-- What is left of a chain: no connective on its surface is looser than the family, and it ends
where the core of the chain ends, so not in a blank. -/
structure ChainRest (text : Source) (family : Family) (start stop : Nat) (cs : List Char) :
    Prop where
  holds : text.Holds ⟨start, stop⟩ cs
  balanced : Balanced cs
  nothingLooser : NothingLooser family cs
  visibleEnd : ∀ c ∈ cs.getLast?, isBlank c = false

/-- The results agree for windows that hold texts shorter than `n`. -/
def AgreeBelow (text : Source) (n : Nat) : Prop :=
  ∀ (w : Window) (cs : List Char), cs.length < n → text.Holds w cs →
    Agree (text.read none w) (text.readLeftmost w)

/-- The first operand of what is left of a chain is read alike, and what is left behind it is the
rest of the same chain. -/
theorem agree_leftOperand {n : Nat} (ih : AgreeBelow text n) {family : Family} {core : Window}
    {start : Nat} {cs : List Char} {s : Split} {rest : List Split} (hlen : cs.length ≤ n)
    (h : ChainRest text family start core.stop cs) (hsplits : splits family start cs = s :: rest) :
    ∃ (core' : Window) (bs : List Char), core'.stop = core.stop ∧
      text.shape ⟨start, core.stop⟩ = .chain core' s rest ∧
      Agree (text.readPart none chainCost (leftOperand core start s))
        ((text.readLeftmost (leftOperand core' core'.start s).window).mapError
          ((leftOperand core' core'.start s).attribute text)) ∧
      bs.length < n ∧ ChainRest text family (s.position + 1) core.stop bs ∧
      splits family (s.position + 1) bs = rest := by
  obtain ⟨as, bs, rfl, hpos, hfamily, has, hbs, hfree, hrest⟩ := splits_cons h.balanced hsplits
  -- one reader starts at the blanks before the operand, the other one after them
  obtain ⟨pre, as', hpre, rfl, hhead⟩ : ∃ pre as', isAllBlank pre = true ∧ as = pre ++ as' ∧
      ∀ c ∈ as'.head?, isBlank c = false := by
    obtain ⟨pre, hpre, hsplit, hhead⟩ := exists_trimLeft as
    exact ⟨pre, trimLeft as, hpre, hsplit, hhead⟩
  have hpreBal := balanced_of_isAllBlank hpre
  have hasBal : Balanced as' := (hpreBal.append_iff as').1 has
  have hwhole : pre ++ as' ++ s.op.glyph :: bs = pre ++ (as' ++ s.op.glyph :: bs) :=
    List.append_assoc pre as' _
  have hlast (xs : List Char) :
      (xs ++ s.op.glyph :: bs).getLast? = some (bs.getLast?.getD s.op.glyph) := by
    rw [List.getLast?_append, List.getLast?_cons]
    rfl
  have hbody : Trimmed (as' ++ s.op.glyph :: bs) := by
    constructor
    · intro c hc
      cases as' with
      | nil =>
          rw [← Option.some.inj hc]
          exact s.op.isBlank_glyph
      | cons d as' => exact hhead c hc
    · intro c hc
      rw [hlast] at hc
      apply h.visibleEnd c
      rw [hlast]
      exact hc
  have hbodyBal : Balanced (as' ++ s.op.glyph :: bs) :=
    hasBal.append ((balanced_cons_iff s.op.isPlain_glyph bs).2 hbs)
  have hloose : NothingLooser family (as' ++ s.op.glyph :: bs) := by
    intro looser hlt
    have := h.nothingLooser looser hlt
    rw [hwhole, freeOf_append hpreBal] at this
    exact this.2
  have hbodySplits : splits family (start + pre.length) (as' ++ s.op.glyph :: bs) = s :: rest := by
    rw [hwhole, splits_blank_append start hpre] at hsplits
    exact hsplits
  have hshape : text.shape ⟨start, core.stop⟩ = .chain ⟨start + pre.length, core.stop⟩ s rest := by
    refine shape_eq_chain_of_splits ?_ hpre hbody hbodyBal hloose hbodySplits
    rw [← hwhole]
    exact h.holds
  have hleft : text.Holds ⟨start, s.position⟩ (pre ++ as') := by
    rw [hpos]
    exact h.holds.left
  have hlength := hlen
  rw [List.length_append, List.length_cons] at hlength
  refine ⟨⟨start + pre.length, core.stop⟩, bs, rfl, hshape, ?_, by omega, ?_, hrest⟩
  · exact agree_operand hleft hpre hasBal (ih _ _ (by omega) hleft) rfl rfl rfl rfl
  · refine ⟨?_, hbs, (h.nothingLooser.parts has).2, ?_⟩
    · rw [hpos]
      exact h.holds.tail
    · intro c hc
      apply h.visibleEnd c
      rw [hlast, Option.mem_def.1 hc]
      rfl

/-- Reading a chain operand by operand agrees with dividing it at its first split, by induction on
the splits. -/
theorem agree_readChain {n : Nat} (ih : AgreeBelow text n) {family : Family} {core : Window}
    {rest : List Split} :
    ∀ {start : Nat} {cs : List Char} {s : Split}, cs.length ≤ n →
      ChainRest text family start core.stop cs → splits family start cs = s :: rest →
      Agree (text.readChain none core start s rest) (text.readLeftmost ⟨start, core.stop⟩) := by
  induction rest with
  | nil =>
      intro start cs s hlen h hsplits
      obtain ⟨core', bs, hstop, hshape, hleft, hbsLen, hbs, -⟩ :=
        agree_leftOperand ih hlen h hsplits
      -- nothing is left to split, so both readers take the rest as the last operand
      have hlast : Agree (text.readPart none chainCost (lastOperand core start s))
          ((text.readLeftmost (lastOperand core' core'.start s).window).mapError
            ((lastOperand core' core'.start s).attribute text)) := by
        have hwindow :
            (lastOperand core' core'.start s).window = (lastOperand core start s).window := by
          rw [lastOperand, lastOperand, hstop]
        rw [Source.readPart_none, hwindow]
        refine (ih _ bs hbsLen hbs.holds).attribute text rfl rfl ?_
        rw [hwindow]
      rw [Source.readLeftmost_eq, hshape, Source.readChain]
      exact hleft.bind fun left => hlast.bind fun right => .ok _
  | cons t rest ihr =>
      intro start cs s hlen h hsplits
      obtain ⟨core', bs, hstop, hshape, hleft, hbsLen, hbs, hrest⟩ :=
        agree_leftOperand ih hlen h hsplits
      have hchain := ihr (Nat.le_of_lt hbsLen) hbs hrest
      -- the right operand is a chain as well, so its faults are attributed already
      obtain ⟨core'', -, -, hshape'', -⟩ := agree_leftOperand ih (Nat.le_of_lt hbsLen) hbs hrest
      have hright : Agree (text.readChain none core (s.position + 1) t rest)
          ((text.readLeftmost (lastOperand core' core'.start s).window).mapError
            ((lastOperand core' core'.start s).attribute text)) := by
        have hwindow : (lastOperand core' core'.start s).window = ⟨s.position + 1, core.stop⟩ := by
          rw [lastOperand, hstop]
        rw [hwindow, Source.readLeftmost_mapError hshape'']
        exact hchain
      rw [Source.readLeftmost_eq, hshape, Source.readChain]
      exact hleft.bind fun left => hright.bind fun right => .ok _

/-! ## Whole texts -/

/-- One level of reading: the parts are shorter, and the results for them agree. -/
theorem agreeBelow_succ {n : Nat} (ih : AgreeBelow text n) : AgreeBelow text (n + 1) := by
  intro w cs hlen hw
  have htrimLen : (trim cs).length ≤ n :=
    Nat.le_trans (trim_length_le cs) (Nat.le_of_lt_succ hlen)
  have hcore := hw.core
  rw [Source.read_eq, Source.readLeftmost_eq]
  have hshape := hw.shapeOf_shape
  generalize text.shape w = shape at hshape ⊢
  cases hshape with
  | unbalanced => exact .error (.unbalanced _)
  | blank => exact .error (.malformed _ _)
  | buriedNegation => exact .error (.malformed _ _)
  | @group inner hbal htrim hinner =>
      rw [htrim] at hcore htrimLen
      have hlenInner : inner.length < n := by
        rw [List.cons_append, List.length_cons, List.length_append] at htrimLen
        omega
      exact ih _ inner hlenInner hcore.inside
  | @chain first rest hbal hsplits =>
      obtain ⟨hfamily, hloose⟩ := loosestSplits_cons hsplits
      have htrimmed := trimmed_trim cs
      have hbalTrim := (balanced_trim_iff cs).2 hbal
      have hrest :
          ChainRest text first.op.family (text.core w).start (text.core w).stop (trim cs) :=
        ⟨hcore, hbalTrim, hloose, htrimmed.2⟩
      have hchain := agree_readChain ih htrimLen hrest hfamily
      -- the core of the window is its own core, and a chain in the same way
      have hshapeCore : text.shape ⟨(text.core w).start, (text.core w).stop⟩ =
          .chain (text.core w) first rest :=
        shape_eq_chain_of_splits hcore isAllBlank_nil htrimmed hbalTrim hloose hfamily
      rw [Source.readLeftmost_eq, hshapeCore] at hchain
      exact hchain
  | @negation rest hbal htrim hfree =>
      have hoperand : text.Holds (negatedOperand (text.core w)).window rest := by
        rw [htrim] at hcore
        exact hcore.negatedOperand
      have hlenRest : rest.length < n := by
        rw [htrim, List.length_cons] at htrimLen
        omega
      exact ((ih _ rest hlenRest hoperand).attribute text rfl rfl rfl).map .neg
  | leaf =>
      dsimp only
      cases leaf (text.slice (text.core w)) with
      | ok f => exact .ok f
      | error defect => exact .error (.malformed _ _)

theorem agreeBelow (text : Source) (n : Nat) : AgreeBelow text n := by
  induction n with
  | zero => exact fun _ cs hlen => absurd hlen (Nat.not_lt_zero _)
  | succ n ih => exact agreeBelow_succ ih

/-- Dividing chains at all their splits at once refines dividing them at their first splits: without
a budget, both read the same texts, as the same formulas, and fail with the same class of fault,
reason, operator and position otherwise. -/
theorem parse_eq_parseLeftmost (s : String) :
    (Formula.parseWithin none s).result.mapError ParseFault.complaint =
      (Formula.parseLeftmost s).mapError ParseFault.complaint := by
  rw [Formula.result_parseWithin, Formula.parseLeftmost]
  exact (agreeBelow _ (s.toList.length + 1) _ s.toList (Nat.lt_succ_self _)
    (Source.holds_whole s)).mapError_complaint

/-- The fragments that are quoted may differ by the blanks before an operand. -/
example :
    (Formula.parseWithin none "a = = b").result.mapError ParseFault.message =
        .error "'=' is missing its left operand: ' = b'" ∧
      (Formula.parseLeftmost "a = = b").mapError ParseFault.message =
        .error "'=' is missing its left operand: '= b'" := by
  decide +kernel

end Sentential
