import Sentential.Proofs.Atoms
import Sentential.Proofs.Reading

/-!
# Reading and the grammar

Reading a window finds the derivation of its text. If there is a derivation, reading fails by its
nesting alone, and otherwise builds the tree of the derivation (`Derivation.reads`); if reading
gives a formula, there is a derivation that builds it (`exists_derivation_of_read`). So the parser
accepts exactly the texts that the grammar derives (`parse_ok_iff_derives`).
-/

namespace Sentential

open Text

/-! ## Texts that agree up to blanks at the ends -/

section Trim

variable {cs ds : List Char}

theorem balanced_iff_of_trim_eq (h : trim cs = trim ds) : Balanced cs ↔ Balanced ds := by
  rw [← balanced_trim_iff cs, h, balanced_trim_iff]

theorem freeOf_iff_of_trim_eq (h : trim cs = trim ds) (hds : Balanced ds) (family : Family) :
    FreeOf family cs ↔ FreeOf family ds := by
  rw [← freeOf_trim_iff ((balanced_iff_of_trim_eq h).2 hds), h, freeOf_trim_iff hds]

/-- A text that agrees with a chain up to blanks is divided by the first connective of the chain. -/
theorem exists_split_of_trim_eq {as bs : List Char} {c : Char} (hc : isBlank c = false)
    (h : trim cs = trim (as ++ c :: bs)) :
    ∃ as' bs', cs = as' ++ c :: bs' ∧ trim as' = trim as ∧ trim bs' = trim bs := by
  obtain ⟨pre, post, hpre, hpost, hsplit, -⟩ := exists_trim cs
  rw [h, trim_append_cons hc] at hsplit
  refine ⟨pre ++ trimLeft as, trimRight bs ++ post, ?_, ?_, ?_⟩
  · simpa only [List.append_assoc, List.cons_append] using hsplit
  · rw [trim_append_left hpre, trim_trimLeft]
  · rw [← List.nil_append (trimRight bs), trim_append isAllBlank_nil hpost, trim_trimRight]

end Trim

/-! ## What the grammar derives is read -/

namespace Derivation

variable (text : Source)

/-- Every window with the text of the derivation is read as its tree, within the budget. For a
chain, this holds from any operand of the chain on. -/
structure Reads {level : Level} (d : Derivation level) : Prop where
  window : ∀ (budget : Budget) (w : Window) (cs : List Char), text.Holds w cs →
    trim cs = trim d.text → text.read budget w = budget.outcome text.size d.nesting d.tree
  chain : ∀ family : Family, level = .chain family →
    ∀ (budget : Budget) (core : Window) (start : Nat) (cs : List Char) (s : Split)
      (rest : List Split), text.Holds ⟨start, core.stop⟩ cs → trim cs = trim d.text →
      splits family start cs = s :: rest →
      text.readChain budget core start s rest =
        budget.outcome text.size (d.nestingFrom chainCost) d.tree

variable {text}

theorem reads_lift {family : Family} {d : Derivation family.tighter} (h : d.Reads text) :
    (lift d).Reads text where
  window budget w cs hw hcs := by
    rw [nesting, nestingFrom, Nat.zero_add]
    exact h.window budget w cs hw hcs
  chain family' hlevel budget core start cs s rest _ hcs hsplits := by
    rw [Level.chain.injEq] at hlevel
    subst hlevel
    -- there is no connective of the family to split at
    have hfree : FreeOf family cs :=
      (freeOf_iff_of_trim_eq hcs d.balanced family).2 d.freeOf_tighter
    rw [splits_eq_nil_iff.2 hfree] at hsplits
    exact absurd hsplits.symm (List.cons_ne_nil s rest)

theorem readChain_link {family : Family} {op : Connective} (hop : op.family = family)
    {left : Derivation family.tighter} {right : Derivation (.chain family)}
    (hl : left.Reads text) (hr : right.Reads text) (budget : Budget) (core : Window) (start : Nat)
    {cs : List Char} {s : Split} {rest : List Split} (hw : text.Holds ⟨start, core.stop⟩ cs)
    (hcs : trim cs = trim (link op hop left right).text)
    (hsplits : splits family start cs = s :: rest) :
    text.readChain budget core start s rest =
      budget.outcome text.size ((link op hop left right).nestingFrom chainCost)
        (link op hop left right).tree := by
  obtain ⟨as, bs, rfl, has, hbs⟩ := exists_split_of_trim_eq op.isBlank_glyph hcs
  have hasBal : Balanced as := (balanced_iff_of_trim_eq has).2 left.balanced
  have hasFree : FreeOf family as :=
    (freeOf_iff_of_trim_eq has left.balanced family).2 left.freeOf_tighter
  rw [splits_operand hasBal hasFree hop, List.cons.injEq] at hsplits
  obtain ⟨rfl, hrest⟩ := hsplits
  have hleft : text.readPart budget chainCost (leftOperand core start ⟨start + as.length, op⟩) =
      budget.outcome text.size (chainCost + left.nesting) left.tree :=
    Source.readPart_outcome fun b => hl.window b _ as hw.left has
  have hright : text.Holds ⟨start + as.length + 1, core.stop⟩ bs := hw.tail
  cases rest with
  | nil =>
      -- no connective is left, so the rest of the chain is its last operand
      have hfree : FreeOf family right.text :=
        (freeOf_iff_of_trim_eq hbs right.balanced family).1 (splits_eq_nil_iff.1 hrest)
      rw [Source.readChain, nestingFrom, right.nestingFrom_of_freeOf hfree]
      exact Budget.bind_outcome hleft
        (Source.readPart_outcome fun b => hr.window b _ bs hright hbs)
  | cons t rest =>
      rw [Source.readChain, nestingFrom]
      exact Budget.bind_outcome hleft
        (hr.chain family rfl budget core _ bs t rest hright hbs hrest)

theorem reads_link {family : Family} {op : Connective} (hop : op.family = family)
    {left : Derivation family.tighter} {right : Derivation (.chain family)}
    (hl : left.Reads text) (hr : right.Reads text) : (link op hop left right).Reads text where
  window budget w cs hw hcs := by
    have hbal : Balanced cs := (balanced_iff_of_trim_eq hcs).2 (link op hop left right).balanced
    have htrim : trim (trim cs) = trim (link op hop left right).text := (trim_trim cs).trans hcs
    have htrimBal : Balanced (trim cs) := (balanced_trim_iff cs).2 hbal
    have hfreeIff (looser : Family) :=
      freeOf_iff_of_trim_eq htrim (link op hop left right).balanced looser
    have hne : splits family (text.core w).start (trim cs) ≠ [] := by
      rw [Ne, splits_eq_nil_iff, hfreeIff family]
      exact not_freeOf_link hop left right
    have hloose : NothingLooser family (trim cs) := by
      intro looser hlt
      exact (hfreeIff looser).2 ((link op hop left right).nothingLooser looser hlt)
    -- the family of the level is the loosest one on the surface, so the shape is a chain of it
    obtain ⟨s, rest, hsplits⟩ := List.exists_cons_of_ne_nil hne
    have hloosest := loosestSplits_eq hloose hne
    rw [hsplits] at hloosest
    rw [Source.read_eq, shape_eq_chain hw hbal hloosest]
    exact readChain_link hop hl hr budget (text.core w) _ hw.core htrim hsplits
  chain family' hlevel budget core start cs s rest hw hcs hsplits := by
    rw [Level.chain.injEq] at hlevel
    subst hlevel
    exact readChain_link hop hl hr budget core start hw hcs hsplits

theorem reads_negation (pre : Blanks) {d : Derivation .operand} (h : d.Reads text) :
    (negation pre d).Reads text where
  window budget w cs hw hcs := by
    have hbal : Balanced cs := (balanced_iff_of_trim_eq hcs).2 (negation pre d).balanced
    have hfree (family : Family) : FreeOf family cs :=
      (freeOf_iff_of_trim_eq hcs (negation pre d).balanced family).2
        ((negation pre d).freeOf_operand family)
    have hpre : trimLeft pre = [] := by
      have := trimLeft_append pre.2 []
      rwa [List.append_nil] at this
    have htrim : trim cs = negationGlyph :: trimRight d.text := by
      rw [hcs, Derivation.text, trim_append_cons isBlank_negationGlyph, hpre, List.nil_append]
    have hcore : text.Holds (text.core w) (negationGlyph :: trimRight d.text) := by
      rw [← htrim]
      exact hw.core
    rw [Source.read_eq, shape_eq_negation hw hbal htrim hfree]
    have hpart : text.readPart budget negationCost (negatedOperand (text.core w)) =
        budget.outcome text.size (negationCost + d.nesting) d.tree :=
      Source.readPart_outcome fun b => h.window b _ _ hcore.negatedOperand (trim_trimRight d.text)
    simp only [hpart, Budget.outcome, nestingFrom, tree]
    split <;> rfl
  chain _ hlevel := Level.noConfusion hlevel

theorem reads_group (pre : Blanks) {d : Derivation.Start} (post : Blanks) (h : d.Reads text) :
    (group pre d post).Reads text where
  window budget w cs hw hcs := by
    have htrim : trim cs = openParen :: d.text ++ [closeParen] := by
      rw [hcs, Derivation.text]
      exact trim_append_of_trimmed pre.2 post.2
        (trimmed_between isBlank_openParen isBlank_closeParen d.text)
    have hcore : text.Holds (text.core w) (openParen :: d.text ++ [closeParen]) := by
      rw [← htrim]
      exact hw.core
    rw [Source.read_eq, shape_eq_group hw htrim d.balanced]
    exact Source.enter_outcome fun b => h.window b _ d.text hcore.inside rfl
  chain _ hlevel := Level.noConfusion hlevel

end Derivation

/-! ## Atoms and whole derivations -/

namespace Derivation

variable {text : Source}

theorem reads_atom (pre : Blanks) (a : Atom) (post : Blanks) : (atom pre a post).Reads text where
  window budget w cs hw hcs := by
    have hbal : Balanced cs := (balanced_iff_of_trim_eq hcs).2 (atom pre a post).balanced
    have hfree (family : Family) : FreeOf family cs :=
      (freeOf_iff_of_trim_eq hcs (atom pre a post).balanced family).2
        ((atom pre a post).freeOf_operand family)
    have htrim : trim cs = a.text := by
      rw [hcs, Derivation.text]
      exact trim_append_of_trimmed pre.2 post.2 a.trimmed
    obtain ⟨c, rest, htext, -, hopen, -⟩ := a.exists_head
    have hblank : isAllBlank cs = false := by
      rw [← Bool.not_eq_true]
      exact not_isAllBlank_of_trim (htrim.trans htext)
    have hgroup : ¬Grouped (trim cs) := by
      rintro ⟨inner, hinner, -⟩
      rw [htrim, htext, List.cons_append, List.cons.injEq] at hinner
      exact hopen hinner.1
    have hneg : negationGlyph ∉ surface (trim cs) := by
      rw [htrim]
      exact a.noOperator .negation
    -- no other shape fits the text of an atom
    rw [Source.read_eq, shape_eq_leaf hw hbal hblank hgroup hfree hneg]
    simp only [hw.core.slice_eq, htrim, a.leaf_text]
    rw [nesting, nestingFrom, tree, Budget.outcome, if_pos (Budget.covers_zero budget)]
  chain _ hlevel := Level.noConfusion hlevel

/-- What the grammar derives is read as the tree of the derivation, within the budget. -/
theorem reads {level : Level} (d : Derivation level) : d.Reads text := by
  induction d with
  | lift d ih => exact reads_lift ih
  | link op hop left right ihl ihr => exact reads_link hop ihl ihr
  | negation pre d ih => exact reads_negation pre ih
  | group pre d post ih => exact reads_group pre post ih
  | atom pre a post => exact reads_atom pre a post

end Derivation

/-! ## What is read is derived by the grammar -/

variable {text : Source}

/-- Formulas read from texts shorter than `n` come from derivations. -/
def DerivedBelow (text : Source) (n : Nat) : Prop :=
  ∀ (budget : Budget) (w : Window) (cs : List Char) (f : Formula), cs.length < n →
    text.Holds w cs → text.read budget w = .ok f →
    ∃ d : Derivation.Start, d.text = cs ∧ d.tree = f

theorem exists_derivation_of_readPart {n : Nat} (ih : DerivedBelow text n) {budget : Budget}
    {cost : Nat} {o : Operand} {cs : List Char} {f : Formula} (hlen : cs.length < n)
    (hw : text.Holds o.window cs) (h : text.readPart budget cost o = .ok f) :
    ∃ d : Derivation.Start, d.text = cs ∧ d.tree = f := by
  obtain ⟨left, hread⟩ := Source.exists_read_of_readPart h
  exact ih left o.window cs f hlen hw hread

/-- What is read operand by operand is derived as a chain, by induction on the splits. -/
theorem exists_derivation_of_readChain {n : Nat} (ih : DerivedBelow text n) {family : Family}
    {budget : Budget} {core : Window} {rest : List Split} :
    ∀ {start : Nat} {cs : List Char} {s : Split} {f : Formula}, cs.length ≤ n →
      text.Holds ⟨start, core.stop⟩ cs → Balanced cs → NothingLooser family cs →
      splits family start cs = s :: rest → text.readChain budget core start s rest = .ok f →
      ∃ d : Derivation (.chain family), d.text = cs ∧ d.tree = f := by
  -- the operand before the first split, whatever follows it
  have first {start : Nat} {as bs : List Char} {s : Split} {f : Formula}
      (hlen : (as ++ s.op.glyph :: bs).length ≤ n)
      (hw : text.Holds ⟨start, core.stop⟩ (as ++ s.op.glyph :: bs))
      (hpos : s.position = start + as.length) (hloose : NothingLooser family as)
      (hfree : FreeOf family as)
      (hread : text.readPart budget chainCost (leftOperand core start s) = .ok f) :
      ∃ d : Derivation family.tighter, d.text = as ∧ d.tree = f := by
    rw [List.length_append, List.length_cons] at hlen
    have hleft : text.Holds (leftOperand core start s).window as := by
      rw [leftOperand, hpos]
      exact hw.left
    obtain ⟨d, rfl, rfl⟩ := exists_derivation_of_readPart ih (by omega) hleft hread
    exact d.exists_descend_tighter hloose hfree
  induction rest with
  | nil =>
      intro start cs s f hlen hw hbal hloose hsplits hread
      obtain ⟨as, bs, rfl, hpos, hfamily, has, -, hasFree, hrest⟩ := splits_cons hbal hsplits
      obtain ⟨hasLoose, hbsLoose⟩ := hloose.parts has
      obtain ⟨leftTree, hleft, hread⟩ := Except.bind_eq_ok_iff.1 hread
      obtain ⟨rightTree, hright, hf⟩ := Except.bind_eq_ok_iff.1 hread
      obtain ⟨left, hltext, hltree⟩ := first hlen hw hpos hasLoose hasFree hleft
      have hlast : text.Holds (lastOperand core start s).window bs := by
        rw [lastOperand, hpos]
        exact hw.tail
      rw [List.length_append, List.length_cons] at hlen
      obtain ⟨d, rfl, rfl⟩ := exists_derivation_of_readPart ih (by omega) hlast hright
      obtain ⟨right, hrtext, hrtree⟩ := d.exists_descend hbsLoose
      refine ⟨.link s.op hfamily left right, ?_, ?_⟩
      · rw [Derivation.text, hltext, hrtext]
      · rw [Derivation.tree, hltree, hrtree]
        exact Except.ok.inj hf
  | cons t rest ihr =>
      intro start cs s f hlen hw hbal hloose hsplits hread
      obtain ⟨as, bs, rfl, hpos, hfamily, has, hbs, hasFree, hrest⟩ := splits_cons hbal hsplits
      obtain ⟨hasLoose, hbsLoose⟩ := hloose.parts has
      obtain ⟨leftTree, hleft, hread⟩ := Except.bind_eq_ok_iff.1 hread
      obtain ⟨rightTree, hright, hf⟩ := Except.bind_eq_ok_iff.1 hread
      obtain ⟨left, hltext, hltree⟩ := first hlen hw hpos hasLoose hasFree hleft
      have hchain : text.Holds ⟨s.position + 1, core.stop⟩ bs := by
        rw [hpos]
        exact hw.tail
      rw [List.length_append, List.length_cons] at hlen
      obtain ⟨right, hrtext, hrtree⟩ := ihr (by omega) hchain hbs hbsLoose hrest hright
      refine ⟨.link s.op hfamily left right, ?_, ?_⟩
      · rw [Derivation.text, hltext, hrtext]
      · rw [Derivation.tree, hltree, hrtree]
        exact Except.ok.inj hf

/-- If the core of a window is derived, so is the text of the window. -/
theorem exists_derivation_of_trim {level : Level} {cs : List Char} {f : Formula}
    (h : ∃ d : Derivation level, d.text = trim cs ∧ d.tree = f) :
    ∃ d : Derivation level, d.text = cs ∧ d.tree = f := by
  obtain ⟨d, htext, htree⟩ := h
  obtain ⟨pre, post, hpre, hpost, hsplit, -⟩ := exists_trim cs
  obtain ⟨d', htext', htree', -⟩ := d.exists_pad hpre hpost
  refine ⟨d', ?_, htree'.trans htree⟩
  rw [htext', htext]
  exact hsplit.symm

/-- One level of reading: the parts are shorter, and their derivations make up one of the whole. -/
theorem derivedBelow_succ {n : Nat} (ih : DerivedBelow text n) : DerivedBelow text (n + 1) := by
  intro budget w cs f hlen hw hread
  apply exists_derivation_of_trim
  have htrimLen : (trim cs).length ≤ n :=
    Nat.le_trans (trim_length_le cs) (Nat.le_of_lt_succ hlen)
  have hcore := hw.core
  have hfreeTrim (hbal : Balanced cs) (hfree : ∀ family : Family, FreeOf family cs)
      (family : Family) : FreeOf family (trim cs) :=
    (freeOf_trim_iff hbal).2 (hfree family)
  -- each shape that can be read says how its derivation is put together
  rw [Source.read_eq] at hread
  have hshape := hw.shapeOf_shape
  generalize text.shape w = shape at hshape hread
  cases hshape with
  | unbalanced => cases hread
  | blank => cases hread
  | buriedNegation => cases hread
  | @group inner hbal htrim hinner =>
      rw [htrim] at hcore htrimLen
      obtain ⟨left, hread⟩ := Source.exists_read_of_enter hread
      have hlenInner : inner.length < n := by
        rw [List.cons_append, List.length_cons, List.length_append] at htrimLen
        omega
      obtain ⟨d, rfl, rfl⟩ := ih left _ inner f hlenInner hcore.inside hread
      refine ⟨(Derivation.group noBlanks d noBlanks).ofOperand, ?_, rfl⟩
      rw [htrim]
      exact List.append_nil _
  | chain hbal hsplits =>
      obtain ⟨hfamily, hloose⟩ := loosestSplits_cons hsplits
      have hbalTrim := (balanced_trim_iff cs).2 hbal
      obtain ⟨d, htext, htree⟩ :=
        exists_derivation_of_readChain ih htrimLen hcore hbalTrim hloose hfamily hread
      obtain ⟨d', htext', htree', -⟩ := d.exists_raise
      exact ⟨d', htext'.trans htext, htree'.trans htree⟩
  | @negation rest hbal htrim hfree =>
      have hoperand : text.Holds (negatedOperand (text.core w)).window rest := by
        rw [htrim] at hcore
        exact hcore.negatedOperand
      obtain ⟨operand, hpart, rfl⟩ := Except.map_eq_ok_iff.1 hread
      have hlenRest : rest.length < n := by
        rw [htrim, List.length_cons] at htrimLen
        omega
      obtain ⟨d, rfl, rfl⟩ := exists_derivation_of_readPart ih hlenRest hoperand hpart
      have hfreeRest (family : Family) : FreeOf family d.text := by
        have := hfreeTrim hbal hfree family
        rw [htrim, freeOf_cons isPlain_negationGlyph] at this
        exact this.2
      obtain ⟨d', htext', htree'⟩ := d.exists_descend_operand hfreeRest
      refine ⟨(Derivation.negation noBlanks d').ofOperand, ?_, ?_⟩
      · rw [htrim, ← htext']
        rfl
      · rw [← htree']
        rfl
  | leaf hbal hblank hgroup hfree hneg =>
      have hbalTrim := (balanced_trim_iff cs).2 hbal
      have hne : trim cs ≠ [] := by
        rw [Ne, trim_eq_nil_iff, hblank]
        exact Bool.false_ne_true
      have hop (op : Operator) : op.glyph ∉ surface (trim cs) := by
        cases op with
        | negation => exact hneg
        | binary op => exact hfreeTrim hbal hfree op.family op rfl
      simp only [hcore.slice_eq] at hread
      split at hread
      next g hleaf =>
        obtain ⟨a, htext, htree⟩ := exists_atom_of_leaf hne hbalTrim hop hleaf
        refine ⟨(Derivation.ofAtom a).ofOperand, ?_, ?_⟩
        · rw [← htext]
          exact Derivation.text_ofAtom a
        · rw [← Except.ok.inj hread, ← htree]
          rfl
      next => cases hread

theorem derivedBelow (text : Source) (n : Nat) : DerivedBelow text n := by
  induction n with
  | zero => exact fun _ _ cs _ hlen => absurd hlen (Nat.not_lt_zero _)
  | succ n ih => exact derivedBelow_succ ih

/-- What is read as a formula is derived by the grammar. -/
theorem exists_derivation_of_read {budget : Budget} {w : Window} {cs : List Char} {f : Formula}
    (hw : text.Holds w cs) (h : text.read budget w = .ok f) :
    ∃ d : Derivation.Start, d.text = cs ∧ d.tree = f :=
  derivedBelow text (cs.length + 1) budget w cs f (Nat.lt_succ_self _) hw h

/-! ## Whole texts -/

/-- A text that is derived at any level is read as its tree, within the budget. -/
theorem parseWithin_of_derivation (budget : Budget) {level : Level} {s : String}
    {d : Derivation level} (h : d.text = s.toList) :
    (Formula.parseWithin budget s).result = budget.outcome s.length d.nesting d.tree := by
  have hw := Source.holds_whole s
  have hsize : (Source.ofString s).size = s.length := by
    simp [Source.ofString, Source.size, String.length_toList]
  rw [Formula.result_parseWithin, d.reads.window budget _ _ hw (congrArg trim h.symm), hsize]

theorem derives_of_parseWithin {budget : Budget} {s : String} {f : Formula}
    (h : (Formula.parseWithin budget s).result = .ok f) : Derives s f :=
  exists_derivation_of_read (Source.holds_whole s) h

/-- The parser accepts exactly what the grammar derives, and returns the tree of the only
derivation; a budget makes no difference but that a reading may fail by its nesting. -/
theorem parse_ok_iff_derives (s : String) (f : Formula) :
    ((Formula.parseWithin none s).result = .ok f ↔ Derives s f) ∧
      ((Formula.parse s).result = .ok f → Derives s f) ∧
      (Derives s f → (Formula.parse s).result = .ok f ∨
        (Formula.parse s).result = .error (.tooDeep s.length)) ∧
      ∀ d d' : Derivation.Start, d.text = s.toList → d'.text = s.toList → d = d' := by
  refine ⟨⟨derives_of_parseWithin, ?_⟩, derives_of_parseWithin, ?_, ?_⟩
  · rintro ⟨d, htext, rfl⟩
    rw [parseWithin_of_derivation none htext]
    rfl
  · rintro ⟨d, htext, rfl⟩
    rw [Formula.parse, parseWithin_of_derivation nestingBudget htext, Budget.outcome]
    split
    · exact Or.inl rfl
    · exact Or.inr rfl
  · intro d d' h h'
    exact Derivation.text_injective (h.trans h'.symm)

/-- A chain of mixed connectives with a negation, a group and a quoted name. -/
theorem derives_mixed_chain :
    (Formula.parse "p → ¬q ∧ (r = `s t`) ⊕ ⊤").result =
        .ok (.binary .implies (.var "p") (.binary .xor
          (.binary .and (.neg (.var "q")) (.binary .equals (.var "r") (.var "`s t`")))
          (.const true))) ∧
      Derives "p → ¬q ∧ (r = `s t`) ⊕ ⊤"
        (.binary .implies (.var "p") (.binary .xor
          (.binary .and (.neg (.var "q")) (.binary .equals (.var "r") (.var "`s t`")))
          (.const true))) := by
  have hread : (Formula.parse "p → ¬q ∧ (r = `s t`) ⊕ ⊤").result =
      .ok (.binary .implies (.var "p") (.binary .xor
        (.binary .and (.neg (.var "q")) (.binary .equals (.var "r") (.var "`s t`")))
        (.const true))) := by decide +kernel
  exact ⟨hread, (parse_ok_iff_derives _ _).2.1 hread⟩

end Sentential
