import Sentential.Proofs.Parsing

/-!
# Texts that stand for other texts

`StandsFor` says that one text can be put in the place of another one: both are derived with the
same tree, and the new text is nested deeper by a bounded amount. The relation passes from the parts
of a derivation to the whole, with one lemma for each constructor, and what stands for a text that
is read is read as the same formula (`StandsFor.parseWithin`).
-/

namespace Sentential

open Text

/-- The text `new` can stand for the text `old` at a level of the grammar. Both derive the same
tree, there is no connective on the surface of `new` of a family that is missing from the surface of
`old`, and `new` is nested deeper by `extra` at most, where `entry` is the cost of entering the rest
of a chain. -/
def StandsFor (level : Level) (entry extra : Nat) (new old : List Char) : Prop :=
  ∃ d d' : Derivation level, d.text = new ∧ d'.text = old ∧ d.tree = d'.tree ∧
    d.nestingFrom entry ≤ d'.nestingFrom entry + extra ∧
    ∀ family : Family, FreeOf family old → FreeOf family new

/-- Of two derivations of one text, at any two levels, neither is nested deeper than the other. -/
theorem Derivation.nesting_le_of_text_eq {level level' : Level} {d : Derivation level}
    {d' : Derivation level'} (h : d.text = d'.text) : d.nesting ≤ d'.nesting := by
  have htext : d.text = (String.ofList d'.text).toList := by rw [String.toList_ofList, h]
  have htext' : d'.text = (String.ofList d'.text).toList := String.toList_ofList.symm
  -- a budget that covers the nesting of the one reads the text, and so it covers that of the other
  have hcovers : Budget.Covers (some d'.nesting) d'.nesting := Nat.le_refl d'.nesting
  have hread := parseWithin_of_derivation (some d'.nesting) htext'
  rw [Budget.outcome, if_pos hcovers, parseWithin_of_derivation _ htext] at hread
  exact Budget.covers_of_outcome hread

namespace StandsFor

variable {level : Level} {family : Family} {op : Connective} {entry extra : Nat}
  {new old pre post pre' post' : List Char}

theorem lift (h : StandsFor family.tighter 0 extra new old) (entry : Nat) :
    StandsFor (.chain family) entry extra new old := by
  obtain ⟨d, d', hnew, hold, htree, hnesting, hfree⟩ := h
  refine ⟨.lift d, .lift d', hnew, hold, htree, ?_, hfree⟩
  rw [Derivation.nestingFrom, Derivation.nestingFrom]
  omega

/-- The first operand of a chain. -/
theorem link_left (hop : op.family = family) (h : StandsFor family.tighter 0 extra new old)
    (right : Derivation (.chain family)) (entry : Nat) :
    StandsFor (.chain family) entry extra (new ++ op.glyph :: right.text)
      (old ++ op.glyph :: right.text) := by
  obtain ⟨d, d', rfl, rfl, htree, hnesting, hfree⟩ := h
  refine ⟨.link op hop d right, .link op hop d' right, rfl, rfl, ?_, ?_, ?_⟩
  · rw [Derivation.tree, Derivation.tree, htree]
  · rw [Derivation.nestingFrom, Derivation.nestingFrom]
    omega
  · intro family' h
    rw [freeOf_append d'.balanced] at h
    rw [freeOf_append d.balanced]
    exact ⟨hfree family' h.1, h.2⟩

/-- The rest of a chain after its first operand. -/
theorem link_right (hop : op.family = family) (left : Derivation family.tighter)
    (h : StandsFor (.chain family) chainCost extra new old) (entry : Nat) :
    StandsFor (.chain family) entry extra (left.text ++ op.glyph :: new)
      (left.text ++ op.glyph :: old) := by
  obtain ⟨d, d', rfl, rfl, htree, hnesting, hfree⟩ := h
  refine ⟨.link op hop left d, .link op hop left d', rfl, rfl, ?_, ?_, ?_⟩
  · rw [Derivation.tree, Derivation.tree, htree]
  · rw [Derivation.nestingFrom, Derivation.nestingFrom]
    omega
  · intro family' h
    rw [freeOf_append left.balanced, freeOf_cons op.isPlain_glyph] at h ⊢
    exact ⟨h.1, h.2.1, hfree family' h.2.2⟩

/-- The operand of a negation. -/
theorem negation (hpre : isAllBlank pre = true) (h : StandsFor .operand 0 extra new old)
    (entry : Nat) :
    StandsFor .operand entry extra (pre ++ negationGlyph :: new) (pre ++ negationGlyph :: old) := by
  obtain ⟨d, d', rfl, rfl, htree, hnesting, -⟩ := h
  refine ⟨.negation ⟨pre, hpre⟩ d, .negation ⟨pre, hpre⟩ d', rfl, rfl, ?_, ?_, ?_⟩
  · rw [Derivation.tree, Derivation.tree, htree]
  · rw [Derivation.nestingFrom, Derivation.nestingFrom]
    omega
  · exact fun family' _ => (Derivation.negation ⟨pre, hpre⟩ d).freeOf_operand family'

/-- The inside of a group. -/
theorem group (hpre : isAllBlank pre = true) (hpost : isAllBlank post = true)
    (h : StandsFor (.chain .equality) 0 extra new old) (entry : Nat) :
    StandsFor .operand entry extra (pre ++ (openParen :: new ++ [closeParen]) ++ post)
      (pre ++ (openParen :: old ++ [closeParen]) ++ post) := by
  obtain ⟨d, d', rfl, rfl, htree, hnesting, -⟩ := h
  refine ⟨.group ⟨pre, hpre⟩ d ⟨post, hpost⟩, .group ⟨pre, hpre⟩ d' ⟨post, hpost⟩, rfl, rfl, htree,
    ?_, ?_⟩
  · rw [Derivation.nestingFrom, Derivation.nestingFrom]
    omega
  · exact fun family' _ => (Derivation.group ⟨pre, hpre⟩ d ⟨post, hpost⟩).freeOf_operand family'

/-- Blanks at the ends. -/
theorem pad (hpre : isAllBlank pre = true) (hpost : isAllBlank post = true)
    (hpre' : isAllBlank pre' = true) (hpost' : isAllBlank post' = true)
    (h : StandsFor level entry extra new old) :
    StandsFor level entry extra (pre ++ new ++ post) (pre' ++ old ++ post') := by
  obtain ⟨d, d', rfl, rfl, htree, hnesting, hfree⟩ := h
  obtain ⟨e, htext, htree₁, hnesting₁⟩ := d.exists_pad hpre hpost
  obtain ⟨e', htext', htree₂, hnesting₂⟩ := d'.exists_pad hpre' hpost'
  refine ⟨e, e', htext, htext', ?_, ?_, ?_⟩
  · rw [htree₁, htree, htree₂]
  · rwa [hnesting₁, hnesting₂]
  · intro family' h
    rw [freeOf_blank_append_iff hpre' hpost' d'.balanced] at h
    rw [freeOf_blank_append_iff hpre hpost d.balanced]
    exact hfree family' h

/-- A chain of any family is a text of the start symbol. -/
theorem raise (h : StandsFor (.chain family) 0 extra new old) :
    StandsFor (.chain .equality) 0 extra new old := by
  obtain ⟨d, d', rfl, rfl, htree, hnesting, hfree⟩ := h
  obtain ⟨e, htext, htree₁, hnesting₁⟩ := d.exists_raise
  obtain ⟨e', htext', htree₂, hnesting₂⟩ := d'.exists_raise
  refine ⟨e, e', htext, htext', ?_, ?_, hfree⟩
  · rw [htree₁, htree, htree₂]
  · rwa [show e.nestingFrom 0 = _ from hnesting₁, show e'.nestingFrom 0 = _ from hnesting₂]

/-- A text of the start symbol is one of the level below a family, if there is no connective of the
family and no looser one on the surface of the text that it stands for. -/
theorem descend (h : StandsFor (.chain .equality) 0 extra new old)
    (hloose : NothingLooser family old)
    (hfreeOld : FreeOf family old) : StandsFor family.tighter 0 extra new old := by
  obtain ⟨d, d', rfl, rfl, htree, hnesting, hfree⟩ := h
  have hlooseNew : NothingLooser family d.text := fun looser hlt => hfree looser (hloose looser hlt)
  obtain ⟨e, htext, htree₁⟩ := d.exists_descend_tighter hlooseNew (hfree family hfreeOld)
  obtain ⟨e', htext', htree₂⟩ := d'.exists_descend_tighter hloose hfreeOld
  refine ⟨e, e', htext, htext', ?_, ?_, hfree⟩
  · rw [htree₁, htree, htree₂]
  -- the levels are others, but the texts are not
  · have hle : e.nestingFrom 0 ≤ d.nestingFrom 0 := Derivation.nesting_le_of_text_eq htext
    have hle' : d'.nestingFrom 0 ≤ e'.nestingFrom 0 := Derivation.nesting_le_of_text_eq htext'.symm
    omega

/-- What stands for a text that is read is read as the same formula, unless its nesting exceeds the
budget. -/
theorem parseWithin {budget : Budget} {s : String} {f : Formula}
    (h : StandsFor (.chain .equality) 0 extra new s.toList)
    (hs : (Formula.parseWithin budget s).result = .ok f) :
    ∃ m n, budget.Covers m ∧ n ≤ m + extra ∧ ∀ budget' : Budget,
      (Formula.parseWithin budget' (String.ofList new)).result =
        budget'.outcome new.length n f := by
  obtain ⟨d, d', rfl, htext, htree, hnesting, -⟩ := h
  rw [parseWithin_of_derivation budget htext] at hs
  have hcovers := Budget.covers_of_outcome hs
  rw [Budget.outcome, if_pos hcovers, Except.ok.injEq] at hs
  refine ⟨d'.nesting, d.nesting, hcovers, hnesting, ?_⟩
  intro budget'
  rw [parseWithin_of_derivation budget' (d := d) String.toList_ofList.symm, String.length_ofList,
    htree, hs]

end StandsFor

/-- A derived text stands for itself. -/
theorem Derivation.standsFor {level : Level} (d : Derivation level) (entry : Nat) :
    StandsFor level entry 0 d.text d.text :=
  ⟨d, d, rfl, rfl, rfl, Nat.le_refl _, fun _ h => h⟩

/-- A group stands for the text inside its parentheses, at the cost of entering it. -/
theorem Derivation.standsFor_group (d : Derivation.Start) :
    StandsFor (.chain .equality) 0 groupCost (openParen :: d.text ++ [closeParen]) d.text := by
  refine ⟨(group noBlanks d noBlanks).ofOperand, d, List.append_nil _, rfl, rfl, ?_, ?_⟩
  · simp only [ofOperand, nestingFrom]
    omega
  · exact fun family _ => freeOf_group d.balanced family

/-- An operand as a text of the start symbol. -/
theorem StandsFor.ofOperand {extra : Nat} {new old : List Char}
    (h : StandsFor .operand 0 extra new old) :
    StandsFor (.chain .equality) 0 extra new old :=
  (@StandsFor.lift .conjunction extra new old h 0).raise

end Sentential
