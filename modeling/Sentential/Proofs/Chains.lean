import Sentential.Proofs.Parsing

/-!
# Chains of any length

A chain of one family costs one level of nesting, however many operands it has: if every operand is
read within what is left of the budget at that level, the chain is read, as the tree that nests its
operands to the right (`parse_chain`). The operands may be anything that does not split at the
family itself: groups, so that the chain may begin and end with parentheses that are no pair,
negations, or tighter chains.
-/

namespace Sentential

open Text

/-- A text that can be an operand of a chain: it is read as a formula within the budget, and no
connective of the family or of a looser one stands outside its parentheses. -/
structure ChainOperand (budget : Budget) (family : Family) where
  text : List Char
  tree : Formula
  read : (Formula.parseWithin budget (String.ofList text)).result = .ok tree
  free : ∀ looser : Family, family.strength ≤ looser.strength → FreeOf looser text

/-- A further operand of a chain, with the connective before it and the blanks around the
connective. -/
structure ChainLink (budget : Budget) (family : Family) where
  pre : Blanks
  op : Connective
  family_eq : op.family = family
  post : Blanks
  operand : ChainOperand budget family

variable {budget left : Budget} {family : Family}

/-- The text of a chain. -/
def ChainOperand.chainText (first : ChainOperand budget family) :
    List (ChainLink budget family) → List Char
  | [] => first.text
  | l :: links => first.text ++ l.pre ++ l.op.glyph :: (l.post ++ l.operand.chainText links)

/-- The tree of a chain: each connective joins the operand before it and the tree of all that
follows. -/
def ChainOperand.nestedTree (first : ChainOperand budget family) :
    List (ChainLink budget family) → Formula
  | [] => first.tree
  | l :: links => .binary l.op first.tree (l.operand.nestedTree links)

/-! ## The derivation of a chain -/

/-- An operand is derived at the level below the family of its chain, and its nesting is covered
there. -/
theorem ChainOperand.exists_derivation (o : ChainOperand left family) :
    ∃ d : Derivation family.tighter, d.text = o.text ∧ d.tree = o.tree ∧ left.Covers d.nesting := by
  obtain ⟨start, hstart, -⟩ := derives_of_parseWithin o.read
  rw [String.toList_ofList] at hstart
  have hloose : NothingLooser family start.text := by
    intro looser hlt
    rw [hstart]
    exact o.free looser (Nat.le_of_lt hlt)
  have hfree : FreeOf family start.text := by
    rw [hstart]
    exact o.free family (Nat.le_refl _)
  obtain ⟨d, htext, -⟩ := start.exists_descend_tighter hloose hfree
  -- the operand was read as the tree of this derivation, within its nesting
  have hoperand : d.text = (String.ofList o.text).toList := by
    rw [htext, hstart, String.toList_ofList]
  have hread := parseWithin_of_derivation left hoperand
  rw [o.read] at hread
  have hcovers := Budget.covers_of_outcome hread.symm
  rw [Budget.outcome, if_pos hcovers] at hread
  exact ⟨d, htext.trans hstart, (Except.ok.inj hread).symm, hcovers⟩

/-- A chain is derived, and its nesting is covered if that of every operand is. By induction on the
links: the first operand is put before the derivation of the rest of the chain. -/
theorem ChainOperand.exists_derivation_chain (hspend : budget.spend? chainCost = some left)
    (links : List (ChainLink left family)) :
    ∀ first : ChainOperand left family, ∃ d : Derivation (.chain family),
      d.text = first.chainText links ∧ d.tree = first.nestedTree links ∧
        budget.Covers (d.nestingFrom chainCost) := by
  induction links with
  | nil =>
      intro first
      obtain ⟨d, htext, htree, hcovers⟩ := first.exists_derivation
      refine ⟨.lift d, htext, htree, ?_⟩
      rw [Derivation.nestingFrom]
      exact (Budget.covers_iff_of_spend hspend _).1 hcovers
  | cons l links ih =>
      intro first
      obtain ⟨d, htext, htree, hcovers⟩ := first.exists_derivation
      obtain ⟨rest, hrtext, hrtree, hrcovers⟩ := ih l.operand
      -- the blanks around the connective belong to the operands on both sides
      obtain ⟨d', htext', htree', hnesting⟩ := d.exists_pad isAllBlank_nil l.pre.2
      obtain ⟨rest', hrtext', hrtree', hrnesting⟩ := rest.exists_pad l.post.2 isAllBlank_nil
      refine ⟨.link l.op l.family_eq d' rest', ?_, ?_, ?_⟩
      · simp only [Derivation.text, chainText, htext', htext, hrtext', hrtext, List.nil_append,
          List.append_nil]
      · rw [Derivation.tree, htree', htree, hrtree', hrtree, nestedTree]
      · rw [Derivation.nestingFrom, hnesting, hrnesting, Budget.covers_max_iff]
        exact ⟨(Budget.covers_iff_of_spend hspend _).1 hcovers, hrcovers⟩

/-! ## Reading a chain -/

/-- A chain of any length is read within a budget that covers each of its operands one level down,
whatever blanks stand around the connectives, as the tree that nests to the right. -/
theorem parse_chain (hspend : budget.spend? chainCost = some left)
    (first : ChainOperand left family) (links : List (ChainLink left family)) :
    (Formula.parseWithin budget (String.ofList (first.chainText links))).result =
      .ok (first.nestedTree links) := by
  obtain ⟨d, htext, htree, hcovers⟩ := first.exists_derivation_chain hspend links
  have hd : d.text = (String.ofList (first.chainText links)).toList :=
    htext.trans String.toList_ofList.symm
  have hnesting : budget.Covers d.nesting := hcovers.mono (d.nesting_le_nestingFrom chainCost)
  rw [parseWithin_of_derivation budget hd, htree, Budget.outcome, if_pos hnesting]

/-- A chain that begins and ends with parentheses that are no pair, with a negation in a tighter
chain between them. -/
theorem parse_chain_between_groups :
    (Formula.parse "(p = q)=¬r ∨ s  ≠ (t)").result =
      .ok (.binary .equals (.binary .equals (.var "p") (.var "q"))
        (.binary .notEquals (.binary .or (.neg (.var "r")) (.var "s")) (.var "t"))) := by
  have hspend : nestingBudget.spend? chainCost = some (some 982) := rfl
  -- no family is looser than that of the chain
  have free {text : List Char} (h : FreeOf .equality text) :
      ∀ looser : Family, Family.equality.strength ≤ looser.strength → FreeOf looser text := by
    intro looser hle
    cases looser with
    | equality => exact h
    | _ => exact absurd hle (by decide)
  have hread := parse_chain hspend
    ⟨"(p = q)".toList, .binary .equals (.var "p") (.var "q"), by decide +kernel,
      free (by decide +kernel)⟩
    [⟨noBlanks, .equals, rfl, noBlanks,
        "¬r ∨ s".toList, .binary .or (.neg (.var "r")) (.var "s"), by decide +kernel,
        free (by decide +kernel)⟩,
      ⟨⟨"  ".toList, by decide⟩, .notEquals, rfl, ⟨" ".toList, by decide⟩,
        "(t)".toList, .var "t", by decide +kernel, free (by decide +kernel)⟩]
  exact hread

end Sentential
