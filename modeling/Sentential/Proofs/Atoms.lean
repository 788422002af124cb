import Sentential.Proofs.Grammar

/-!
# Leaves and atoms

A leaf that can be read is an atom of the grammar (`exists_atom_of_leaf`), and the text of an atom
is read as its formula (`Atom.leaf_text`).
-/

namespace Sentential

open Text

/-- A plain name does not stand between quotation marks. -/
theorem IsPlainName.isQuotedForm_eq_false {cs : List Char} (h : IsPlainName cs) :
    isQuotedForm cs = false := by
  obtain ⟨c, rest, rfl⟩ := List.exists_cons_of_ne_nil h.nonempty
  have hc : c ≠ quoteMark := (h.ordinary c List.mem_cons_self).2.2.1
  simp [isQuotedForm, hc]

theorem leaf_plain {cs : List Char} (h : IsPlainName cs) :
    leaf cs = .ok (.var (String.ofList cs)) := by
  have hquoted : isQuotedForm cs = false := h.isQuotedForm_eq_false
  have hconst (value : Bool) : cs ≠ [constGlyph value] := by
    rintro rfl
    exact glyph_ne_of_not_isReserved (h.ordinary _ List.mem_cons_self).2.2.2 (.const value) rfl
  have hforbidden : cs.any isForbidden = false := by
    rw [List.any_eq_false]
    intro c hc
    obtain ⟨-, hplain, hquote, hreserved⟩ := h.ordinary c hc
    simp [isForbidden, hplain.1, hplain.2, hquote, hreserved]
  have hblank : cs.any isBlank = false := by
    rw [List.any_eq_false]
    intro c hc
    rw [(h.ordinary c hc).1]
    exact Bool.false_ne_true
  simp only [leaf, hquoted, hconst, hforbidden, hblank, Bool.false_eq_true, if_false]

theorem isQuotedForm_iff {cs : List Char} :
    isQuotedForm cs = true ↔ ∃ inside, cs = quoteMark :: inside ++ [quoteMark] := by
  rw [isQuotedForm]
  simp only [Bool.and_eq_true, decide_eq_true_eq, beq_iff_eq]
  constructor
  · rintro ⟨⟨hlength, hhead⟩, hlast⟩
    obtain ⟨rest, rfl⟩ := List.head?_eq_some_iff.1 hhead
    obtain ⟨init, hinit⟩ := List.getLast?_eq_some_iff.1 hlast
    cases init with
    | nil =>
        rw [hinit] at hlength
        simp at hlength
    | cons c inside =>
        rw [List.cons_append, List.cons.injEq] at hinit
        exact ⟨inside, by rw [hinit.2, List.cons_append]⟩
  · rintro ⟨inside, rfl⟩
    refine ⟨⟨?_, rfl⟩, List.getLast?_concat⟩
    simp

theorem quotedInside_quoted (inside : List Char) :
    quotedInside (quoteMark :: inside ++ [quoteMark]) = inside := by
  rw [quotedInside, List.cons_append, List.tail_cons, List.dropLast_concat]

theorem leaf_quoted {inside : List Char} (h : IsQuotable inside) :
    leaf (quoteMark :: inside ++ [quoteMark]) =
      .ok (.var (String.ofList (quoteMark :: inside ++ [quoteMark]))) := by
  rw [leaf, isQuotedForm_iff.2 ⟨inside, rfl⟩, if_pos rfl, quotedInside_quoted, h.visible,
    if_neg Bool.false_ne_true, if_neg h.unquoted]

theorem Atom.leaf_text (a : Atom) : leaf a.text = .ok a.tree := by
  cases a with
  | const value => cases value <;> rfl
  | plain name h => exact leaf_plain h
  | quoted inside h => exact leaf_quoted h

/-- A leaf that can be read is an atom. -/
theorem exists_atom_of_leaf {cs : List Char} {f : Formula} (hne : cs ≠ []) (hbal : Balanced cs)
    (hop : ∀ op : Operator, op.glyph ∉ surface cs) (h : leaf cs = .ok f) :
    ∃ a : Atom, a.text = cs ∧ a.tree = f := by
  rw [leaf] at h
  split at h
  next hquoted =>
    obtain ⟨inside, rfl⟩ := isQuotedForm_iff.1 hquoted
    rw [quotedInside_quoted] at h
    split at h
    · cases h
    next hvisible =>
      split at h
      · cases h
      next hunquoted =>
        have hinside : Balanced inside := balanced_quoted_iff.1 hbal
        have hnoOperator (op : Operator) : op.glyph ∉ surface inside := by
          intro hmem
          refine hop op ?_
          rw [surface_quoted hinside]
          exact List.mem_append_left _ (List.mem_cons_of_mem _ hmem)
        rw [Bool.not_eq_true] at hvisible
        refine ⟨.quoted inside ⟨hunquoted, hvisible, hinside, hnoOperator⟩, rfl, ?_⟩
        rw [Atom.tree, Except.ok.inj h]
  next =>
    split at h
    next heq => exact ⟨.const true, heq.symm, Except.ok.inj h⟩
    next =>
      split at h
      next heq => exact ⟨.const false, heq.symm, Except.ok.inj h⟩
      next =>
        split at h
        · cases h
        next hforbidden =>
          split at h
          · cases h
          next hblank =>
            rw [Bool.not_eq_true, List.any_eq_false] at hforbidden hblank
            have hordinary : IsPlainName cs := by
              refine ⟨hne, ?_⟩
              intro c hc
              have hf := hforbidden c hc
              have hb := hblank c hc
              simp only [isForbidden, Bool.or_eq_true, beq_iff_eq, not_or,
                Bool.not_eq_true] at hf hb
              exact ⟨hb, ⟨hf.1.1.2, hf.1.2⟩, hf.2, hf.1.1.1⟩
            exact ⟨.plain cs hordinary, rfl, Except.ok.inj h⟩

end Sentential
