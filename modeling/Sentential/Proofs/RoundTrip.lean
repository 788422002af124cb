import Sentential.Proofs.Parsing

/-!
# Reading what was written

A formula whose names are read as themselves is written as a text that is read as the formula again,
unless the text is nested too deeply (`parse_render`). The names of any formula that was read are
read as themselves. `Formula.nesting` is the nesting of the written text.
-/

namespace Sentential

open Text

/-- The nesting of the text of a formula. -/
def Formula.nesting : Formula → Nat
  | .const _ => 0
  | .var _ => 0
  | .neg operand => negationCost + operand.nesting
  | .binary _ left right => groupCost + (chainCost + max left.nesting right.nesting)

/-- A name is read as itself exactly if it is an atom. -/
theorem parse_name_iff {budget : Budget} {name : String} :
    (Formula.parseWithin budget name).result = .ok (.var name) ↔
      ∃ a : Atom, a.text = name.toList ∧ a.tree = .var name := by
  constructor
  · intro h
    obtain ⟨d, -, htree⟩ := derives_of_parseWithin h
    refine d.exists_atom_of_mem_names ?_
    rw [htree]
    exact List.mem_singleton.2 rfl
  · rintro ⟨a, htext, htree⟩
    have hd : (Derivation.ofAtom a).text = name.toList := (Derivation.text_ofAtom a).trans htext
    have htree' : (Derivation.ofAtom a).tree = .var name := htree
    rw [parseWithin_of_derivation budget hd, htree']
    exact if_pos (Budget.covers_zero budget)

/-- The text of a formula is derived as an operand, if the names of the formula are atoms. -/
theorem exists_derivation_render (f : Formula)
    (h : ∀ name ∈ f.names, ∃ a : Atom, a.text = name.toList ∧ a.tree = .var name) :
    ∃ d : Derivation .operand, d.text = f.render.toList ∧ d.tree = f ∧ d.nesting = f.nesting := by
  induction f with
  | const value =>
      refine ⟨.ofAtom (.const value), ?_, rfl, rfl⟩
      rw [Formula.render, String.toList_singleton]
      rfl
  | var name =>
      obtain ⟨a, htext, htree⟩ := h name (List.mem_singleton.2 rfl)
      refine ⟨.ofAtom a, ?_, htree, rfl⟩
      rw [Formula.render, ← htext, Derivation.text_ofAtom]
  | neg operand ih =>
      obtain ⟨d, htext, htree, hnesting⟩ := ih h
      refine ⟨.negation noBlanks d, ?_, ?_, ?_⟩
      · rw [Formula.render, String.toList_append, String.toList_singleton, ← htext]
        rfl
      · rw [Derivation.tree, htree]
      · rw [Formula.nesting, ← hnesting]
        rfl
  | binary op left right ihl ihr =>
      rw [Formula.names, List.forall_mem_append] at h
      obtain ⟨l, hltext, hltree, hlnesting⟩ := ihl h.1
      obtain ⟨r, hrtext, hrtree, hrnesting⟩ := ihr h.2
      obtain ⟨d, htext, htree, hnesting⟩ := Derivation.exists_binary op l r
      refine ⟨d, ?_, ?_, ?_⟩
      · rw [htext, hltext, hrtext, Formula.render]
        simp [String.toList_append, openParen, closeParen]
      · rw [htree, hltree, hrtree]
      · rw [hnesting, hlnesting, hrnesting, Formula.nesting]

/-- The text of a formula is read as the formula within a budget, if its names are atoms. -/
theorem parseWithin_render (budget : Budget) {f : Formula}
    (h : ∀ name ∈ f.names, ∃ a : Atom, a.text = name.toList ∧ a.tree = .var name) :
    (Formula.parseWithin budget f.render).result =
      budget.outcome f.render.length f.nesting f := by
  obtain ⟨d, htext, htree, hnesting⟩ := exists_derivation_render f h
  rw [parseWithin_of_derivation budget htext, htree, hnesting]

/-! ## Rendering is undone by reading -/

/-- Rendering is undone by reading, within any budget. A formula whose names are read as themselves
is read again from its text, unless the nesting of the text exceeds the budget; and the names of
every formula that was read are read as themselves. `Formula.parse` is the case of
`nestingBudget`. -/
theorem parse_render (budget : Budget) :
    (∀ f : Formula,
      (∀ name ∈ f.names, (Formula.parseWithin budget name).result = .ok (.var name)) →
        (Formula.parseWithin budget f.render).result =
          if budget.Covers f.nesting then .ok f else .error (.tooDeep f.render.length)) ∧
      ∀ (s : String) (f : Formula), (Formula.parseWithin budget s).result = .ok f →
        (∀ name ∈ f.names, (Formula.parseWithin budget name).result = .ok (.var name)) ∧
          (Formula.parseWithin budget f.render).result =
            if budget.Covers f.nesting then .ok f else .error (.tooDeep f.render.length) := by
  constructor
  · intro f hnames
    apply parseWithin_render budget
    intro name hname
    exact parse_name_iff.1 (hnames name hname)
  · intro s f hread
    -- the names of what was read are those of its derivation
    obtain ⟨d, -, rfl⟩ := derives_of_parseWithin hread
    have hatoms : ∀ name ∈ d.tree.names, ∃ a : Atom, a.text = name.toList ∧ a.tree = .var name :=
      fun name hn => d.exists_atom_of_mem_names hn
    refine ⟨?_, parseWithin_render budget hatoms⟩
    intro name hname
    exact parse_name_iff.2 (hatoms name hname)

/-- A formula over a quoted name, which hides an operator in parentheses of its own, and a name with
a symbol in it. -/
theorem parse_render_quoted_name :
    (Formula.parse "`(a=b) c`").result = .ok (.var "`(a=b) c`") ∧
      (Formula.parse "x-1").result = .ok (.var "x-1") ∧
      (Formula.parse (Formula.binary .and (.var "`(a=b) c`") (.neg (.var "x-1"))).render).result =
        .ok (.binary .and (.var "`(a=b) c`") (.neg (.var "x-1"))) := by
  have hquoted : (Formula.parse "`(a=b) c`").result = .ok (.var "`(a=b) c`") := by decide +kernel
  have hplain : (Formula.parse "x-1").result = .ok (.var "x-1") := by decide +kernel
  refine ⟨hquoted, hplain, ?_⟩
  refine ((parse_render nestingBudget).1 _ ?_).trans (if_pos (by decide))
  intro name hname
  rcases List.mem_cons.1 hname with rfl | hname
  · exact hquoted
  · rw [List.mem_singleton.1 hname]
    exact hplain

end Sentential
