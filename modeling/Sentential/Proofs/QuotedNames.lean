import Sentential.Proofs.Failure
import Sentential.Proofs.RoundTrip
import Sentential.Proofs.Yield

/-!
# Quoted texts

A text between quotation marks is one lexeme, so that normalization leaves it as it is whatever
stands in it (`normalizedText_inQuotes`). The scans for parentheses and for operators look into it
all the same. A quoted text is therefore read as a name if its parentheses pair up and no operator
stands outside of them, and otherwise it is no formula at all (`parseLine_inQuotes`).
-/

namespace Sentential

open Text

/-- A text between quotation marks. -/
def inQuotes (s : String) : String := String.ofList (quoteMark :: s.toList ++ [quoteMark])

theorem toList_inQuotes (s : String) :
    (inQuotes s).toList = quoteMark :: s.toList ++ [quoteMark] := String.toList_ofList

/-! ## A quoted text is one lexeme -/

section Lexeme

variable {s : String}

theorem normalizedText_inQuotes (h : quoteMark ∉ s.toList) :
    normalizedText (inQuotes s) = inQuotes s := by
  rw [normalizedText_eq_self_iff, IsNormal, toList_inQuotes, normalChars, lexemes_quoted h]
  exact List.append_nil _

/-- A name in a formula is part of its content. -/
theorem length_le_of_mem_names {f : Formula} {name : String} (h : name ∈ f.names) :
    name.toList.length ≤ f.yield.length := by
  induction f with
  | const value => exact absurd h List.not_mem_nil
  | var name' => rw [List.mem_singleton.1 h, Formula.yield]
  | neg operand ih =>
      rw [Formula.yield, List.length_cons]
      exact Nat.le_succ_of_le (ih h)
  | binary op left right ihl ihr =>
      rw [Formula.yield, List.length_append, List.length_cons]
      rcases List.mem_append.1 h with hl | hr
      · exact Nat.le_trans (ihl hl) (Nat.le_add_right _ _)
      · have := ihr hr
        omega

/-- A formula whose whole content is a name is that name: an operator would add to the content. -/
theorem eq_var_of_yield {f : Formula} {name : String} (hmem : name ∈ f.names)
    (hyield : f.yield = name.toList) : f = .var name := by
  have hlength := congrArg List.length hyield
  cases f with
  | const value => exact absurd hmem List.not_mem_nil
  | var name' => rw [List.mem_singleton.1 hmem]
  | neg operand =>
      have hle : name.toList.length ≤ operand.yield.length := length_le_of_mem_names hmem
      rw [Formula.yield, List.length_cons] at hlength
      omega
  | binary op left right =>
      rw [Formula.yield, List.length_append, List.length_cons] at hlength
      rcases List.mem_append.1 hmem with hl | hr
      · have := length_le_of_mem_names hl
        omega
      · have := length_le_of_mem_names hr
        omega

/-- A quoted text is read as nothing but a name. -/
theorem eq_var_of_parse_inQuotes {f : Formula} (h : quoteMark ∉ s.toList)
    (hread : (Formula.parse (inQuotes s)).result = .ok f) : f = .var (inQuotes s) := by
  obtain ⟨d, htext, rfl⟩ := derives_of_parseWithin hread
  have hyields := d.yields
  rw [htext, toList_inQuotes, lexemes_quoted h] at hyields
  have hquoted := Yields.quotedName s.toList
  apply eq_var_of_yield
  · rw [← hyields.names, hquoted.names]
    exact List.mem_singleton.2 rfl
  · rw [← hyields.visible, hquoted.visible]
    rfl

end Lexeme

/-! ## What the scans see of it -/

/-- An atom between quotation marks is a quoted name. -/
theorem Atom.isQuotable_of_text {a : Atom} {inside : List Char}
    (h : a.text = quoteMark :: inside ++ [quoteMark]) : IsQuotable inside := by
  cases a with
  | const value =>
      have hlength := congrArg List.length h
      simp [text] at hlength
  | plain name hname =>
      have hmem : quoteMark ∈ name := by
        rw [show name = _ from h]
        exact List.mem_cons_self
      exact absurd rfl (hname.ordinary quoteMark hmem).2.2.1
  | quoted inside' hinside =>
      rw [text, List.cons_append, List.cons_append, List.cons.injEq] at h
      rwa [← List.append_cancel_right h.2]

/-- A quoted text without further quotation marks is read as a name exactly if it holds a visible
character, its parentheses pair up, and no operator stands outside of them. Nothing else is ever
read from it, and parentheses that do not pair up are reported as such. -/
theorem parseLine_inQuotes {s : String} (h : quoteMark ∉ s.toList) :
    (∀ f : Formula, (Formula.parseLine (inQuotes s)).result = .ok f ↔
        f = .var (inQuotes s) ∧ isAllBlank s.toList = false ∧ Balanced s.toList ∧
          ∀ op : Operator, op.glyph ∉ surface s.toList) ∧
      (¬Balanced s.toList → ∃ imbalance : Imbalance,
        (Formula.parseLine (inQuotes s)).result = .error (.unbalanced imbalance)) := by
  rw [result_parseLine, normalizedText_inQuotes h]
  constructor
  · intro f
    constructor
    · intro hread
      have hvar := eq_var_of_parse_inQuotes h hread
      rw [hvar] at hread
      -- the only atom with this text is a quoted name
      obtain ⟨a, htext, -⟩ := parse_name_iff.1 hread
      rw [toList_inQuotes] at htext
      have hquotable := Atom.isQuotable_of_text htext
      exact ⟨hvar, hquotable.visible, hquotable.balanced, hquotable.noOperator⟩
    · rintro ⟨rfl, hvisible, hbalanced, hop⟩
      exact parse_name_iff.2
        ⟨.quoted s.toList ⟨h, hvisible, hbalanced, hop⟩, (toList_inQuotes s).symm, rfl⟩
  · intro hbalanced
    rw [← balanced_quoted_iff, ← toList_inQuotes, ← checkPairs_eq_ok_iff 0] at hbalanced
    cases hcheck : checkPairs 0 (inQuotes s).toList with
    | ok u => exact absurd hcheck hbalanced
    | error imbalance =>
        refine ⟨imbalance, ?_⟩
        rw [Formula.parse, Formula.result_parseWithin]
        exact Source.read_whole_of_not_balanced hcheck

/-- A name with a keyword, a constant, a line end and an operator in parentheses. -/
theorem parseLine_inQuotes_parens :
    quoteMark ∉ "p and (q = r)\n⊤".toList ∧
      (Formula.parseLine (inQuotes "p and (q = r)\n⊤")).result =
        .ok (.var (inQuotes "p and (q = r)\n⊤")) := by
  have hquote : quoteMark ∉ "p and (q = r)\n⊤".toList := by decide
  refine ⟨hquote, ((parseLine_inQuotes hquote).1 _).2 ⟨rfl, by decide, by decide, ?_⟩⟩
  intro op
  rcases op with _ | op
  · decide
  · cases op <;> decide

/-- A connective between quotation marks divides the text. -/
theorem parseLine_inQuotes_connective :
    quoteMark ∉ "p=q".toList ∧ isAllBlank "p=q".toList = false ∧
      (Formula.parseLine (inQuotes "p=q")).result =
        .error (.operand (.binary .equals) .left false "`p=q`"
          (.malformed .unexpectedSymbol "`p")) := by
  decide +kernel

end Sentential
