import Sentential.Proofs.FullTrees
import Sentential.Proofs.Runs
import Sentential.Proofs.Spelling

/-!
# Lines with very many names

The nesting of the text of `wide d` grows with `d` alone, although it has `2 ^ d` names. It is read
from its own text (`parseOn_render_wide`), and as a line of an input it ends a run whose limit has
no written number of rows, if its own number of rows has none (`run_wide_broken`).
-/

namespace Sentential

open Text

theorem nesting_fullTree (d : Nat) (name : Nat → String) :
    (fullTree d name).nesting = (groupCost + chainCost) * d := by
  induction d generalizing name with
  | zero => rfl
  | succ d ih =>
      rw [fullTree, Formula.nesting, ih, ih, Nat.max_self, Nat.mul_succ]
      omega

/-! ## Names of hyphens -/

/-- A name of hyphens is an atom. -/
theorem exists_atom_hyphens (n : Nat) :
    ∃ a : Atom, a.text = (hyphens n).toList ∧ a.tree = .var (hyphens n) := by
  have hplain : IsPlainName (List.replicate (n + 1) '-') := by
    constructor
    · exact List.cons_ne_nil _ _
    · intro c hc
      rw [List.eq_of_mem_replicate hc]
      decide +kernel
  refine ⟨.plain _ hplain, ?_, rfl⟩
  rw [hyphens, String.toList_ofList]
  rfl

theorem isNormal_hyphens (n : Nat) : IsNormal (hyphens n).toList := by
  rw [hyphens, String.toList_ofList]
  apply isNormal_of_forall_not_word
  intro c hc
  rw [List.eq_of_mem_replicate hc]
  decide +kernel

/-! ## Reading and running -/

/-- The text of a wide formula is read as the formula on a stack that has room for its nesting and a
record. -/
theorem parseOn_render_wide {d : Nat} {stack : Stack}
    (hd : (groupCost + chainCost) * d + stack.recordCost ≤ stack.frames) :
    (Formula.parseOn stack (normalizedText (wide d).render)).result = .ok (wide d) := by
  have hnames : ∀ name ∈ (wide d).names, ∃ n, hyphens n = name := by
    intro name hname
    rw [wide, names_fullTree] at hname
    obtain ⟨n, -, hn⟩ := List.mem_map.1 hname
    exact ⟨n, hn⟩
  have hatoms : ∀ name ∈ (wide d).names, ∃ a : Atom, a.text = name.toList ∧ a.tree = .var name := by
    intro name hname
    obtain ⟨n, rfl⟩ := hnames name hname
    exact exists_atom_hyphens n
  obtain ⟨e, htext, htree, -⟩ := exists_derivation_render (wide d) hatoms
  have hnormal : normalizedText (wide d).render = (wide d).render := by
    rw [normalizedText_eq_self_iff, ← htext, e.isNormal_iff, htree]
    intro name hname
    obtain ⟨n, rfl⟩ := hnames name hname
    exact isNormal_hyphens n
  have hread : (Formula.parseWithin (some ((groupCost + chainCost) * d)) (wide d).render).result =
      .ok (wide d) := by
    rw [parseWithin_render _ hatoms]
    apply if_pos
    rw [wide, nesting_fullTree]
    exact Nat.le_refl _
  rw [hnormal]
  rcases parseWithin_settles hd (wide d).render with ⟨fault, -, hfault⟩ | heq
  · rw [hread] at hfault
    cases hfault
  · rw [← heq, hread]

/-- A formula that is a conjunction has a text between parentheses. -/
theorem trimmed_render_binary (op : Connective) (left right : Formula) :
    trimmed (Formula.binary op left right).render = (Formula.binary op left right).render ∧
      (Formula.binary op left right).render.toList.head? = some openParen := by
  have htext : (Formula.binary op left right).render.toList =
      openParen :: (left.render.toList ++ [' ', op.glyph, ' '] ++ right.render.toList) ++
        [closeParen] := by
    rw [Formula.render]
    simp [String.toList_append, openParen, closeParen]
  constructor
  · rw [← String.toList_inj, toList_trimmed, htext]
    exact trim_of_trimmed (trimmed_between isBlank_openParen isBlank_closeParen _)
  · rw [htext]
    rfl

theorem trimmed_render_wide (d : Nat) :
    trimmed (wide (d + 1)).render = (wide (d + 1)).render := (trimmed_render_binary .and _ _).1

theorem isFormulaLine_render_wide (d : Nat) : isFormulaLine (wide (d + 1)).render = true := by
  have hhead : (wide (d + 1)).render.toList.head? = some openParen :=
    (trimmed_render_binary .and _ _).2
  rw [isFormulaLine_iff, trimmed_render_wide, hhead]
  constructor
  · intro hempty
    rw [hempty] at hhead
    cases hhead
  · decide

/-- A run ends at a line of which the number of rows cannot be written, if it cannot be written at
the limit either, whatever lines follow. -/
theorem run_wide_broken {d limit : Nat} {stack : Stack}
    (hd : (groupCost + chainCost) * (d + 1) + stack.recordCost < stack.frames)
    (hlimit : largestWritableExponent < limit) (hnames : largestWritableExponent < 2 ^ (d + 1))
    (palette : Palette) (rest : List String) :
    (run ⟨false, palette, limit⟩ stack ((wide (d + 1)).render :: rest)).broken.isSome = true ∧
      (run ⟨false, palette, limit⟩ stack ((wide (d + 1)).render :: rest)).processed = 1 ∧
      (run ⟨false, palette, limit⟩ stack ((wide (d + 1)).render :: rest)).stdout = "" := by
  have hroom : (groupCost + chainCost) * (d + 1) + stack.enter.recordCost ≤ stack.enter.frames :=
    Nat.le_sub_one_of_lt hd
  have hends : EndsRun ⟨false, palette, limit⟩ stack.enter ((wide (d + 1)).render, 1) := by
    apply endsRun_answerLine_iff.2
    rw [trimmed_render_wide]
    refine ⟨rfl, wide (d + 1), parseOn_render_wide hroom, ?_, ?_⟩
    · -- the height is bounded since the nesting is
      rw [height_wide]
      simp only [groupCost, chainCost, Stack.walkLimit] at hroom ⊢
      omega
    · rw [EvaluationFault.exists_refusal?_eq_unwritableRows_iff_of_nonneg
        (Int.natCast_nonneg limit),
        length_distinctNames_wide]
      exact ⟨hnames, Int.ofNat_lt.2 hlimit⟩
  exact run_of_endsRun (trimmed_render_wide d) (isFormulaLine_render_wide d) hends rest

/-- With the least limit for which the number of rows cannot be written, a conjunction of 16384
names is the last line of a run, and the constant after it is not processed. -/
theorem run_stops_at_wide_formula :
    let stack := Stack.ofLevel Severity.warning.number
    (numberedFormulas 1 [(wide 14).render, "true"]).length = 2 ∧
      (run ⟨false, .plain, 14285⟩ stack [(wide 14).render, "true"]).broken.isSome = true ∧
      (run ⟨false, .plain, 14285⟩ stack [(wide 14).render, "true"]).processed = 1 ∧
      (run ⟨false, .plain, 14285⟩ stack [(wide 14).render, "true"]).stdout = "" := by
  intro stack
  have hlimit : largestWritableExponent < 14285 := by decide
  refine ⟨?_, run_wide_broken (d := 13) (by decide) hlimit (by decide) .plain ["true"]⟩
  rw [numberedFormulas_cons, if_pos (isFormulaLine_render_wide 13), List.length_cons]
  decide +kernel

end Sentential
