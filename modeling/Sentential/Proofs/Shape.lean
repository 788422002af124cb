import Sentential.Proofs.Splits
import Sentential.Proofs.Window

/-!
# What the shape of a window says about its text

`ShapeOf` relates a text to the shapes of the windows that hold it. There is one constructor for
each shape, and it carries everything that the choice of this shape says about the text.
`shapeOf_shape` is the inversion of `Source.shape`. In the other direction, what is known about a
text decides the shape: `shape_eq_group`, `shape_eq_chain`, `shape_eq_negation` and `shape_eq_leaf`.
-/

namespace Sentential

open Text

/-- One pair of parentheses encloses everything else. -/
def Grouped (cs : List Char) : Prop :=
  ∃ inner, cs = openParen :: inner ++ [closeParen] ∧ Balanced inner

/-- A window that holds `cs` has the given shape because of what is in `cs`. -/
inductive ShapeOf (text : Source) (w : Window) (cs : List Char) : Shape → Prop
  | unbalanced {fault : Imbalance} :
      checkPairs w.start cs = .error fault → ShapeOf text w cs (.unbalanced fault)
  | blank : Balanced cs → isAllBlank cs = true → ShapeOf text w cs .blank
  | group {inner : List Char} :
      Balanced cs → trim cs = openParen :: inner ++ [closeParen] → Balanced inner →
      ShapeOf text w cs (.group (Source.inside (text.core w)))
  | chain {first : Split} {rest : List Split} :
      Balanced cs → loosestSplits (topLevelFrom (text.core w).start 0 (trim cs)) = first :: rest →
      ShapeOf text w cs (.chain (text.core w) first rest)
  | negation {rest : List Char} :
      Balanced cs → trim cs = negationGlyph :: rest → (∀ family : Family, FreeOf family cs) →
      ShapeOf text w cs (.negation (text.core w))
  | buriedNegation :
      Balanced cs → (∀ family : Family, FreeOf family cs) → negationGlyph ∈ surface (trim cs) →
      (∀ rest, trim cs ≠ negationGlyph :: rest) →
      ShapeOf text w cs (.buriedNegation (text.core w))
  | leaf :
      Balanced cs → isAllBlank cs = false → ¬Grouped (trim cs) →
      (∀ family : Family, FreeOf family cs) → negationGlyph ∉ surface (trim cs) →
      ShapeOf text w cs (.leaf (text.core w))

/-! ## Groups -/

/-- The outer characters of a text that begins and ends with a parenthesis. -/
theorem eq_of_outer_parens {cs : List Char} (hhead : cs.head? = some openParen)
    (hlast : cs.getLast? = some closeParen) :
    ∃ inner, cs = openParen :: inner ++ [closeParen] := by
  obtain ⟨rest, rfl⟩ := List.head?_eq_some_iff.1 hhead
  obtain ⟨init, hinit⟩ := List.getLast?_eq_some_iff.1 hlast
  cases init with
  | nil =>
      rw [List.nil_append, List.cons.injEq] at hinit
      exact absurd hinit.1 (by decide)
  | cons c inner =>
      rw [List.cons_append, List.cons.injEq] at hinit
      exact ⟨inner, by rw [hinit.2, List.cons_append]⟩

theorem Source.Holds.isGroup_iff {text : Source} {w : Window} {cs : List Char}
    (h : text.Holds w cs) : text.isGroup w = true ↔ Grouped cs := by
  have hcheck {inner : List Char} (hinner : cs = openParen :: inner ++ [closeParen]) :
      (text.checkWindow (Source.inside w)).isOk = true ↔ Balanced inner := by
    rw [hinner] at h
    rw [Source.checkWindow, h.inside.slice_eq]
    exact isOk_checkPairs_iff _ inner
  rw [Source.isGroup, Source.hasOuterParens, h.slice_eq]
  simp only [Bool.and_eq_true, beq_iff_eq]
  constructor
  · rintro ⟨⟨hhead, hlast⟩, hok⟩
    obtain ⟨inner, hinner⟩ := eq_of_outer_parens hhead hlast
    exact ⟨inner, hinner, (hcheck hinner).1 hok⟩
  · rintro ⟨inner, hinner, hbal⟩
    refine ⟨⟨?_, ?_⟩, (hcheck hinner).2 hbal⟩
    · rw [hinner]
      rfl
    · rw [hinner, List.getLast?_concat]

/-! ## Negations -/

theorem firstNegation?_eq_none_iff {position : Nat} {cs : List Char} :
    firstNegation? (topLevelFrom position 0 cs) = none ↔ negationGlyph ∉ surface cs := by
  rw [firstNegation?, Option.map_eq_none_iff, List.find?_eq_none, mem_surface_iff position]
  constructor
  · rintro h ⟨n, hn⟩
    exact h _ hn (beq_self_eq_true _)
  · rintro h ⟨n, c⟩ hmem hc
    rw [beq_iff_eq] at hc
    subst hc
    exact h ⟨n, hmem⟩

/-- The first negation stands at the start exactly if the text begins with it. -/
theorem firstNegation?_eq_start_iff {position : Nat} {cs : List Char} :
    firstNegation? (topLevelFrom position 0 cs) = some position ↔
      ∃ rest, cs = negationGlyph :: rest := by
  constructor
  · intro h
    obtain ⟨⟨n, c⟩, hfind, hn⟩ := Option.map_eq_some_iff.1 h
    have hc := List.find?_some hfind
    have hmem := List.mem_of_find?_eq_some hfind
    simp only at hn
    subst hn
    cases cs with
    | nil => exact absurd hmem List.not_mem_nil
    | cons d rest =>
        -- whatever stands behind the first character has a larger position
        have hbehind {depth : Nat} (hm : (n, c) ∈ topLevelFrom (n + 1) depth rest) : False := by
          have := (topLevelFrom_bounds hm).1
          simp only at this
          omega
        rcases paren_cases d with rfl | rfl | hd
        · rw [topLevelFrom_open] at hmem
          exact absurd hmem hbehind
        · rw [topLevelFrom_close] at hmem
          exact absurd hmem hbehind
        · rw [topLevelFrom_plain_zero hd] at hmem
          rcases List.mem_cons.1 hmem with heq | hm
          · rw [Prod.mk.injEq] at heq
            rw [beq_iff_eq] at hc
            refine ⟨rest, ?_⟩
            rw [← heq.2]
            exact congrArg (· :: rest) hc
          · exact absurd hm hbehind
  · rintro ⟨rest, rfl⟩
    rw [topLevelFrom_plain_zero isPlain_negationGlyph]
    simp only [firstNegation?, List.find?_cons, negationGlyph, beq_self_eq_true, Option.map_some]

/-- The operand of a negation holds the text after the negation. -/
theorem Source.Holds.negatedOperand {text : Source} {core : Window} {rest : List Char}
    (h : text.Holds core (negationGlyph :: rest)) :
    text.Holds (Sentential.negatedOperand core).window rest := by
  have hwhole : text.Holds ⟨core.start, core.stop⟩ ([] ++ negationGlyph :: rest) := h
  exact hwhole.tail

/-! ## The shape of a window -/

variable {text : Source} {w : Window} {cs : List Char}

/-- What the shape of a window says about its text. -/
theorem Source.Holds.shapeOf_shape (h : text.Holds w cs) : ShapeOf text w cs (text.shape w) := by
  have hcore := h.core
  have hfree (hbal : Balanced cs)
      (hsplits : loosestSplits (topLevelFrom (text.core w).start 0 (trim cs)) = []) :
      ∀ family : Family, FreeOf family cs :=
    fun family => (freeOf_trim_iff hbal).1 (loosestSplits_eq_nil_iff.1 hsplits family)
  -- follow the decisions of `Source.shape` and note what each says about the text
  rw [Source.shape, Source.checkWindow, h.slice_eq]
  split
  next fault hfault => exact .unbalanced hfault
  next hok =>
    have hbal := (checkPairs_eq_ok_iff _ _).1 hok
    dsimp only
    split
    next hempty => exact .blank hbal ((Source.core_start_eq_stop_iff h).1 hempty)
    next hne =>
      have hblank : isAllBlank cs = false := by
        rw [← Bool.not_eq_true]
        intro hb
        exact hne ((Source.core_start_eq_stop_iff h).2 hb)
      split
      next hgroup =>
        obtain ⟨inner, hinner, hbalInner⟩ := hcore.isGroup_iff.1 hgroup
        exact .group hbal hinner hbalInner
      next hgroup =>
        rw [Source.topLevel, hcore.slice_eq]
        split
        next first rest hsplits => exact .chain hbal hsplits
        next hsplits =>
          split
          next position hposition =>
            split
            next hstart =>
              rw [hstart] at hposition
              obtain ⟨rest, hrest⟩ := firstNegation?_eq_start_iff.1 hposition
              exact .negation hbal hrest (hfree hbal hsplits)
            next hstart =>
              refine .buriedNegation hbal (hfree hbal hsplits) ?_ ?_
              · by_contra hmem
                rw [firstNegation?_eq_none_iff.2 hmem] at hposition
                exact absurd hposition.symm (Option.some_ne_none _)
              · intro rest hrest
                have hfirst : firstNegation?
                    (topLevelFrom (text.core w).start 0 (trim cs)) = some (text.core w).start :=
                  firstNegation?_eq_start_iff.2 ⟨rest, hrest⟩
                rw [hfirst, Option.some.injEq] at hposition
                exact hstart hposition.symm
          next hnone =>
            exact .leaf hbal hblank (fun hg => hgroup (hcore.isGroup_iff.2 hg))
              (hfree hbal hsplits) (firstNegation?_eq_none_iff.1 hnone)

/-- Connectives on the surface can be looked for in the core. -/
theorem loosestSplits_core_eq_nil_iff {position : Nat} (hbal : Balanced cs) :
    loosestSplits (topLevelFrom position 0 (trim cs)) = [] ↔
      ∀ family : Family, FreeOf family cs := by
  rw [loosestSplits_eq_nil_iff]
  exact forall_congr' fun family => freeOf_trim_iff hbal

theorem Grouped.freeOf {cs : List Char} (h : Grouped cs) (family : Family) : FreeOf family cs := by
  obtain ⟨inner, rfl, hbal⟩ := h
  exact freeOf_group hbal family

theorem not_isAllBlank_of_trim {c : Char} {rest : List Char} (h : trim cs = c :: rest) :
    isAllBlank cs ≠ true := by
  intro hblank
  rw [trim_of_isAllBlank hblank] at h
  exact absurd h.symm (List.cons_ne_nil c rest)

theorem checkPairs_ne_error {start : Int} {fault : Imbalance} (hbal : Balanced cs) :
    checkPairs start cs ≠ .error fault := by
  intro h
  rw [(checkPairs_eq_ok_iff start cs).2 hbal] at h
  cases h

theorem shape_eq_group {inner : List Char} (h : text.Holds w cs)
    (htrim : trim cs = openParen :: inner ++ [closeParen]) (hinner : Balanced inner) :
    text.shape w = .group (Source.inside (text.core w)) := by
  have hgrouped : Grouped (trim cs) := ⟨inner, htrim, hinner⟩
  have hbal : Balanced cs := by
    rw [← balanced_trim_iff, htrim]
    exact hinner.group
  have hshape := h.shapeOf_shape
  generalize text.shape w = shape at hshape ⊢
  cases hshape with
  | unbalanced hfault => exact absurd hfault (checkPairs_ne_error hbal)
  | blank _ hblank => exact absurd hblank (not_isAllBlank_of_trim htrim)
  | group => rfl
  | chain _ hsplits =>
      rw [loosestSplits_eq_nil_iff.2 hgrouped.freeOf] at hsplits
      exact absurd hsplits.symm (List.cons_ne_nil _ _)
  | negation _ hneg =>
      rw [htrim, List.cons_append, List.cons.injEq] at hneg
      exact absurd hneg.1.symm negationGlyph_ne_openParen
  | buriedNegation _ _ hmem =>
      rw [htrim, surface_group hinner] at hmem
      exact absurd hmem List.not_mem_nil
  | leaf _ _ hnot => exact absurd hgrouped hnot

theorem shape_eq_chain {first : Split} {rest : List Split} (h : text.Holds w cs)
    (hbal : Balanced cs)
    (hsplits : loosestSplits (topLevelFrom (text.core w).start 0 (trim cs)) = first :: rest) :
    text.shape w = .chain (text.core w) first rest := by
  -- a connective on the surface rules out every shape but a chain
  have hnotFree : ¬∀ family : Family, FreeOf family cs := by
    intro hfree
    rw [(loosestSplits_core_eq_nil_iff hbal).2 hfree] at hsplits
    exact absurd hsplits.symm (List.cons_ne_nil _ _)
  have hshape := h.shapeOf_shape
  generalize text.shape w = shape at hshape ⊢
  cases hshape with
  | unbalanced hfault => exact absurd hfault (checkPairs_ne_error hbal)
  | blank _ hblank => exact absurd (freeOf_of_isAllBlank hblank) hnotFree
  | group _ htrim hinner =>
      apply absurd _ hnotFree
      intro family
      rw [← freeOf_trim_iff hbal]
      exact Grouped.freeOf ⟨_, htrim, hinner⟩ family
  | chain _ hsplits' =>
      rw [hsplits, List.cons.injEq] at hsplits'
      rw [hsplits'.1, hsplits'.2]
  | negation _ _ hfree => exact absurd hfree hnotFree
  | buriedNegation _ hfree => exact absurd hfree hnotFree
  | leaf _ _ _ hfree => exact absurd hfree hnotFree

theorem shape_eq_negation {rest : List Char} (h : text.Holds w cs) (hbal : Balanced cs)
    (htrim : trim cs = negationGlyph :: rest) (hfree : ∀ family : Family, FreeOf family cs) :
    text.shape w = .negation (text.core w) := by
  have hshape := h.shapeOf_shape
  generalize text.shape w = shape at hshape ⊢
  cases hshape with
  | unbalanced hfault => exact absurd hfault (checkPairs_ne_error hbal)
  | blank _ hblank => exact absurd hblank (not_isAllBlank_of_trim htrim)
  | group _ hgroup =>
      rw [htrim, List.cons_append, List.cons.injEq] at hgroup
      exact absurd hgroup.1 negationGlyph_ne_openParen
  | chain _ hsplits =>
      rw [(loosestSplits_core_eq_nil_iff hbal).2 hfree] at hsplits
      exact absurd hsplits.symm (List.cons_ne_nil _ _)
  | negation => rfl
  | buriedNegation _ _ _ hnot => exact absurd htrim (hnot rest)
  | leaf _ _ _ _ hnot =>
      rw [htrim, surface_cons isPlain_negationGlyph] at hnot
      exact absurd List.mem_cons_self hnot

theorem shape_eq_leaf (h : text.Holds w cs) (hbal : Balanced cs) (hblank : isAllBlank cs = false)
    (hgroup : ¬Grouped (trim cs)) (hfree : ∀ family : Family, FreeOf family cs)
    (hneg : negationGlyph ∉ surface (trim cs)) : text.shape w = .leaf (text.core w) := by
  have hshape := h.shapeOf_shape
  generalize text.shape w = shape at hshape ⊢
  cases hshape with
  | unbalanced hfault => exact absurd hfault (checkPairs_ne_error hbal)
  | blank _ hb =>
      rw [hb] at hblank
      exact Bool.noConfusion hblank
  | group _ htrim hinner => exact absurd ⟨_, htrim, hinner⟩ hgroup
  | chain _ hsplits =>
      rw [(loosestSplits_core_eq_nil_iff hbal).2 hfree] at hsplits
      exact absurd hsplits.symm (List.cons_ne_nil _ _)
  | negation _ htrim =>
      rw [htrim, surface_cons isPlain_negationGlyph] at hneg
      exact absurd List.mem_cons_self hneg
  | buriedNegation _ _ hmem => exact absurd hmem hneg
  | leaf => rfl

end Sentential
