import Sentential.Proofs.Trimming

/-!
# Where a text is split

The loosest connectives on the surface of a text decide where the text is split. `NothingLooser`
says that no connective on the surface is looser than a family, and then `loosestSplits` selects the
connectives of the family (`loosestSplits_eq`, `loosestSplits_cons`). A text whose first split is
known falls apart into the text before the connective, which has no connective of the family on its
surface, and the text after it, whose splits are the remaining ones (`splits_cons`). Blanks before a
text change no split (`splits_blank_append`).
-/

namespace Sentential

open Text

/-- No connective of the family is on the surface of the text. -/
def FreeOf (family : Family) (cs : List Char) : Prop :=
  ∀ op : Connective, op.family = family → op.glyph ∉ surface cs

/-- No connective that is looser than the family is on the surface of the text. -/
def NothingLooser (family : Family) (cs : List Char) : Prop :=
  ∀ looser : Family, family.strength < looser.strength → FreeOf looser cs

/-- The splits of one family in a text that begins at a position. -/
def splits (family : Family) (position : Nat) (cs : List Char) : List Split :=
  (topLevelFrom position 0 cs).filterMap family.split?

/-- The character of negations. -/
abbrev negationGlyph : Char := Operator.negation.glyph

theorem isPlain_negationGlyph : IsPlain negationGlyph := by decide

theorem isBlank_negationGlyph : isBlank negationGlyph = false := by decide

theorem negationGlyph_ne_openParen : negationGlyph ≠ openParen := by decide

theorem Connective.isPlain_glyph (op : Connective) : IsPlain op.glyph :=
  Text.isPlain_glyph (.operator (.binary op))

theorem Connective.isBlank_glyph (op : Connective) : isBlank op.glyph = false :=
  Text.isBlank_glyph (.operator (.binary op))

theorem Connective.glyph_injective {op op' : Connective} (h : op.glyph = op'.glyph) : op = op' := by
  have := Connective.ofGlyph?_glyph op'
  rw [← h, Connective.ofGlyph?_glyph, Option.some.injEq] at this
  exact this

/-- A split of a family is a connective of the family at its position. -/
theorem Family.split?_eq_some_iff {family : Family} {position : Nat} {c : Char} {s : Split} :
    family.split? (position, c) = some s ↔
      s.position = position ∧ s.op.glyph = c ∧ s.op.family = family := by
  rw [Family.split?]
  cases hop : Connective.ofGlyph? c with
  -- a character that is no connective would have to be the glyph of one
  | none =>
      simp only [reduceCtorEq, false_iff, not_and]
      rintro - rfl
      rw [Connective.ofGlyph?_glyph] at hop
      exact absurd hop (Option.some_ne_none _)
  | some op =>
      have hglyph := Connective.glyph_of_ofGlyph? hop
      by_cases hfamily : op.family = family
      · simp only [if_pos hfamily, Option.some.injEq]
        constructor
        · rintro rfl
          exact ⟨rfl, hglyph, hfamily⟩
        · rintro ⟨hpos, hc, -⟩
          have := Connective.glyph_injective (hglyph.trans hc.symm)
          rw [this, ← hpos]
      · simp only [if_neg hfamily, reduceCtorEq, false_iff, not_and]
        rintro - hc hs
        have := Connective.glyph_injective (hglyph.trans hc.symm)
        rw [this] at hfamily
        exact hfamily hs

/-- There is nothing to split exactly if no connective of the family is on the surface. -/
theorem splits_eq_nil_iff {family : Family} {position : Nat} {cs : List Char} :
    splits family position cs = [] ↔ FreeOf family cs := by
  rw [splits, List.filterMap_eq_nil_iff]
  constructor
  · intro h op hop hmem
    obtain ⟨n, hn⟩ := (mem_surface_iff position).1 hmem
    have hsome : family.split? (n, op.glyph) = some ⟨n, op⟩ :=
      Family.split?_eq_some_iff.2 ⟨rfl, rfl, hop⟩
    rw [h _ hn] at hsome
    exact absurd hsome.symm (Option.some_ne_none _)
  · rintro h ⟨n, c⟩ hmem
    cases hs : family.split? (n, c) with
    | none => rfl
    | some s =>
        obtain ⟨-, hc, hop⟩ := Family.split?_eq_some_iff.1 hs
        refine absurd ?_ (h s.op hop)
        rw [hc]
        exact (mem_surface_iff position).2 ⟨n, hmem⟩

instance (family : Family) (cs : List Char) : Decidable (FreeOf family cs) :=
  decidable_of_iff (splits family 0 cs = []) splits_eq_nil_iff

/-! ## The loosest family -/

theorem Family.mem_looseFirst (family : Family) : family ∈ Family.looseFirst := by
  cases family <;> decide

/-- The families are tried from the loosest on, and the first one that occurs is taken. -/
theorem loosestSplits_topLevelFrom (position : Nat) (cs : List Char) :
    loosestSplits (topLevelFrom position 0 cs) =
      ((Family.looseFirst.map fun family => splits family position cs).find?
        fun splits => !splits.isEmpty).getD [] := rfl

/-- If nothing looser is on the surface, the splits of a family that occurs are the loosest ones. -/
theorem loosestSplits_eq {family : Family} {position : Nat} {cs : List Char}
    (hloose : NothingLooser family cs) (hne : splits family position cs ≠ []) :
    loosestSplits (topLevelFrom position 0 cs) = splits family position cs := by
  have hempty : ∀ looser : Family, family.strength < looser.strength →
      (splits looser position cs).isEmpty = true := by
    intro looser hlt
    rw [splits_eq_nil_iff.2 (hloose looser hlt), List.isEmpty_nil]
  have hfull : (splits family position cs).isEmpty = false := by
    rw [List.isEmpty_eq_false_iff]
    exact hne
  -- looser families are passed over because their lists of splits are empty
  rw [loosestSplits_topLevelFrom]
  cases family with
  | equality => simp [Family.looseFirst, hfull]
  | disjunction => simp [Family.looseFirst, hempty .equality (by decide), hfull]
  | conjunction =>
      simp [Family.looseFirst, hempty .equality (by decide), hempty .disjunction (by decide), hfull]

/-- Without connectives on the surface there is nothing to split. -/
theorem loosestSplits_eq_nil_iff {position : Nat} {cs : List Char} :
    loosestSplits (topLevelFrom position 0 cs) = [] ↔ ∀ family : Family, FreeOf family cs := by
  rw [loosestSplits_topLevelFrom]
  constructor
  · intro h family
    apply (@splits_eq_nil_iff family position cs).1
    cases hfind : (Family.looseFirst.map fun family => splits family position cs).find?
        fun splits => !splits.isEmpty with
    | none =>
        have hempty := List.find?_eq_none.1 hfind _ (List.mem_map_of_mem family.mem_looseFirst)
        simpa using hempty
    | some splits =>
        -- what is found is not empty
        have hfull := List.find?_some hfind
        rw [hfind, Option.getD_some] at h
        simp [h] at hfull
  · intro h
    simp [Family.looseFirst, splits_eq_nil_iff.2 (h _)]

/-- The first of the loosest splits tells the family of all of them. -/
theorem loosestSplits_cons {position : Nat} {cs : List Char} {first : Split} {rest : List Split}
    (h : loosestSplits (topLevelFrom position 0 cs) = first :: rest) :
    splits first.op.family position cs = first :: rest ∧ NothingLooser first.op.family cs := by
  -- a family that occurs and has nothing looser beside it is the family of the first split
  have key (family : Family) (hloose : NothingLooser family cs)
      (hne : splits family position cs ≠ []) :
      splits first.op.family position cs = first :: rest ∧ NothingLooser first.op.family cs := by
    rw [loosestSplits_eq hloose hne] at h
    have hmem : first ∈ splits family position cs := by
      rw [h]
      exact List.mem_cons_self
    obtain ⟨⟨n, c⟩, -, hfirst⟩ := List.mem_filterMap.1 hmem
    obtain ⟨-, -, hfamily⟩ := Family.split?_eq_some_iff.1 hfirst
    rw [hfamily]
    exact ⟨h, hloose⟩
  -- the families are tried from the loosest on, as the parser does
  by_cases he : splits .equality position cs = []
  · by_cases hd : splits .disjunction position cs = []
    · by_cases hc : splits .conjunction position cs = []
      · simp [loosestSplits_topLevelFrom, Family.looseFirst, he, hd, hc] at h
      · apply key .conjunction _ hc
        intro looser hlt
        cases looser with
        | equality => exact splits_eq_nil_iff.1 he
        | disjunction => exact splits_eq_nil_iff.1 hd
        | conjunction => exact absurd hlt (by decide)
    · apply key .disjunction _ hd
      intro looser hlt
      cases looser with
      | equality => exact splits_eq_nil_iff.1 he
      | disjunction => exact absurd hlt (by decide)
      | conjunction => exact absurd hlt (by decide)
  · apply key .equality _ he
    intro looser hlt
    cases looser <;> exact absurd hlt (by decide)

/-! ## Surfaces of composed texts -/

theorem freeOf_append {family : Family} {as : List Char} (h : Balanced as) (bs : List Char) :
    FreeOf family (as ++ bs) ↔ FreeOf family as ∧ FreeOf family bs := by
  simp only [FreeOf, surface_append h, List.mem_append, not_or, forall_and]

theorem freeOf_cons {family : Family} {c : Char} (hc : IsPlain c) (cs : List Char) :
    FreeOf family (c :: cs) ↔ (∀ op : Connective, op.family = family → op.glyph ≠ c) ∧
      FreeOf family cs := by
  simp only [FreeOf, surface_cons hc, List.mem_cons, not_or, forall_and]

/-- The parts beside a connective have nothing looser on their surfaces than the whole. -/
theorem NothingLooser.parts {family : Family} {as bs : List Char} {op : Connective}
    (has : Balanced as) (h : NothingLooser family (as ++ op.glyph :: bs)) :
    NothingLooser family as ∧ NothingLooser family bs := by
  have hparts (looser : Family) (hlt : family.strength < looser.strength) :
      FreeOf looser as ∧ FreeOf looser bs := by
    have hfree := h looser hlt
    rw [freeOf_append has, freeOf_cons op.isPlain_glyph] at hfree
    exact ⟨hfree.1, hfree.2.2⟩
  constructor
  · intro looser hlt
    exact (hparts looser hlt).1
  · intro looser hlt
    exact (hparts looser hlt).2

theorem freeOf_group {cs : List Char} (h : Balanced cs) (family : Family) :
    FreeOf family (openParen :: cs ++ [closeParen]) := by
  intro op _ hmem
  rw [surface_group h] at hmem
  exact List.not_mem_nil hmem

theorem freeOf_of_isAllBlank {cs : List Char} (h : isAllBlank cs = true) (family : Family) :
    FreeOf family cs := by
  intro op _ hmem
  rw [surface_of_forall_plain (isPlain_of_isAllBlank h)] at hmem
  have hblank := isAllBlank_iff.1 h _ hmem
  rw [op.isBlank_glyph] at hblank
  exact Bool.false_ne_true hblank

/-- Blanks at the ends do not matter for what is on the surface. -/
theorem freeOf_blank_append_iff {family : Family} {pre post cs : List Char}
    (hpre : isAllBlank pre = true) (hpost : isAllBlank post = true) (hcs : Balanced cs) :
    FreeOf family (pre ++ cs ++ post) ↔ FreeOf family cs := by
  have hbal := balanced_of_isAllBlank hpre
  rw [freeOf_append (hbal.append hcs), freeOf_append hbal]
  constructor
  · intro h
    exact h.1.2
  · intro h
    exact ⟨⟨freeOf_of_isAllBlank hpre family, h⟩, freeOf_of_isAllBlank hpost family⟩

theorem freeOf_trim_iff {family : Family} {cs : List Char} (h : Balanced cs) :
    FreeOf family (trim cs) ↔ FreeOf family cs := by
  obtain ⟨pre, post, hpre, hpost, hsplit, -⟩ := exists_trim cs
  conv_rhs => rw [hsplit]
  exact (freeOf_blank_append_iff hpre hpost ((balanced_trim_iff cs).2 h)).symm

theorem splits_append {as : List Char} (h : Balanced as) (family : Family) (position : Nat)
    (bs : List Char) :
    splits family position (as ++ bs) =
      splits family position as ++ splits family (position + as.length) bs := by
  rw [splits, topLevelFrom_append h, List.filterMap_append]
  rfl

/-- Blanks before a text change no split, but the text begins after them. -/
theorem splits_blank_append {family : Family} {pre : List Char} (position : Nat)
    (hpre : isAllBlank pre = true) (cs : List Char) :
    splits family position (pre ++ cs) = splits family (position + pre.length) cs := by
  rw [splits_append (balanced_of_isAllBlank hpre),
    splits_eq_nil_iff.2 (freeOf_of_isAllBlank hpre family), List.nil_append]

/-- The splits of a text whose first operand is given. -/
theorem splits_operand {family : Family} {as : List Char} (has : Balanced as)
    (hfree : FreeOf family as) {op : Connective} (hop : op.family = family) (position : Nat)
    (bs : List Char) :
    splits family position (as ++ op.glyph :: bs) =
      ⟨position + as.length, op⟩ :: splits family (position + as.length + 1) bs := by
  have hsplit : family.split? (position + as.length, op.glyph) = some ⟨position + as.length, op⟩ :=
    Family.split?_eq_some_iff.2 ⟨rfl, rfl, hop⟩
  rw [splits_append has, splits_eq_nil_iff.2 hfree, List.nil_append, splits,
    topLevelFrom_plain_zero op.isPlain_glyph, List.filterMap_cons_some hsplit]
  rfl

/-- The first split divides a text into its first operand and the rest of the chain. -/
theorem splits_cons {family : Family} {position : Nat} {cs : List Char} {s : Split}
    {rest : List Split} (hcs : Balanced cs) (h : splits family position cs = s :: rest) :
    ∃ as bs, cs = as ++ s.op.glyph :: bs ∧ s.position = position + as.length ∧
      s.op.family = family ∧ Balanced as ∧ Balanced bs ∧ FreeOf family as ∧
      splits family (s.position + 1) bs = rest := by
  obtain ⟨as, c, bs, hsplit, has, -, hbs, hs, hnone, hrest⟩ := topLevelFrom_filterMap_cons hcs h
  obtain ⟨hpos, hc, hfamily⟩ := Family.split?_eq_some_iff.1 hs
  refine ⟨as, bs, ?_, hpos, hfamily, has, hbs, splits_eq_nil_iff.1 hnone, ?_⟩
  · rw [hc]
    exact hsplit
  · rw [hpos]
    exact hrest

end Sentential
