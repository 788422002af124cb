import Sentential.Formula.Leaf
import Sentential.Formula.Source

/-!
# The shape of a window

`Source.shape` looks at one window of a source and says how it reads at its outermost level, without
looking into its parts: an enclosing pair of parentheses, a chain of connectives of one family, a
negation, or a leaf, or one of the faults that can be told at this level. Only characters outside
all parentheses count (`topLevel`). The parts that remain to be read are windows again, and each is
smaller than the window itself (`shape_group_size_lt`, `shape_chain_size_lt`,
`shape_negation_size_lt`).
-/

namespace Sentential

/-- The characters outside all parentheses, with their positions; the text begins at `position`,
inside `depth` open parentheses. Parentheses themselves are left out. -/
def topLevelFrom (position depth : Nat) : List Char → List (Nat × Char)
  | [] => []
  | c :: rest =>
      if c = openParen then topLevelFrom (position + 1) (depth + 1) rest
      else if c = closeParen then topLevelFrom (position + 1) (depth - 1) rest
      else if depth = 0 then (position, c) :: topLevelFrom (position + 1) depth rest
      else topLevelFrom (position + 1) depth rest

/-- The characters of a window outside all parentheses, with their positions. -/
def Source.topLevel (text : Source) (w : Window) : List (Nat × Char) :=
  topLevelFrom w.start 0 (text.slice w)

/-- A place where a window can be split: the position of a connective. -/
structure Split where
  position : Nat
  op : Connective
  deriving DecidableEq

/-- The split at a character, if it is a connective of the family. -/
def Family.split? (family : Family) (mark : Nat × Char) : Option Split :=
  match Connective.ofGlyph? mark.2 with
  | some op => if op.family = family then some ⟨mark.1, op⟩ else none
  | none => none

/-- The splits of the loosest family that occurs. -/
def loosestSplits (marks : List (Nat × Char)) : List Split :=
  let splits := Family.looseFirst.map fun family => marks.filterMap family.split?
  (splits.find? fun s => !s.isEmpty).getD []

/-- The position of the first negation among some characters. -/
def firstNegation? (marks : List (Nat × Char)) : Option Nat :=
  (marks.find? fun mark => mark.2 == Operator.negation.glyph).map Prod.fst

/-- How a window reads at its outermost level. `core` is the window without the blanks at its
ends. -/
inductive Shape where
  /-- The parentheses do not pair up. -/
  | unbalanced (fault : Imbalance)
  /-- There is nothing but blanks. -/
  | blank
  /-- One pair of parentheses encloses everything else. -/
  | group (inner : Window)
  /-- Operands with connectives of one family between them. -/
  | chain (core : Window) (first : Split) (rest : List Split)
  /-- A negation. -/
  | negation (core : Window)
  /-- A negation with text before it. -/
  | buriedNegation (core : Window)
  /-- A constant or a name. -/
  | leaf (core : Window)
  deriving DecidableEq

namespace Source

/-- A window inside parentheses: both of its outer characters removed. -/
def inside (w : Window) : Window := ⟨w.start + 1, w.stop - 1⟩

/-- The first character of the window is an opening and the last a closing parenthesis. -/
def hasOuterParens (text : Source) (w : Window) : Bool :=
  let cs := text.slice w
  cs.head? == some openParen && cs.getLast? == some closeParen

/-- The outer parentheses of the window are one pair: without them the rest is still balanced. -/
def isGroup (text : Source) (w : Window) : Bool :=
  text.hasOuterParens w && (text.checkWindow (inside w)).isOk

/-- The outer characters of the window are parentheses that belong to different pairs. -/
def keepsOuterParens (text : Source) (w : Window) : Bool :=
  text.hasOuterParens w && !(text.checkWindow (inside w)).isOk

/-- How a window reads at its outermost level. -/
def shape (text : Source) (w : Window) : Shape :=
  match text.checkWindow w with
  | .error fault => .unbalanced fault
  | .ok () =>
      let core := text.core w
      if core.start = core.stop then .blank
      else if text.isGroup core then .group (inside core)
      else
        let marks := text.topLevel core
        match loosestSplits marks with
        | first :: rest => .chain core first rest
        | [] =>
            match firstNegation? marks with
            | some position =>
                if position = core.start then .negation core else .buriedNegation core
            | none => .leaf core

end Source

/-! ## Operands -/

/-- An operand of an operator: where it stands, and the fragment that is quoted when it fails. -/
structure Operand where
  window : Window
  op : Operator
  role : Role
  context : Window
  deriving DecidableEq

/-- The operands before the splits of a chain; the first one begins at `start`. -/
def leftOperands (core : Window) (start : Nat) : List Split → List (Connective × Operand)
  | [] => []
  | s :: rest =>
      (s.op, ⟨⟨start, s.position⟩, .binary s.op, .left, ⟨start, core.stop⟩⟩)
        :: leftOperands core (s.position + 1) rest

/-- The operand after the last split of a chain; the operand before the split `s` begins at
`start`. -/
def rightOperand (core : Window) (start : Nat) (s : Split) : List Split → Operand
  | [] => ⟨⟨s.position + 1, core.stop⟩, .binary s.op, .right, ⟨start, core.stop⟩⟩
  | t :: rest => rightOperand core (s.position + 1) t rest

/-- The operand of a negation. -/
def negatedOperand (core : Window) : Operand :=
  ⟨⟨core.start + 1, core.stop⟩, .negation, .only, core⟩

/-! ## The parts are smaller -/

theorem topLevelFrom_bounds {position depth : Nat} {cs : List Char} {mark : Nat × Char}
    (h : mark ∈ topLevelFrom position depth cs) :
    position ≤ mark.1 ∧ mark.1 < position + cs.length := by
  induction cs generalizing position depth with
  | nil => simp [topLevelFrom] at h
  | cons c rest ih =>
      simp only [topLevelFrom] at h
      have step {d : Nat} (h : mark ∈ topLevelFrom (position + 1) d rest) :
          position ≤ mark.1 ∧ mark.1 < position + (c :: rest).length := by
        have := ih h
        simp only [List.length_cons]
        omega
      split at h
      · exact step h
      · split at h
        · exact step h
        · split at h
          · rcases List.mem_cons.1 h with rfl | h
            · simp
            · exact step h
          · exact step h

theorem Family.split?_position {family : Family} {mark : Nat × Char} {s : Split}
    (h : family.split? mark = some s) : s.position = mark.1 := by
  simp only [Family.split?] at h
  split at h
  · split at h
    · simp only [Option.some.injEq] at h
      rw [← h]
    · simp at h
  · simp at h

theorem mem_loosestSplits {marks : List (Nat × Char)} {s : Split} (h : s ∈ loosestSplits marks) :
    ∃ mark ∈ marks, ∃ family : Family, family.split? mark = some s := by
  rw [loosestSplits] at h
  cases hfind : (Family.looseFirst.map fun family => marks.filterMap family.split?).find?
      fun splits => !splits.isEmpty with
  | none =>
      rw [hfind] at h
      exact absurd h List.not_mem_nil
  | some splits =>
      rw [hfind] at h
      obtain ⟨family, -, rfl⟩ := List.mem_map.1 (List.mem_of_find?_eq_some hfind)
      obtain ⟨mark, hmark, hs⟩ := List.mem_filterMap.1 h
      exact ⟨mark, hmark, family, hs⟩

theorem leftOperands_size_lt {core : Window} {start : Nat} {splits : List Split}
    (hstart : core.start ≤ start)
    (hsplits : ∀ s ∈ splits, core.start ≤ s.position ∧ s.position < core.stop)
    {p : Connective × Operand} (h : p ∈ leftOperands core start splits) :
    p.2.window.size < core.size := by
  induction splits generalizing start with
  | nil => simp [leftOperands] at h
  | cons s rest ih =>
      have hs := hsplits s List.mem_cons_self
      rcases List.mem_cons.1 h with rfl | h
      · simp only [Window.size]
        omega
      · exact ih (by omega) (fun t ht => hsplits t (List.mem_cons_of_mem _ ht)) h

theorem rightOperand_size_lt {core : Window} {start : Nat} {s : Split} {rest : List Split}
    (hsplits : ∀ t ∈ s :: rest, core.start ≤ t.position ∧ t.position < core.stop) :
    (rightOperand core start s rest).window.size < core.size := by
  induction rest generalizing start s with
  | nil =>
      have hs := hsplits s List.mem_cons_self
      simp only [rightOperand, Window.size]
      omega
  | cons t rest ih => exact ih fun u hu => hsplits u (List.mem_cons_of_mem _ hu)

namespace Source

/-- Facts about a core that is not empty. -/
theorem core_size_pos {text : Source} {w : Window}
    (h : ¬(text.core w).start = (text.core w).stop) :
    0 < (text.core w).size := by
  have := text.core_start_le_core_stop w
  simp only [Window.size]
  omega

/-- The enclosed window of a group is smaller than the window. -/
theorem shape_group_size_lt {text : Source} {w inner : Window}
    (h : text.shape w = .group inner) : inner.size < w.size := by
  have hle := text.core_size_le w
  simp only [shape] at h
  split at h
  · simp at h
  · split at h
    · simp at h
    next hne =>
      have hpos := core_size_pos hne
      split at h
      · simp only [Shape.group.injEq] at h
        rw [← h]
        simp only [inside, Window.size] at *
        omega
      · split at h
        · simp at h
        · split at h
          · split at h <;> simp at h
          · simp at h

/-- The splits of a chain lie inside its core, which is no larger than the window. -/
theorem shape_chain_bounds {text : Source} {w core : Window} {first : Split} {rest : List Split}
    (h : text.shape w = .chain core first rest) :
    core.size ≤ w.size ∧
      ∀ s ∈ first :: rest, core.start ≤ s.position ∧ s.position < core.stop := by
  simp only [shape] at h
  split at h
  · simp at h
  · split at h
    · simp at h
    · split at h
      · simp at h
      · split at h
        next f r hsplits =>
          simp only [Shape.chain.injEq] at h
          obtain ⟨hcore, hfirst, hrest⟩ := h
          subst hcore hfirst hrest
          refine ⟨text.core_size_le w, fun s hs => ?_⟩
          rw [← hsplits] at hs
          obtain ⟨mark, hmark, family, hfam⟩ := mem_loosestSplits hs
          have hpos := Family.split?_position hfam
          have hb := topLevelFrom_bounds hmark
          have hlen := text.length_slice_le (text.core w)
          have hle := text.core_start_le_core_stop w
          simp only [Window.size] at hlen
          omega
        · split at h
          · split at h <;> simp at h
          · simp at h

/-- The operands of a chain are smaller than the window. -/
theorem shape_chain_size_lt {text : Source} {w core : Window} {first : Split} {rest : List Split}
    (h : text.shape w = .chain core first rest) :
    (∀ p ∈ leftOperands core core.start (first :: rest), p.2.window.size < w.size) ∧
      (rightOperand core core.start first rest).window.size < w.size := by
  obtain ⟨hle, hsplits⟩ := shape_chain_bounds h
  exact ⟨fun p hp => Nat.lt_of_lt_of_le (leftOperands_size_lt (Nat.le_refl _) hsplits hp) hle,
    Nat.lt_of_lt_of_le (rightOperand_size_lt hsplits) hle⟩

/-- The operand of a negation is smaller than the window. -/
theorem shape_negation_size_lt {text : Source} {w core : Window}
    (h : text.shape w = .negation core) : (negatedOperand core).window.size < w.size := by
  have hle := text.core_size_le w
  simp only [shape] at h
  split at h
  · simp at h
  · split at h
    · simp at h
    next hne =>
      have hpos := core_size_pos hne
      split at h
      · simp at h
      · split at h
        · simp at h
        · split at h
          · split at h
            · simp only [Shape.negation.injEq] at h
              rw [← h]
              simp only [negatedOperand, Window.size] at *
              omega
            · simp at h
          · simp at h

end Source

end Sentential
