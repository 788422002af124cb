import Sentential.Proofs.Reading

/-!
# The windows that a reading visits

`Source.Begins` relates a window to the windows that are read as its parts: the inside of a group,
and those operands of a chain or a negation before which no operand has failed. `Source.Visits`
relates it to all windows that are entered in the course of reading it, each with the budget that is
left there.

Every operand of a window stands beside the glyph of its operator and holds a balanced text
(`Source.Holds.placed`). A balanced window therefore leads to balanced windows of the source only
(`Source.Visits.balanced`).
-/

namespace Sentential

open Text

/-! ## Operands -/

/-- The cost of reading an operand. -/
def Operand.cost (o : Operand) : Nat :=
  match o.role with
  | .only => negationCost
  | .left | .right => chainCost

/-- The position of the glyph beside an operand. -/
def Operand.glyphPosition (o : Operand) : Nat :=
  match o.role with
  | .left => o.window.stop
  | .only | .right => o.window.start - 1

/-- The operands of a chain from left to right; the operand before the split `s` begins at
`start`. -/
def chainOperands (core : Window) (start : Nat) (s : Split) : List Split → List Operand
  | [] => [leftOperand core start s, lastOperand core start s]
  | t :: rest => leftOperand core start s :: chainOperands core (s.position + 1) t rest

/-- The operands of a chain are those before its connectives and the last one. -/
theorem chainOperands_eq (core : Window) (start : Nat) (s : Split) (rest : List Split) :
    chainOperands core start s rest =
      (leftOperands core start (s :: rest)).map Prod.snd ++ [rightOperand core start s rest] := by
  induction rest generalizing start s with
  | nil => rfl
  | cons t rest ih =>
      rw [chainOperands, ih]
      rfl

namespace Source

/-- The operands of a window from left to right. -/
def operands (text : Source) (w : Window) : List Operand :=
  match text.shape w with
  | .chain core first rest => chainOperands core core.start first rest
  | .negation core => [negatedOperand core]
  | _ => []

/-- The place of an operand in its source. -/
structure Placed (text : Source) (o : Operand) : Prop where
  /-- The operand holds a balanced text. -/
  balanced : ∃ as, text.Holds o.window as ∧ Balanced as
  /-- The fragment that is quoted lies inside the source. -/
  context : ∃ bs, text.Holds o.context bs
  /-- The glyph of the operator stands beside the operand. -/
  glyph : text.chars[o.glyphPosition]? = some o.op.glyph

variable {text : Source} {budget left : Budget} {w v : Window} {cs : List Char} {o : Operand}

/-- A character of a window is found at its position. -/
theorem Holds.getElem?_chars {start stop : Nat} {as bs : List Char} {c : Char}
    (h : text.Holds ⟨start, stop⟩ (as ++ c :: bs)) : text.chars[start + as.length]? = some c := by
  obtain ⟨before, after, hchars, hbefore⟩ := h.context
  obtain rfl : before.length = start := hbefore
  rw [← Array.getElem?_toList, hchars]
  simp

/-- The operands of a chain have their places, by induction on the splits. -/
theorem placed_chainOperands {family : Family} {core : Window} {rest : List Split} :
    ∀ {start : Nat} {cs : List Char} {s : Split}, text.Holds ⟨start, core.stop⟩ cs →
      Balanced cs → splits family start cs = s :: rest →
      ∀ o ∈ chainOperands core start s rest, text.Placed o := by
  induction rest with
  | nil =>
      intro start cs s h hcs hsplits o ho
      -- the last connective has its two operands on either side
      obtain ⟨as, bs, rfl, hpos, -, has, hbs, -, -⟩ := splits_cons hcs hsplits
      have hglyph := h.getElem?_chars
      rw [← hpos] at hglyph
      rcases List.mem_cons.1 ho with rfl | ho
      · refine ⟨⟨as, ?_, has⟩, ⟨_, h⟩, hglyph⟩
        rw [leftOperand, hpos]
        exact h.left
      · rw [List.mem_singleton.1 ho]
        refine ⟨⟨bs, ?_, hbs⟩, ⟨_, h⟩, hglyph⟩
        rw [lastOperand, hpos]
        exact h.tail
  | cons t rest ih =>
      intro start cs s h hcs hsplits o ho
      obtain ⟨as, bs, rfl, hpos, -, has, hbs, -, hrest⟩ := splits_cons hcs hsplits
      rcases List.mem_cons.1 ho with rfl | ho
      · have hglyph := h.getElem?_chars
        rw [← hpos] at hglyph
        refine ⟨⟨as, ?_, has⟩, ⟨_, h⟩, hglyph⟩
        rw [leftOperand, hpos]
        exact h.left
      · -- the other operands are those of the text after the connective
        have htail := h.tail
        rw [← hpos] at htail
        exact ih htail hbs hrest o ho

/-- The operands of a window inside the source have their places. -/
theorem Holds.placed (h : text.Holds w cs) (ho : o ∈ text.operands w) : text.Placed o := by
  have hcore := h.core
  have hshape := h.shapeOf_shape
  rw [operands] at ho
  generalize text.shape w = shape at hshape ho
  cases hshape with
  | chain hbal hsplits =>
      obtain ⟨hfamily, -⟩ := loosestSplits_cons hsplits
      exact placed_chainOperands hcore ((balanced_trim_iff cs).2 hbal) hfamily o ho
  | @negation rest hbal htrim hfree =>
      rw [List.mem_singleton.1 ho]
      have hbalRest : Balanced rest := by
        rwa [← balanced_cons_iff isPlain_negationGlyph, ← htrim, balanced_trim_iff]
      rw [htrim] at hcore
      refine ⟨⟨rest, hcore.negatedOperand, hbalRest⟩, ⟨_, hcore⟩, ?_⟩
      have hwhole : text.Holds ⟨(text.core w).start, (text.core w).stop⟩
        ([] ++ negationGlyph :: rest) := hcore
      exact hwhole.getElem?_chars
  | _ => exact absurd ho List.not_mem_nil

/-- An operand is smaller than the window that it belongs to. -/
theorem operands_size_lt (ho : o ∈ text.operands w) : o.window.size < w.size := by
  rw [operands] at ho
  split at ho
  next core first rest hshape =>
    obtain ⟨hlefts, hright⟩ := shape_chain_size_lt hshape
    rw [chainOperands_eq, List.mem_append, List.mem_singleton] at ho
    rcases ho with ho | rfl
    · obtain ⟨p, hp, rfl⟩ := List.mem_map.1 ho
      exact hlefts p hp
    · exact hright
  next core hshape =>
    rw [List.mem_singleton.1 ho]
    exact shape_negation_size_lt hshape
  next => exact absurd ho List.not_mem_nil

/-! ## Visits -/

/-- Reading `w` within a budget begins to read another window within what is left of the budget. -/
inductive Begins (text : Source) (budget : Budget) (w : Window) : Budget → Window → Prop
  /-- The inside of a group. -/
  | group {inner : Window} {left : Budget} :
      text.shape w = .group inner → budget.spend? groupCost = some left →
      Begins text budget w left inner
  /-- An operand, after all operands before it have been read. -/
  | operand {before after : List Operand} {o : Operand} {left : Budget} :
      text.operands w = before ++ o :: after →
      (∀ p ∈ before, ∃ f, text.readPart budget p.cost p = .ok f) →
      budget.spend? o.cost = some left → Begins text budget w left o.window

/-- The windows that are entered while a window is read within a budget, and what is left of the
budget where they are entered. -/
inductive Visits (text : Source) : Budget → Window → Budget → Window → Prop
  | here {budget : Budget} {w : Window} : Visits text budget w budget w
  | through {budget left rest : Budget} {w v u : Window} :
      text.Begins budget w left v → Visits text left v rest u → Visits text budget w rest u

/-- One step leads from a window inside the source to a balanced one. -/
theorem Begins.balanced (h : text.Begins budget w left v) (hw : text.Holds w cs) :
    ∃ as, text.Holds v as ∧ Balanced as := by
  cases h with
  | group hshape hspend =>
      have hcore := hw.core
      have hof := hw.shapeOf_shape
      rw [hshape] at hof
      cases hof with
      | @group inner hbal htrim hinner =>
          rw [htrim] at hcore
          exact ⟨inner, hcore.inside, hinner⟩
  | operand hsplit hbefore hspend =>
      apply (hw.placed _).balanced
      rw [hsplit]
      exact List.mem_append_right _ List.mem_cons_self

/-- A balanced window of the source leads to balanced windows of the source only. -/
theorem Visits.balanced (h : text.Visits budget w left v) :
    ∀ {cs : List Char}, text.Holds w cs → Balanced cs → ∃ as, text.Holds v as ∧ Balanced as := by
  induction h with
  | here =>
      intro cs hw hcs
      exact ⟨cs, hw, hcs⟩
  | through hbegins _ ih =>
      intro cs hw hcs
      obtain ⟨as, hv, has⟩ := hbegins.balanced hw
      exact ih hv has

end Source

end Sentential
