import Sentential.Proofs.Visits

/-!
# Windows and copies of their text

A window is read like a copy of its text that stands on its own. `Source.Contains` says that a
source holds another one from a position on. Shapes, operands and faults of the part are those of
the whole, moved by that offset (`Source.shape_shift`), and so are the results of reading
(`Source.read_shift`): the same formulas, and the same faults but for the positions of an imbalance
and for the length of the text that is reported with exhausted nesting.
-/

namespace Sentential

open Text

/-! ## Moving by an offset -/

/-- The window, moved to the right. -/
def Window.shift (offset : Nat) (w : Window) : Window := ⟨w.start + offset, w.stop + offset⟩

/-- The split, moved to the right. -/
def Split.shift (offset : Nat) (s : Split) : Split := ⟨s.position + offset, s.op⟩

/-- The operand, moved to the right. -/
def Operand.shift (offset : Nat) (o : Operand) : Operand :=
  ⟨o.window.shift offset, o.op, o.role, o.context.shift offset⟩

/-- The shape, moved to the right. -/
def Shape.shift (offset : Nat) : Shape → Shape
  | .unbalanced fault => .unbalanced (fault.shift offset)
  | .blank => .blank
  | .group inner => .group (inner.shift offset)
  | .chain core first rest =>
      .chain (core.shift offset) (first.shift offset) (rest.map (Split.shift offset))
  | .negation core => .negation (core.shift offset)
  | .buriedNegation core => .buriedNegation (core.shift offset)
  | .leaf core => .leaf (core.shift offset)

/-- The fault of a part as a fault of a whole of the given length, the part being moved to the
right. -/
def ParseFault.relocate (offset length : Nat) : ParseFault → ParseFault
  | .unbalanced fault => .unbalanced (fault.shift offset)
  | .malformed defect text => .malformed defect text
  | .operand op role missing text cause =>
      .operand op role missing text (cause.relocate offset length)
  | .tooDeep _ => .tooDeep length

theorem scan_shift (offset position : Int) (groups : OpenParens) (cs : List Char) :
    scan (position + offset) ⟨groups.depth, groups.lastOpen + offset⟩ cs =
      ((scan position groups cs).mapError (Imbalance.shift offset)).map fun open' =>
        ⟨open'.depth, open'.lastOpen + offset⟩ := by
  induction cs generalizing position groups with
  | nil => rfl
  | cons c rest ih =>
      have hnext : position + offset + 1 = position + 1 + offset := by omega
      rcases paren_cases c with rfl | rfl | hc
      · rw [scan, if_pos rfl, scan, if_pos rfl, hnext]
        exact ih (position + 1) ⟨groups.depth + 1, position⟩
      · rw [scan, if_neg (by decide), if_pos rfl, scan, if_neg (by decide), if_pos rfl]
        obtain ⟨depth, lastOpen⟩ := groups
        cases depth with
        | zero => rfl
        | succ d =>
            rw [hnext]
            exact ih (position + 1) ⟨d, lastOpen⟩
      · rw [scan, if_neg hc.1, if_neg hc.2, scan, if_neg hc.1, if_neg hc.2, hnext]
        exact ih (position + 1) groups

/-- The check of a text that stands further to the right. -/
theorem checkPairs_shift (offset start : Int) (cs : List Char) :
    checkPairs (start + offset) cs = (checkPairs start cs).mapError (Imbalance.shift offset) := by
  have hscan := scan_shift offset start ⟨0, start⟩ cs
  rw [checkPairs, hscan, checkPairs]
  cases scan start ⟨0, start⟩ cs with
  | error fault => rfl
  | ok groups =>
      obtain ⟨depth, lastOpen⟩ := groups
      cases depth <;> rfl

theorem topLevelFrom_shift (offset position depth : Nat) (cs : List Char) :
    topLevelFrom (position + offset) depth cs =
      (topLevelFrom position depth cs).map fun mark => (mark.1 + offset, mark.2) := by
  induction cs generalizing position depth with
  | nil => rfl
  | cons c rest ih =>
      have hnext : position + offset + 1 = position + 1 + offset := by omega
      rcases paren_cases c with rfl | rfl | hc
      · rw [topLevelFrom_open, topLevelFrom_open, hnext, ih]
      · rw [topLevelFrom_close, topLevelFrom_close, hnext, ih]
      · cases depth with
        | zero =>
            rw [topLevelFrom_plain_zero hc, topLevelFrom_plain_zero hc, hnext, ih, List.map_cons]
        | succ d => rw [topLevelFrom_plain_succ hc, topLevelFrom_plain_succ hc, hnext, ih]

theorem splits_shift (family : Family) (offset position : Nat) (cs : List Char) :
    splits family (position + offset) cs =
      (splits family position cs).map (Split.shift offset) := by
  rw [splits, topLevelFrom_shift, List.filterMap_map, splits, List.map_filterMap]
  congr 1
  funext mark
  simp only [Function.comp_apply, Family.split?]
  cases Connective.ofGlyph? mark.2 with
  | none => rfl
  | some op => by_cases hop : op.family = family <;> simp [hop, Split.shift]

theorem loosestSplits_shift (offset position : Nat) (cs : List Char) :
    loosestSplits (topLevelFrom (position + offset) 0 cs) =
      (loosestSplits (topLevelFrom position 0 cs)).map (Split.shift offset) := by
  simp only [loosestSplits_topLevelFrom, List.find?_map, Function.comp_def, splits_shift,
    List.isEmpty_map]
  cases Family.looseFirst.find? fun family => !(splits family position cs).isEmpty <;> rfl

theorem firstNegation?_shift (offset position : Nat) (cs : List Char) :
    firstNegation? (topLevelFrom (position + offset) 0 cs) =
      (firstNegation? (topLevelFrom position 0 cs)).map (· + offset) := by
  rw [topLevelFrom_shift, firstNegation?, firstNegation?, List.find?_map, Option.map_map,
    Option.map_map]
  rfl

theorem leftOperand_shift (offset : Nat) (core : Window) (start : Nat) (s : Split) :
    (leftOperand core start s).shift offset =
      leftOperand (core.shift offset) (start + offset) (s.shift offset) := rfl

theorem lastOperand_shift (offset : Nat) (core : Window) (start : Nat) (s : Split) :
    (lastOperand core start s).shift offset =
      lastOperand (core.shift offset) (start + offset) (s.shift offset) := by
  simp only [lastOperand, Operand.shift, Window.shift, Split.shift, Nat.add_right_comm]

namespace Source

/-- The whole holds the part from the position `offset` on. -/
def Contains (whole part : Source) (offset : Nat) : Prop :=
  whole.Holds ⟨offset, offset + part.size⟩ part.chars.toList

variable {whole part : Source} {offset : Nat} {w : Window} {cs : List Char}

/-- What a window of the part holds is held by the moved window of the whole. -/
theorem Contains.holds (h : whole.Contains part offset) (hw : part.Holds w cs) :
    whole.Holds (w.shift offset) cs := by
  obtain ⟨before, after, hchars, hbefore⟩ := h.context
  obtain ⟨before', after', hchars', hbefore'⟩ := hw.context
  refine ⟨⟨before ++ before', after' ++ after, ?_, ?_⟩, ?_⟩
  · rw [hchars, hchars']
    simp only [List.append_assoc]
  · rw [List.length_append, hbefore, hbefore', Nat.add_comm]
    rfl
  · rw [Window.shift, hw.stop_eq]
    simp only [Nat.add_right_comm]

theorem fragment_shift (h : whole.Contains part offset) (hw : part.Holds w cs) :
    whole.fragment (w.shift offset) = part.fragment w := by
  rw [fragment, (h.holds hw).slice_eq, fragment, hw.slice_eq]

theorem core_shift (h : whole.Contains part offset) (hw : part.Holds w cs) :
    whole.core (w.shift offset) = (part.core w).shift offset := by
  rw [core, (h.holds hw).slice_eq, core, hw.slice_eq]
  simp only [Window.shift, Window.mk.injEq]
  omega

theorem isGroup_shift (h : whole.Contains part offset) (hw : part.Holds w cs) :
    whole.isGroup (w.shift offset) = part.isGroup w := by
  rw [Bool.eq_iff_iff, (h.holds hw).isGroup_iff, hw.isGroup_iff]

theorem checkWindow_shift (h : whole.Contains part offset) (hw : part.Holds w cs) :
    whole.checkWindow (w.shift offset) =
      (part.checkWindow w).mapError (Imbalance.shift offset) := by
  rw [checkWindow, (h.holds hw).slice_eq, checkWindow, hw.slice_eq, ← checkPairs_shift]
  rfl

theorem topLevel_shift (h : whole.Contains part offset) (hw : part.Holds w cs) :
    loosestSplits (whole.topLevel (w.shift offset)) =
        (loosestSplits (part.topLevel w)).map (Split.shift offset) ∧
      firstNegation? (whole.topLevel (w.shift offset)) =
        (firstNegation? (part.topLevel w)).map (· + offset) := by
  rw [topLevel, (h.holds hw).slice_eq, topLevel, hw.slice_eq]
  exact ⟨loosestSplits_shift offset w.start cs, firstNegation?_shift offset w.start cs⟩

/-- The shape of a moved window is the moved shape. -/
theorem shape_shift (h : whole.Contains part offset) (hw : part.Holds w cs) :
    whole.shape (w.shift offset) = (part.shape w).shift offset := by
  have hcore := hw.core
  -- every decision of `shape` is taken in the whole as in the part, and only positions differ
  rw [shape, checkWindow_shift h hw, core_shift h hw, shape]
  cases part.checkWindow w with
  | error fault => rfl
  | ok u =>
      have hblank : ((part.core w).shift offset).start = ((part.core w).shift offset).stop ↔
          (part.core w).start = (part.core w).stop := Nat.add_right_cancel_iff
      simp only [Except.mapError, hblank, isGroup_shift h hcore, topLevel_shift h hcore]
      by_cases hempty : (part.core w).start = (part.core w).stop
      · rw [if_pos hempty, if_pos hempty]
        rfl
      rw [if_neg hempty, if_neg hempty]
      by_cases hgroup : part.isGroup (part.core w) = true
      · rw [if_pos hgroup, if_pos hgroup]
        -- a core that is not empty ends behind the first position, so that nothing is cut off below
        -- zero
        have hpos : 0 < (part.core w).stop := by
          have := part.core_start_le_core_stop w
          omega
        simp only [Shape.shift, inside, Window.shift, Shape.group.injEq, Window.mk.injEq]
        omega
      rw [if_neg hgroup, if_neg hgroup]
      cases loosestSplits (part.topLevel (part.core w)) with
      | cons first rest => rfl
      | nil =>
          cases firstNegation? (part.topLevel (part.core w)) with
          | none => rfl
          | some position =>
              have hstart : position + offset = ((part.core w).shift offset).start ↔
                  position = (part.core w).start := Nat.add_right_cancel_iff
              simp only [List.map_nil, Option.map_some, hstart]
              split <;> rfl

/-! ## Reading -/

/-- The moved window is read like the window of the part, within any budget. -/
def ReadAlike (whole part : Source) (offset : Nat) (w : Window) : Prop :=
  ∀ budget : Budget, whole.read budget (w.shift offset) =
    (part.read budget w).mapError (ParseFault.relocate offset whole.size)

variable {budget : Budget} {o : Operand}

theorem enter_shift (hread : ReadAlike whole part offset w) (cost : Nat) :
    whole.enter budget cost (w.shift offset) =
      (part.enter budget cost w).mapError (ParseFault.relocate offset whole.size) := by
  rw [enter, enter]
  cases budget.spend? cost with
  | some left => exact hread left
  | none => rfl

/-- Moving a fault commutes with its attribution to an operator. -/
theorem attribute_shift (h : whole.Contains part offset) (ho : part.Placed o) (fault : ParseFault) :
    (o.shift offset).attribute whole (fault.relocate offset whole.size) =
      (o.attribute part fault).relocate offset whole.size := by
  obtain ⟨as, hwindow, -⟩ := ho.balanced
  obtain ⟨bs, hcontext⟩ := ho.context
  have hslice : whole.slice (o.shift offset).window = part.slice o.window := by
    rw [hwindow.slice_eq]
    exact (h.holds hwindow).slice_eq
  have hfragment : whole.fragment (o.shift offset).context = part.fragment o.context :=
    fragment_shift h hcontext
  -- the operator is blamed with fragments of the text, and these do not move
  cases fault with
  | unbalanced imbalance =>
      simp only [Operand.attribute, ParseFault.relocate, hslice, hfragment]
      rfl
  | malformed defect text =>
      simp only [Operand.attribute, ParseFault.relocate, hslice, hfragment]
      rfl
  | operand => rfl
  | tooDeep => rfl

theorem readPart_shift (h : whole.Contains part offset) (ho : part.Placed o)
    (hread : ReadAlike whole part offset o.window) (cost : Nat) :
    whole.readPart budget cost (o.shift offset) =
      (part.readPart budget cost o).mapError (ParseFault.relocate offset whole.size) := by
  have henter : whole.enter budget cost (o.shift offset).window = _ := enter_shift hread cost
  rw [readPart, henter, readPart]
  cases part.enter budget cost o.window with
  | ok f => rfl
  | error fault => exact congrArg Except.error (attribute_shift h ho fault)

/-- A moved chain is read like the chain, by induction on its splits. -/
theorem readChain_shift {core : Window} {rest : List Split} :
    ∀ {start : Nat} {s : Split},
      (∀ o ∈ chainOperands core start s rest, whole.readPart budget chainCost (o.shift offset) =
        (part.readPart budget chainCost o).mapError (ParseFault.relocate offset whole.size)) →
      whole.readChain budget (core.shift offset) (start + offset) (s.shift offset)
          (rest.map (Split.shift offset)) =
        (part.readChain budget core start s rest).mapError
          (ParseFault.relocate offset whole.size) := by
  induction rest with
  | nil =>
      intro start s hparts
      have hleft := hparts _ List.mem_cons_self
      have hlast := hparts _ (List.mem_cons_of_mem _ List.mem_cons_self)
      rw [leftOperand_shift] at hleft
      rw [lastOperand_shift] at hlast
      rw [List.map_nil, readChain, hleft, hlast, readChain]
      simp only [Except.mapError_bind]
      rfl
  | cons t rest ih =>
      intro start s hparts
      have hleft := hparts _ List.mem_cons_self
      have hrest := ih fun o ho => hparts o (List.mem_cons_of_mem _ ho)
      rw [leftOperand_shift] at hleft
      rw [List.map_cons, readChain, hleft, readChain]
      have hnext : (s.shift offset).position + 1 = s.position + 1 + offset :=
        Nat.add_right_comm s.position offset 1
      rw [hnext, hrest]
      simp only [Except.mapError_bind]
      rfl

/-- A window is read like a copy of its text, by induction on its size. -/
theorem read_shift (h : whole.Contains part offset) (hw : part.Holds w cs) :
    ReadAlike whole part offset w := by
  induction hn : w.size using Nat.strongRecOn generalizing w cs with
  | ind n ih =>
      subst hn
      intro budget
      have hpart : ∀ o ∈ part.operands w, ∀ cost, whole.readPart budget cost (o.shift offset) =
          (part.readPart budget cost o).mapError (ParseFault.relocate offset whole.size) := by
        intro o ho cost
        have hplaced := hw.placed ho
        obtain ⟨as, hwindow, -⟩ := hplaced.balanced
        exact readPart_shift h hplaced (ih _ (operands_size_lt ho) hwindow rfl) cost
      have hcore := hw.core
      have hfragment := fragment_shift h hcore
      have hof := hw.shapeOf_shape
      rw [operands] at hpart
      rw [read_eq, shape_shift h hw, read_eq]
      generalize hshape : part.shape w = shape at hof hpart ⊢
      cases hof with
      | unbalanced => rfl
      | blank =>
          exact congrArg (fun text => Except.error (ParseFault.malformed _ text))
            (fragment_shift h hw)
      | @group inner _ htrim _ =>
          rw [htrim] at hcore
          exact enter_shift (ih _ (shape_group_size_lt hshape) hcore.inside rfl) groupCost
      | chain => exact readChain_shift fun o ho => hpart o ho chainCost
      | negation =>
          have hneg := hpart _ (List.mem_singleton_self _) negationCost
          have hmoved : (negatedOperand (part.core w)).shift offset =
              negatedOperand ((part.core w).shift offset) := by
            simp only [negatedOperand, Operand.shift, Window.shift, Nat.add_right_comm]
          rw [hmoved] at hneg
          simp only [Shape.shift, hneg]
          cases part.readPart budget negationCost (negatedOperand (part.core w)) <;> rfl
      | buriedNegation =>
          exact congrArg (fun text => Except.error (ParseFault.malformed _ text)) hfragment
      | leaf =>
          have hslice : whole.slice ((part.core w).shift offset) = part.slice (part.core w) := by
            rw [(h.holds hcore).slice_eq, hcore.slice_eq]
          simp only [Shape.shift, hslice, hfragment]
          cases leaf (part.slice (part.core w)) <;> rfl

end Source

end Sentential
