import Sentential.Proofs.Replacement
import Sentential.Proofs.Visits

/-!
# Visited windows as parts of a text

`Source.Part` says where the text of a window stands inside a derived text, and that whatever can
stand for the text of the window can be put there. The windows that are visited while a derived text
is read are such parts: a step leads to a part (`Source.Begins.exists_part`), and a part of a part
is a part (`Source.Part.trans`), so that all visited windows are (`Source.Visits.exists_part`).
-/

namespace Sentential

open Text

namespace Source

/-- The window `v` holds a part of the derived text `cs`, which begins at the position `start`; what
can stand for the part can be put in its place. -/
structure Part (text : Source) (level : Level) (entry start : Nat) (cs : List Char) (v : Window)
    (before part after : List Char) : Prop where
  split : cs = before ++ part ++ after
  start_eq : v.start = start + before.length
  holds : text.Holds v part
  derived : ∃ d : Derivation.Start, d.text = part
  replace : ∀ {extra : Nat} {new : List Char}, StandsFor (.chain .equality) 0 extra new part →
    StandsFor level entry extra (before ++ new ++ after) cs

variable {text : Source} {level : Level} {family : Family} {entry start : Nat}
  {budget left : Budget}
  {w v u : Window} {cs part inner before after before' after' : List Char}

theorem Part.refl (hw : text.Holds w cs) (h : ∃ d : Derivation.Start, d.text = cs) :
    text.Part (.chain .equality) 0 w.start cs w [] cs [] where
  split := (List.append_nil cs).symm
  start_eq := rfl
  holds := hw
  derived := h
  replace hnew := by rwa [List.nil_append, List.append_nil]

/-- A part of a part. -/
theorem Part.trans (h : text.Part level entry start cs v before part after)
    (h' : text.Part (.chain .equality) 0 v.start part u before' inner after') :
    text.Part level entry start cs u (before ++ before') inner (after' ++ after) where
  split := by
    rw [h.split, h'.split]
    simp only [List.append_assoc]
  start_eq := by
    rw [h'.start_eq, h.start_eq, List.length_append, Nat.add_assoc]
  holds := h'.holds
  derived := h'.derived
  replace hnew := by
    have hwhole := h.replace (h'.replace hnew)
    simpa only [List.append_assoc] using hwhole

/-- A part of the core of a window is a part of the window. -/
theorem Part.of_core (h : text.Part level entry (text.core w).start (trim cs) v before part after)
    (hw : text.Holds w cs) (hne : trim cs ≠ []) :
    ∃ before part after, text.Part level entry w.start cs v before part after := by
  obtain ⟨pre, post, hpre, hpost, hsplit, htrimmed⟩ := exists_trim cs
  have hcore : (text.core w).start = w.start + pre.length := by
    rw [hsplit] at hw
    rw [core_eq hw hpre hpost htrimmed hne]
  refine ⟨pre ++ before, part, after ++ post, ?_, ?_, h.holds, h.derived, ?_⟩
  · rw [hsplit, h.split]
    simp only [List.append_assoc]
  · rw [h.start_eq, hcore, List.length_append, Nat.add_assoc]
  · intro extra new hnew
    have hwhole := (h.replace hnew).pad hpre hpost hpre hpost
    rw [← hsplit] at hwhole
    simpa only [List.append_assoc] using hwhole

/-! ### Operands of a chain -/

section Chain

variable {core : Window} {op : Connective}

/-- The operand before the first connective of a chain. -/
theorem part_leftOperand (hop : op.family = family) (l : Derivation family.tighter)
    (r : Derivation (.chain family))
    (hw : text.Holds ⟨start, core.stop⟩ (l.text ++ op.glyph :: r.text)) (entry : Nat) :
    text.Part (.chain family) entry start (l.text ++ op.glyph :: r.text)
      (leftOperand core start ⟨start + l.text.length, op⟩).window [] l.text
        (op.glyph :: r.text) where
  split := rfl
  start_eq := rfl
  holds := hw.left
  derived := by
    obtain ⟨d, htext, -⟩ := (Derivation.lift l).exists_raise
    exact ⟨d, htext⟩
  -- there is no connective of the family on the surface of the operand, nor on that of what stands
  -- for it
  replace hnew :=
    (hnew.descend (Derivation.lift l).nothingLooser l.freeOf_tighter).link_left hop r entry

/-- The operand after the last connective of a chain. -/
theorem part_lastOperand (hop : op.family = family) (l : Derivation family.tighter)
    (r : Derivation (.chain family))
    (hw : text.Holds ⟨start, core.stop⟩ (l.text ++ op.glyph :: r.text))
    (hfree : FreeOf family r.text) (entry : Nat) :
    text.Part (.chain family) entry start (l.text ++ op.glyph :: r.text)
      (lastOperand core start ⟨start + l.text.length, op⟩).window
        (l.text ++ [op.glyph]) r.text [] where
  split := by simp only [List.append_assoc, List.cons_append, List.nil_append, List.append_nil]
  start_eq := by
    rw [List.length_append, List.length_singleton, ← Nat.add_assoc]
    rfl
  holds := hw.tail
  derived := by
    obtain ⟨d, htext, -⟩ := r.exists_raise
    exact ⟨d, htext⟩
  replace hnew := by
    have hlink := ((hnew.descend r.nothingLooser hfree).lift chainCost).link_right hop l entry
    simpa only [List.append_assoc, List.cons_append, List.nil_append, List.append_nil] using hlink

/-- A part of a chain after the first connective. -/
theorem Part.link (hop : op.family = family) (l : Derivation family.tighter)
    {r : Derivation (.chain family)}
    (h : text.Part (.chain family) chainCost (start + l.text.length + 1) r.text v before part after)
    (entry : Nat) :
    text.Part (.chain family) entry start (l.text ++ op.glyph :: r.text) v
      (l.text ++ op.glyph :: before) part after where
  split := by
    rw [h.split]
    simp only [List.append_assoc, List.cons_append]
  start_eq := by
    rw [h.start_eq, List.length_append, List.length_cons]
    omega
  holds := h.holds
  derived := h.derived
  replace hnew := by
    have hlink := (h.replace hnew).link_right hop l entry
    simpa only [List.append_assoc, List.cons_append] using hlink

end Chain

/-- The first split of a derived chain is at its first connective. -/
theorem exists_link_of_splits {start : Nat} {d : Derivation (.chain family)} {s : Split}
    {rest : List Split} (h : splits family start d.text = s :: rest) :
    ∃ (op : Connective) (hop : op.family = family) (l : Derivation family.tighter)
      (r : Derivation (.chain family)), d = .link op hop l r ∧ s = ⟨start + l.text.length, op⟩ ∧
        splits family (start + l.text.length + 1) r.text = rest := by
  cases d with
  | lift l =>
      rw [Derivation.text, splits_eq_nil_iff.2 l.freeOf_tighter] at h
      exact absurd h.symm (List.cons_ne_nil s rest)
  | link op hop l r =>
      rw [Derivation.text, splits_operand l.balanced l.freeOf_tighter hop, List.cons.injEq] at h
      exact ⟨op, hop, l, r, rfl, h.1.symm, h.2⟩

/-- Every operand of a chain is a part of it, by induction on the splits. -/
theorem exists_part_of_chainOperands {core : Window} {o : Operand} {rest : List Split} :
    ∀ {start : Nat} {s : Split} (d : Derivation (.chain family)) (entry : Nat),
      text.Holds ⟨start, core.stop⟩ d.text → splits family start d.text = s :: rest →
      o ∈ chainOperands core start s rest →
      ∃ before part after,
        text.Part (.chain family) entry start d.text o.window before part after := by
  induction rest with
  | nil =>
      intro start s d entry hw hsplits ho
      obtain ⟨op, hop, l, r, rfl, rfl, hrest⟩ := exists_link_of_splits hsplits
      rcases List.mem_cons.1 ho with rfl | ho
      · exact ⟨_, _, _, part_leftOperand hop l r hw entry⟩
      · rw [List.mem_singleton.1 ho]
        exact ⟨_, _, _, part_lastOperand hop l r hw (splits_eq_nil_iff.1 hrest) entry⟩
  | cons t rest ih =>
      intro start s d entry hw hsplits ho
      obtain ⟨op, hop, l, r, rfl, rfl, hrest⟩ := exists_link_of_splits hsplits
      rcases List.mem_cons.1 ho with rfl | ho
      · exact ⟨_, _, _, part_leftOperand hop l r hw entry⟩
      · obtain ⟨before, part, after, hpart⟩ := ih r chainCost hw.tail hrest ho
        exact ⟨_, _, _, hpart.link hop l entry⟩

/-! ### Visited windows -/

/-- A derived text is read without a budget. -/
theorem Holds.read_none {d : Derivation.Start} (hw : text.Holds w cs) (h : trim cs = trim d.text) :
    text.read none w = .ok d.tree :=
  (d.reads.window none w cs hw h).trans (if_pos trivial)

/-- The inside of a group. -/
theorem part_group (hw : text.Holds w cs) (htrim : trim cs = openParen :: part ++ [closeParen])
    (hpart : ∃ d : Derivation.Start, d.text = part) :
    text.Part (.chain .equality) 0 (text.core w).start (trim cs)
      (inside (text.core w)) [openParen] part
      [closeParen] where
  split := htrim
  start_eq := rfl
  holds := by
    have hcore := hw.core
    rw [htrim] at hcore
    exact hcore.inside
  derived := hpart
  replace hnew := by
    have hgroup := (hnew.group isAllBlank_nil isAllBlank_nil 0).ofOperand
    rw [htrim]
    simpa only [List.cons_append, List.nil_append, List.append_nil] using hgroup

/-- The operand of a negation. -/
theorem part_negation (hw : text.Holds w cs) (htrim : trim cs = negationGlyph :: part)
    (hfree : ∀ family : Family, FreeOf family part)
    (hpart : ∃ d : Derivation.Start, d.text = part) :
    text.Part (.chain .equality) 0 (text.core w).start (trim cs)
      (negatedOperand (text.core w)).window
      [negationGlyph] part [] where
  split := by rw [htrim, List.append_nil, List.singleton_append]
  start_eq := rfl
  holds := by
    have hcore := hw.core
    rw [htrim] at hcore
    exact hcore.negatedOperand
  derived := hpart
  replace hnew := by
    have hoperand :=
      @StandsFor.descend .conjunction _ _ _ hnew (fun looser _ => hfree looser) (hfree _)
    have hneg := (StandsFor.negation isAllBlank_nil hoperand 0).ofOperand
    rw [htrim]
    simpa only [List.cons_append, List.nil_append, List.append_nil] using hneg

/-- A part of a chain of any family. -/
theorem Part.raise (h : text.Part (.chain family) 0 start cs v before part after) :
    text.Part (.chain .equality) 0 start cs v before part after where
  split := h.split
  start_eq := h.start_eq
  holds := h.holds
  derived := h.derived
  replace hnew := (h.replace hnew).raise

theorem exists_part_of_group {inner : Window} (hshape : text.shape w = .group inner)
    (hw : text.Holds w cs) (hcs : ∃ d : Derivation.Start, d.text = cs) :
    ∃ before part after, text.Part (.chain .equality) 0 w.start cs inner before part after := by
  obtain ⟨d, hd⟩ := hcs
  have hread := hw.read_none (congrArg trim hd.symm)
  rw [read_eq, hshape] at hread
  have hcore := hw.core
  have hof := hw.shapeOf_shape
  rw [hshape] at hof
  cases hof with
  | @group part hbal htrim hpart =>
      rw [htrim] at hcore
      obtain ⟨rest, hread⟩ := exists_read_of_enter hread
      obtain ⟨e, he, -⟩ := exists_derivation_of_read hcore.inside hread
      refine (part_group hw htrim ⟨e, he⟩).of_core hw ?_
      rw [htrim]
      exact List.cons_ne_nil _ _

theorem exists_part_of_operand {o : Operand} (ho : o ∈ text.operands w) (hw : text.Holds w cs)
    (hcs : ∃ d : Derivation.Start, d.text = cs) :
    ∃ before part after, text.Part (.chain .equality) 0 w.start cs o.window before part after := by
  obtain ⟨d, hd⟩ := hcs
  have hread := hw.read_none (congrArg trim hd.symm)
  rw [read_eq] at hread
  have hcore := hw.core
  have hcoreRead := hcore.read_none ((trim_trim cs).trans (congrArg trim hd.symm))
  have hof := hw.shapeOf_shape
  rw [operands] at ho
  generalize text.shape w = shape at hof hread ho
  cases hof with
  | @chain first rest hbal hsplits =>
      obtain ⟨hfamily, hloose⟩ := loosestSplits_cons hsplits
      -- the core is derived as a chain of the family of its connectives
      obtain ⟨e, he, -⟩ := exists_derivation_of_read hcore hcoreRead
      rw [← he] at hloose
      obtain ⟨c, hc, -⟩ := e.exists_descend hloose
      rw [← he, ← hc] at hfamily hcore
      obtain ⟨before, part, after, hpart⟩ := exists_part_of_chainOperands c 0 hcore hfamily ho
      rw [hc, he] at hpart
      refine hpart.raise.of_core hw ?_
      intro hnil
      rw [hnil] at hsplits
      cases hsplits
  | @negation part hbal htrim hfree =>
      obtain rfl := List.mem_singleton.1 ho
      obtain ⟨operand, hoperand, -⟩ := Except.map_eq_ok_iff.1 hread
      obtain ⟨rest, hread⟩ := exists_read_of_readPart hoperand
      rw [htrim] at hcore
      obtain ⟨e, he, -⟩ := exists_derivation_of_read hcore.negatedOperand hread
      have hfreePart (family : Family) : FreeOf family part := by
        have hfreeTrim := (freeOf_trim_iff hbal).2 (hfree family)
        rw [htrim, freeOf_cons isPlain_negationGlyph] at hfreeTrim
        exact hfreeTrim.2
      refine (part_negation hw htrim hfreePart ⟨e, he⟩).of_core hw ?_
      rw [htrim]
      exact List.cons_ne_nil _ _
  | _ => exact absurd ho List.not_mem_nil

/-- One step leads from a derived text to a part of it. -/
theorem Begins.exists_part (h : text.Begins budget w left v) (hw : text.Holds w cs)
    (hcs : ∃ d : Derivation.Start, d.text = cs) :
    ∃ before part after, text.Part (.chain .equality) 0 w.start cs v before part after := by
  cases h with
  | group hshape hspend => exact exists_part_of_group hshape hw hcs
  | operand hsplit hearlier hspend =>
      refine exists_part_of_operand ?_ hw hcs
      rw [hsplit]
      exact List.mem_append_right _ List.mem_cons_self

/-- The windows that are visited while a derived text is read hold parts of it, by induction on the
path. -/
theorem Visits.exists_part (h : text.Visits budget w left v) :
    ∀ {cs : List Char}, text.Holds w cs → (∃ d : Derivation.Start, d.text = cs) →
      ∃ before part after, text.Part (.chain .equality) 0 w.start cs v before part after := by
  induction h with
  | here =>
      intro cs hw hcs
      exact ⟨[], cs, [], .refl hw hcs⟩
  | through hbegins _ ih =>
      intro cs hw hcs
      -- the part that the first step leads to is a derived text of its own
      obtain ⟨before, part, after, hpart⟩ := hbegins.exists_part hw hcs
      obtain ⟨before', inner, after', hinner⟩ := ih hpart.holds hpart.derived
      exact ⟨_, inner, _, hpart.trans hinner⟩

end Source

end Sentential
