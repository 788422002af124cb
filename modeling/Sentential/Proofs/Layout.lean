import Sentential.Proofs.Parts
import Sentential.Proofs.Spelling

/-!
# Blanks and redundant parentheses

Layout does not change what a text means (`parse_layout`). Blanks can be put beside a parenthesis or
an operator outside of quotation marks, at any depth of a derived text
(`Derivation.standsFor_blanks`): the place lies at an end of some operand, since an atom has no such
place inside (`Atom.not_gap`). And a window that the reading visits can be put in parentheses
(`Source.Visits.standsFor_parenthesize`), which costs the nesting of a group.
-/

namespace Sentential

open Text

/-! ## Blanks -/

/-- A parenthesis or the glyph of an operator. -/
def IsDelimiter (c : Char) : Prop := c = openParen ∨ c = closeParen ∨ ∃ op : Operator, op.glyph = c

/-- One of the characters on either side of a gap is a delimiter, unless the gap is at an end. -/
def Gap (before after : List Char) : Prop :=
  ∀ a ∈ before.getLast?, ∀ b ∈ after.head?, IsDelimiter a ∨ IsDelimiter b

section Gaps

variable {as bs cs before after blanks : List Char}

theorem Gap.of_append_left (h : Gap (as ++ before) after) : Gap before after := by
  intro a ha
  refine h a ?_
  rw [List.getLast?_append, Option.mem_def.1 ha]
  rfl

theorem Gap.of_append_right (h : Gap before (after ++ bs)) : Gap before after := by
  intro a ha b hb
  refine h a ha b ?_
  rw [List.head?_append, Option.mem_def.1 hb]
  rfl

theorem Gap.of_cons {c : Char} (h : Gap (c :: before) after) : Gap before after :=
  @Gap.of_append_left [c] before after h

theorem QuotesPaired.of_cons {c : Char} (hc : c ≠ quoteMark) (h : QuotesPaired (c :: cs)) :
    QuotesPaired cs := by
  rwa [QuotesPaired, List.count_cons_of_ne hc] at h

/-- A text between two characters is divided inside itself, if both parts have a character. -/
theorem cons_concat_eq_append {first last : Char} (h : first :: cs ++ [last] = as ++ bs)
    (has : as ≠ []) (hbs : bs ≠ []) :
    ∃ left right, cs = left ++ right ∧ as = first :: left ∧ bs = right ++ [last] := by
  obtain ⟨a, left, rfl⟩ := List.exists_cons_of_ne_nil has
  obtain ⟨right, b, rfl⟩ : ∃ right b, bs = right ++ [b] :=
    ⟨_, _, (List.dropLast_concat_getLast hbs).symm⟩
  rw [List.cons_append, List.cons_append, ← List.append_assoc, List.cons.injEq] at h
  obtain ⟨hcs, hlast⟩ := List.append_inj' h.2 rfl
  exact ⟨left, right, hcs, by rw [h.1], by rw [hlast]⟩

theorem not_isDelimiter_of_ordinary {c : Char} (hplain : IsPlain c)
    (hreserved : isReserved c = false) :
    ¬IsDelimiter c := by
  rintro (hopen | hclose | ⟨op, hglyph⟩)
  · exact hplain.1 hopen
  · exact hplain.2 hclose
  · exact glyph_ne_of_not_isReserved hreserved (.operator op) hglyph

/-- There is no gap inside an atom after paired quotation marks. -/
theorem Atom.not_gap {a : Atom} (h : a.text = before ++ after) (hbefore : before ≠ [])
    (hafter : after ≠ []) (hquotes : QuotesPaired before) : ¬Gap before after := by
  cases a with
  | const value =>
      have hlength := congrArg List.length h
      rw [Atom.text, List.length_singleton, List.length_append] at hlength
      have := List.length_pos_iff.2 hbefore
      have := List.length_pos_iff.2 hafter
      omega
  | plain name hname =>
      rw [Atom.text] at h
      subst h
      have hordinary {c : Char} (hc : c ∈ before ++ after) : ¬IsDelimiter c := by
        obtain ⟨-, hplain, -, hreserved⟩ := hname.ordinary c hc
        exact not_isDelimiter_of_ordinary hplain hreserved
      intro hgap
      have hlast := List.getLast?_eq_some_getLast hbefore
      have hfirst := List.head?_eq_some_head hafter
      rcases hgap _ hlast _ hfirst with hdelimiter | hdelimiter
      · exact hordinary (List.mem_append_left after (List.getLast_mem hbefore)) hdelimiter
      · exact hordinary (List.mem_append_right before (List.head_mem hafter)) hdelimiter
  | quoted inside hinside =>
      -- inside a quoted name the opening quotation mark has no partner before the gap
      obtain ⟨left, right, rfl, rfl, -⟩ := cons_concat_eq_append h hbefore hafter
      have hleft : quoteMark ∉ left :=
        fun hmem => hinside.unquoted (List.mem_append_left right hmem)
      exact absurd hquotes (not_quotesPaired_of_lone hleft)

/-- Where a derived text between blanks is divided. In the blanks other blanks can be added;
otherwise the text is divided inside itself. -/
theorem Derivation.standsFor_or_divided {level : Level} (d : Derivation level) (entry : Nat)
    {pre post : List Char} (hpre : isAllBlank pre = true) (hpost : isAllBlank post = true)
    (hblanks : isAllBlank blanks = true) (h : pre ++ d.text ++ post = before ++ after) :
    StandsFor level entry 0 (before ++ blanks ++ after) (before ++ after) ∨
      ∃ left right, left ≠ [] ∧ right ≠ [] ∧ d.text = left ++ right ∧ before = pre ++ left ∧
        after = right ++ post := by
  have hpad (pre' post' : List Char) (hpre' : isAllBlank pre' = true)
      (hpost' : isAllBlank post' = true)
      (hnew : pre' ++ d.text ++ post' = before ++ blanks ++ after) :
      StandsFor level entry 0 (before ++ blanks ++ after) (before ++ after) := by
    rw [← hnew, ← h]
    exact (d.standsFor entry).pad hpre' hpost' hpre hpost
  rcases List.append_eq_append_iff.1 h with ⟨first, hbefore, rfl⟩ | ⟨rest, hmid, hafter⟩
  · -- in the blanks after the text, or at its end
    rw [isAllBlank_append] at hpost
    refine Or.inl (hpad pre (first ++ blanks ++ after) hpre ?_ ?_)
    · exact isAllBlank_append.2 ⟨isAllBlank_append.2 ⟨hpost.1, hblanks⟩, hpost.2⟩
    · simp only [hbefore, List.append_assoc]
  rcases List.append_eq_append_iff.1 hmid with ⟨left, hbefore, htext⟩ | ⟨rest', rfl, hrest⟩
  · by_cases hleft : left = []
    · refine Or.inl (hpad (pre ++ blanks) post (isAllBlank_append.2 ⟨hpre, hblanks⟩) hpost ?_)
      simp only [hbefore, hafter, hleft, htext, List.append_assoc, List.nil_append]
    by_cases hright : rest = []
    · refine Or.inl (hpad pre (blanks ++ post) hpre (isAllBlank_append.2 ⟨hblanks, hpost⟩) ?_)
      simp only [hbefore, hafter, hright, htext, List.append_assoc, List.append_nil,
        List.nil_append]
    exact Or.inr ⟨left, rest, hleft, hright, htext, hbefore, hafter⟩
  · -- in the blanks before the text, or at its beginning
    rw [isAllBlank_append] at hpre
    refine Or.inl (hpad (before ++ blanks ++ rest') post ?_ hpost ?_)
    · exact isAllBlank_append.2 ⟨isAllBlank_append.2 ⟨hpre.1, hblanks⟩, hpre.2⟩
    · simp only [hafter, hrest, List.append_assoc]

end Gaps

namespace Derivation

/-- Blanks can be put into every gap of a derived text that stands after paired quotation marks. By
induction on the derivation: they are added to the blanks of an operand, and an atom has no such gap
inside. -/
theorem standsFor_blanks {level : Level} (d : Derivation level) {before after blanks : List Char}
    (htext : d.text = before ++ after) (hquotes : QuotesPaired before) (hgap : Gap before after)
    (hblanks : isAllBlank blanks = true) (entry : Nat) :
    StandsFor level entry 0 (before ++ blanks ++ after) (before ++ after) := by
  induction d generalizing before after entry with
  | lift d ih => exact (ih htext hquotes hgap 0).lift entry
  | link op hop left right ihl ihr =>
      rcases List.append_eq_append_iff.1 htext with ⟨first, rfl, hrest⟩ | ⟨rest, hleft, rfl⟩
      · cases first with
        -- at the end of the first operand the blanks are added to those of this operand
        | nil =>
            have hpad := (left.standsFor 0).pad isAllBlank_nil hblanks isAllBlank_nil isAllBlank_nil
            have hlink := hpad.link_left hop right entry
            simp only [List.nil_append, List.append_nil] at hrest hlink ⊢
            rwa [← hrest]
        | cons c first =>
            -- the connective is before the gap, so that the gap lies in the rest of the chain
            rw [List.cons_append, List.cons.injEq] at hrest
            obtain ⟨rfl, hright⟩ := hrest
            have hquotesRight := (hquotes.of_append left.quotesPaired).of_cons
              (glyph_ne_quoteMark (.operator (.binary op)))
            have hlink :=
              (ihr hright hquotesRight hgap.of_append_left.of_cons chainCost).link_right hop
              left entry
            simpa only [List.append_assoc, List.cons_append] using hlink
      · have hlink := (ihl hleft hquotes hgap.of_append_right 0).link_left hop right entry
        simpa only [List.append_assoc, List.cons_append] using hlink
  | negation pre d ih =>
      have hwhole : pre.1 ++ (negation noBlanks d).text ++ [] = before ++ after := by
        rw [← htext, List.append_nil]
        rfl
      have hdivides := (negation noBlanks d).standsFor_or_divided entry pre.2 isAllBlank_nil hblanks
        hwhole
      rcases hdivides with h | ⟨left, right, hleft, -, hdivided, rfl, hafter⟩
      · exact h
      · -- a part before the gap begins with the glyph of the negation
        obtain ⟨c, left, rfl⟩ := List.exists_cons_of_ne_nil hleft
        have hcons : negationGlyph :: d.text = c :: (left ++ right) := hdivided
        rw [List.cons.injEq] at hcons
        obtain ⟨rfl, hinside⟩ := hcons
        rw [List.append_nil] at hafter
        subst hafter
        have hquotesLeft := (hquotes.of_append (quotesPaired_of_isAllBlank pre.2)).of_cons
          (glyph_ne_quoteMark (.operator .negation))
        have hneg := (ih hinside hquotesLeft hgap.of_append_left.of_cons 0).negation pre.2 entry
        simpa only [List.append_assoc, List.cons_append] using hneg
  | group pre d post ih =>
      have hwhole : pre ++ (group noBlanks d noBlanks).text ++ post = before ++ after := by
        rw [← htext]
        simp only [text, noBlanks, List.nil_append, List.append_nil]
      rcases (group noBlanks d noBlanks).standsFor_or_divided entry pre.2 post.2 hblanks hwhole with
        h | ⟨left, right, hleft, hright, hdivided, rfl, rfl⟩
      · exact h
      · -- the parentheses are on either side of the gap
        simp only [text, noBlanks, List.nil_append, List.append_nil] at hdivided
        obtain ⟨left, right, hinside, rfl, rfl⟩ := cons_concat_eq_append hdivided hleft hright
        have hquotesLeft :=
          (hquotes.of_append (quotesPaired_of_isAllBlank pre.2)).of_cons (by decide)
        have hgapInside := (hgap.of_append_left.of_cons.of_append_right).of_append_right
        have hgroup := (ih hinside hquotesLeft hgapInside 0).group pre.2 post.2 entry
        simpa only [List.append_assoc, List.cons_append] using hgroup
  | atom pre a post =>
      have hwhole : pre ++ (ofAtom a).text ++ post = before ++ after := by
        rw [← htext, text_ofAtom]
        rfl
      rcases (ofAtom a).standsFor_or_divided entry pre.2 post.2 hblanks hwhole with
        h | ⟨left, right, hleft, hright, hdivided, rfl, rfl⟩
      · exact h
      · rw [text_ofAtom] at hdivided
        have hquotesLeft := hquotes.of_append (quotesPaired_of_isAllBlank pre.2)
        exact absurd hgap.of_append_left.of_append_right
          (Atom.not_gap hdivided hleft hright hquotesLeft)

end Derivation

/-! ## Redundant parentheses -/

/-- The text with a window of it in parentheses. -/
def parenthesize (s : String) (v : Window) : String :=
  String.ofList
    (s.toList.take v.start ++ (openParen :: (Source.ofString s).slice v ++ [closeParen]) ++
    s.toList.drop v.stop)

/-- A visited window in parentheses stands for the window. -/
theorem Source.Visits.standsFor_parenthesize {budget left : Budget} {s : String} {v : Window}
    (h : (ofString s).Visits budget (ofString s).whole left v) {f : Formula} (hs : Derives s f) :
    StandsFor (.chain .equality) 0 groupCost (parenthesize s v).toList s.toList ∧
      (parenthesize s v).length = s.length + 2 := by
  obtain ⟨d, hd, -⟩ := hs
  obtain ⟨before, part, after, hpart⟩ := h.exists_part (holds_whole s) ⟨d, hd⟩
  have hsplit := hpart.split
  have hstart : v.start = before.length := by
    rw [hpart.start_eq]
    exact Nat.zero_add _
  have hstop : v.stop = (before ++ part).length := by
    rw [hpart.holds.stop_eq, hstart, List.length_append]
  have htext : (parenthesize s v).toList =
      before ++ (openParen :: part ++ [closeParen]) ++ after := by
    rw [parenthesize, String.toList_ofList, hpart.holds.slice_eq, hsplit, hstop, List.drop_left,
      hstart, List.append_assoc before part after, List.take_left]
  constructor
  · obtain ⟨e, he⟩ := hpart.derived
    rw [htext]
    apply hpart.replace
    rw [← he]
    exact e.standsFor_group
  · rw [← String.length_toList, htext, ← String.length_toList, hsplit]
    simp only [List.length_append, List.length_cons, List.length_nil]
    omega

/-- Layout does not change what a text means. If a text is read as a formula within some budget,
blanks at a parenthesis or at an operator, outside of quotation marks, leave the formula as it is;
and so do parentheses around a window that the reading visits, unless the group that is added
exceeds the budget. It is the cost of this one group that may exceed it, since a budget that is
larger by this cost is enough. -/
theorem parse_layout {budget : Budget} {s : String} {f : Formula}
    (h : (Formula.parseWithin budget s).result = .ok f) :
    (∀ before after blanks : List Char, s.toList = before ++ after → QuotesPaired before →
        ((∃ c ∈ before.getLast?, IsDelimiter c) ∨ ∃ c ∈ after.head?, IsDelimiter c) →
        isAllBlank blanks = true →
        (Formula.parseWithin budget (String.ofList (before ++ blanks ++ after))).result = .ok f) ∧
      ∀ (left : Budget) (v : Window),
        (Source.ofString s).Visits budget (Source.ofString s).whole left v →
        ((Formula.parseWithin budget (parenthesize s v)).result = .ok f ∨
            (Formula.parseWithin budget (parenthesize s v)).result =
              .error (.tooDeep (s.length + 2))) ∧
          ∀ larger : Budget, larger.spend? groupCost = some budget →
            (Formula.parseWithin larger (parenthesize s v)).result = .ok f := by
  constructor
  · intro before after blanks hsplit hquotes hdelimiter hblanks
    obtain ⟨d, hd, -⟩ := derives_of_parseWithin h
    -- at an end of the text there is no character on one side, which a gap allows
    have hgap : Gap before after := by
      intro a ha b hb
      rcases hdelimiter with ⟨c, hc, hdelimiter⟩ | ⟨c, hc, hdelimiter⟩
      · rw [Option.mem_unique ha hc]
        exact Or.inl hdelimiter
      · rw [Option.mem_unique hb hc]
        exact Or.inr hdelimiter
    have hstands := d.standsFor_blanks (hd.trans hsplit) hquotes hgap hblanks 0
    rw [← hsplit] at hstands
    obtain ⟨m, n, hcovers, hle, hread⟩ := hstands.parseWithin h
    rw [hread budget, Budget.outcome, if_pos (hcovers.mono hle)]
  · intro left v hvisits
    obtain ⟨hstands, hlength⟩ := hvisits.standsFor_parenthesize (derives_of_parseWithin h)
    obtain ⟨m, n, hcovers, hle, hread⟩ := hstands.parseWithin h
    rw [String.ofList_toList, String.length_toList, hlength] at hread
    constructor
    · rw [hread budget, Budget.outcome]
      split
      · exact Or.inl rfl
      · exact Or.inr rfl
    · intro larger hspend
      have hlarger := (Budget.covers_iff_of_spend hspend m).1 hcovers
      rw [Nat.add_comm] at hlarger
      rw [hread larger, Budget.outcome, if_pos (hlarger.mono hle)]

/-- With its first operand in parentheses, the text p∧(q) begins with an opening and ends with a
closing parenthesis that are no pair. -/
theorem parse_layout_adjacent_groups :
    let s := "p∧(q)"
    let f := Formula.binary .and (.var "p") (.var "q")
    (Formula.parse s).result = .ok f ∧
      (s.toList = "p∧".toList ++ "(q)".toList ∧ QuotesPaired "p∧".toList ∧
        (∃ c ∈ "p∧".toList.getLast?, IsDelimiter c) ∧ isAllBlank " \t".toList = true) ∧
      (Formula.parse "p∧ \t(q)").result = .ok f ∧
      (Source.ofString s).Visits nestingBudget (Source.ofString s).whole (some 982) ⟨0, 1⟩ ∧
      parenthesize s ⟨0, 1⟩ = "(p)∧(q)" ∧ (Formula.parse "(p)∧(q)").result = .ok f ∧
      Budget.spend? (some 987) groupCost = some nestingBudget ∧
      (Formula.parseWithin (some 987) "(p)∧(q)").result = .ok f := by
  intro s f
  have hread : (Formula.parse s).result = .ok f := by decide +kernel
  have hsplit : s.toList = "p∧".toList ++ "(q)".toList := by decide
  have hquotes : QuotesPaired "p∧".toList := quotesPaired_of_not_mem (by decide)
  have hdelimiter : ∃ c ∈ "p∧".toList.getLast?, IsDelimiter c :=
    ⟨'∧', by decide, Or.inr (Or.inr ⟨.binary .and, rfl⟩)⟩
  have hblanks : isAllBlank " \t".toList = true := by decide
  have hvisits :
      (Source.ofString s).Visits nestingBudget (Source.ofString s).whole (some 982) ⟨0, 1⟩ := by
    have hoperands : (Source.ofString s).operands (Source.ofString s).whole =
        [] ++ ⟨⟨0, 1⟩, .binary .and, .left, ⟨0, 5⟩⟩ ::
          [⟨⟨2, 5⟩, .binary .and, .right, ⟨0, 5⟩⟩] := by
      decide +kernel
    exact .through (.operand hoperands (fun p hp => absurd hp List.not_mem_nil) rfl) .here
  have hparens : parenthesize s ⟨0, 1⟩ = "(p)∧(q)" := by decide +kernel
  have hspend : Budget.spend? (some 987) groupCost = some nestingBudget := rfl
  obtain ⟨hgap, hgroup⟩ := parse_layout hread
  obtain ⟨hparse, hlarger⟩ := hgroup _ _ hvisits
  rw [hparens] at hparse hlarger
  have hwith := hgap _ _ _ hsplit hquotes (Or.inl hdelimiter) hblanks
  have hdeep :
      (Formula.parseWithin nestingBudget "(p)∧(q)").result ≠ .error (.tooDeep (s.length + 2)) := by
    decide +kernel
  exact ⟨hread, ⟨hsplit, hquotes, hdelimiter, hblanks⟩, hwith, hvisits, hparens,
    hparse.resolve_right hdeep, hspend, hlarger _ hspend⟩

end Sentential
