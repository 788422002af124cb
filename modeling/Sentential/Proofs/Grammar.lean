import Sentential.Formula.Parser
import Sentential.Proofs.Splits

/-!
# The grammar of normalized formulas

The grammar has one level for each family of connectives and one for operands:

* a chain of a family is a text of the next tighter level, or such a text, a connective of the
  family and a chain of the same family;
* an operand is a negation of an operand, a chain of the loosest family in parentheses, or an atom,
  with blanks around it.

A `Derivation` is a derivation tree. `Derivation.text` is the text that it derives and
`Derivation.tree` the formula that it builds. The grammar is unambiguous: a text has at most one
derivation at a level (`Derivation.text_injective`). Derivations cover balanced texts only
(`Derivation.balanced`), and what is on the surface of a derived text is bounded by its level
(`Derivation.freeOf`).
-/

namespace Sentential

open Text

/-- A text without any visible character. -/
abbrev Blanks := { cs : List Char // isAllBlank cs = true }

/-- No blanks. -/
def noBlanks : Blanks := ⟨[], isAllBlank_nil⟩

/-- A name that can stand without quotation marks. -/
structure IsPlainName (cs : List Char) : Prop where
  nonempty : cs ≠ []
  ordinary : ∀ c ∈ cs, isBlank c = false ∧ IsPlain c ∧ c ≠ quoteMark ∧ isReserved c = false

/-- A text that can stand between quotation marks. -/
structure IsQuotable (cs : List Char) : Prop where
  unquoted : quoteMark ∉ cs
  visible : isAllBlank cs = false
  balanced : Balanced cs
  noOperator : ∀ op : Operator, op.glyph ∉ surface cs

/-- The texts without parts: constants and names. -/
inductive Atom where
  | const (value : Bool)
  | plain (name : List Char) (h : IsPlainName name)
  | quoted (inside : List Char) (h : IsQuotable inside)

namespace Atom

/-- The text of an atom. -/
def text : Atom → List Char
  | const value => [constGlyph value]
  | plain name _ => name
  | quoted inside _ => quoteMark :: inside ++ [quoteMark]

/-- The formula of an atom; a name keeps its quotation marks. -/
def tree : Atom → Formula
  | const value => .const value
  | plain name _ => .var (String.ofList name)
  | quoted inside _ => .var (String.ofList (quoteMark :: inside ++ [quoteMark]))

end Atom

/-- Levels of the grammar. -/
inductive Level where
  | chain (family : Family)
  | operand
  deriving DecidableEq

/-- The level below the chains of a family. -/
def Family.tighter : Family → Level
  | .equality => .chain .disjunction
  | .disjunction => .chain .conjunction
  | .conjunction => .operand

/-- The strength of the connectives at a level; operands have none. -/
def Level.strength : Level → Nat
  | .chain family => family.strength
  | .operand => 0

/-- Derivation trees of the grammar. -/
inductive Derivation : Level → Type
  | lift {family : Family} (d : Derivation family.tighter) : Derivation (.chain family)
  | link {family : Family} (op : Connective) (hop : op.family = family)
      (left : Derivation family.tighter) (right : Derivation (.chain family)) :
      Derivation (.chain family)
  | negation (pre : Blanks) (d : Derivation .operand) : Derivation .operand
  | group (pre : Blanks) (d : Derivation (.chain .equality)) (post : Blanks) : Derivation .operand
  | atom (pre : Blanks) (a : Atom) (post : Blanks) : Derivation .operand

namespace Derivation

/-- The text that a derivation derives. -/
def text : {level : Level} → Derivation level → List Char
  | _, lift d => d.text
  | _, link op _ left right => left.text ++ op.glyph :: right.text
  | _, negation pre d => pre ++ negationGlyph :: d.text
  | _, group pre d post => pre ++ (openParen :: d.text ++ [closeParen]) ++ post
  | _, atom pre a post => pre ++ a.text ++ post

/-- The formula that a derivation builds. -/
def tree : {level : Level} → Derivation level → Formula
  | _, lift d => d.tree
  | _, link op _ left right => .binary op left.tree right.tree
  | _, negation _ d => .neg d.tree
  | _, group _ d _ => d.tree
  | _, atom _ a _ => a.tree

end Derivation

/-- Derivations from the start symbol. -/
abbrev Derivation.Start := Derivation (.chain .equality)

/-- The text derives the formula. -/
def Derives (s : String) (f : Formula) : Prop :=
  ∃ d : Derivation.Start, d.text = s.toList ∧ d.tree = f

/-! ## Atoms -/

theorem isReserved_glyph (s : Symbol) : isReserved s.glyph = true := by
  have h : ∀ s ∈ Symbol.all, isReserved s.glyph = true := by decide
  exact h s s.mem_all

theorem glyph_ne_of_not_isReserved {c : Char} (h : isReserved c = false) (s : Symbol) :
    s.glyph ≠ c := by
  rintro rfl
  rw [isReserved_glyph] at h
  exact Bool.noConfusion h

theorem operator_glyph_ne_constGlyph (op : Operator) (value : Bool) :
    op.glyph ≠ constGlyph value := by
  rcases op with _ | op
  · cases value <;> decide
  · cases op <;> cases value <;> decide

theorem isPlain_quoteMark : IsPlain quoteMark := by decide

/-- Parentheses count between quotation marks as they do elsewhere. -/
theorem balanced_quoted_iff {inside : List Char} :
    Balanced (quoteMark :: inside ++ [quoteMark]) ↔ Balanced inside := by
  rw [List.cons_append, balanced_cons_iff isPlain_quoteMark, balanced_append_plain_iff]
  intro c hc
  rw [List.mem_singleton.1 hc]
  exact isPlain_quoteMark

theorem surface_quoted {inside : List Char} (h : Balanced inside) :
    surface (quoteMark :: inside ++ [quoteMark]) = quoteMark :: surface inside ++ [quoteMark] := by
  rw [List.cons_append, surface_cons isPlain_quoteMark, surface_append h, List.cons_append]
  rfl

namespace Atom

/-- The first character of an atom: it opens neither a group nor a negation and is not blank. -/
theorem exists_head (a : Atom) : ∃ c rest, a.text = c :: rest ∧ isBlank c = false ∧
    c ≠ openParen ∧ c ≠ negationGlyph := by
  cases a with
  | const value =>
      refine ⟨constGlyph value, [], rfl, isBlank_glyph (.const value), ?_, ?_⟩
      · exact (isPlain_glyph (.const value)).1
      · exact (operator_glyph_ne_constGlyph .negation value).symm
  | plain name h =>
      obtain ⟨c, rest, rfl⟩ := List.exists_cons_of_ne_nil h.nonempty
      obtain ⟨hblank, hplain, -, hreserved⟩ := h.ordinary c List.mem_cons_self
      refine ⟨c, rest, rfl, hblank, hplain.1, ?_⟩
      exact (glyph_ne_of_not_isReserved hreserved (.operator .negation)).symm
  | quoted inside h =>
      exact ⟨quoteMark, inside ++ [quoteMark], rfl, isBlank_quoteMark, by decide, by decide⟩

theorem trimmed (a : Atom) : Trimmed a.text := by
  cases a with
  | const value => exact trimmed_singleton (isBlank_glyph (.const value))
  | plain name h => exact trimmed_of_forall_not_blank fun c hc => (h.ordinary c hc).1
  | quoted inside h => exact trimmed_between isBlank_quoteMark isBlank_quoteMark inside

theorem balanced (a : Atom) : Balanced a.text := by
  cases a with
  | const value =>
      apply balanced_of_forall_plain
      intro c hc
      rw [List.mem_singleton.1 hc]
      exact isPlain_glyph (.const value)
  | plain name h => exact balanced_of_forall_plain fun c hc => (h.ordinary c hc).2.1
  | quoted inside h => exact balanced_quoted_iff.2 h.balanced

/-- No operator is on the surface of an atom. -/
theorem noOperator (a : Atom) (op : Operator) : op.glyph ∉ surface a.text := by
  cases a with
  | const value =>
      have hplain : ∀ c ∈ [constGlyph value], IsPlain c := by
        intro c hc
        rw [List.mem_singleton.1 hc]
        exact isPlain_glyph (.const value)
      rw [text, surface_of_forall_plain hplain, List.mem_singleton]
      exact operator_glyph_ne_constGlyph op value
  | plain name h =>
      rw [text, surface_of_forall_plain fun c hc => (h.ordinary c hc).2.1]
      intro hmem
      exact glyph_ne_of_not_isReserved (h.ordinary _ hmem).2.2.2 (.operator op) rfl
  | quoted inside h =>
      rw [text, surface_quoted h.balanced, List.mem_append, List.mem_cons, List.mem_singleton]
      rintro ((hq | hmem) | hq)
      · exact glyph_ne_quoteMark (.operator op) hq
      · exact h.noOperator op hmem
      · exact glyph_ne_quoteMark (.operator op) hq

theorem freeOf (a : Atom) (family : Family) : FreeOf family a.text :=
  fun op _ => a.noOperator (.binary op)

theorem text_injective {a a' : Atom} (h : a.text = a'.text) : a = a' := by
  have hconst {value : Bool} {name : List Char} (hname : IsPlainName name)
      (heq : [constGlyph value] = name) : False := by
    have := (hname.ordinary (constGlyph value) (by rw [← heq]; exact List.mem_cons_self)).2.2.2
    exact glyph_ne_of_not_isReserved this (.const value) rfl
  have hquote {name inside : List Char} (hname : IsPlainName name)
      (heq : quoteMark :: inside ++ [quoteMark] = name) : False := by
    refine (hname.ordinary quoteMark ?_).2.2.1 rfl
    rw [← heq]
    exact List.mem_cons_self
  have hlength {value : Bool} {inside : List Char}
      (heq : [constGlyph value] = quoteMark :: inside ++ [quoteMark]) : False := by
    have := congrArg List.length heq
    simp at this
  cases a with
  | const value =>
      cases a' with
      | const value' =>
          have hvalue : constGlyph value = constGlyph value' := (List.cons.inj h).1
          cases value <;> cases value' <;> first | rfl | exact absurd hvalue (by decide)
      | plain name hname => exact absurd h fun heq => hconst hname heq
      | quoted inside _ => exact absurd h fun heq => hlength heq
  | plain name hname =>
      cases a' with
      | const value => exact absurd h.symm fun heq => hconst hname heq
      | plain name' _ =>
          simp only [text] at h
          subst h
          rfl
      | quoted inside _ => exact absurd h.symm fun heq => hquote hname heq
  | quoted inside _ =>
      cases a' with
      | const value => exact absurd h.symm fun heq => hlength heq
      | plain name hname => exact absurd h fun heq => hquote hname heq
      | quoted inside' _ =>
          simp only [text, List.cons_append, List.cons.injEq, true_and] at h
          have := List.append_cancel_right h
          subst this
          rfl

end Atom

/-! ## Derived texts -/

theorem Family.tighter_strength_lt (family : Family) :
    family.tighter.strength < family.strength := by
  cases family <;> decide

theorem Family.strength_pos (family : Family) : 0 < family.strength := by
  cases family <;> decide

namespace Derivation

/-- The parentheses of a derived text are those around groups and those inside quoted names. -/
theorem balanced {level : Level} (d : Derivation level) : Balanced d.text := by
  induction d with
  | lift d ih => exact ih
  | link op hop left right ihl ihr =>
      exact ihl.append ((balanced_cons_iff op.isPlain_glyph right.text).2 ihr)
  | negation pre d ih =>
      have hpre := balanced_of_isAllBlank pre.2
      exact hpre.append ((balanced_cons_iff isPlain_negationGlyph d.text).2 ih)
  | group pre d post ih => exact (balanced_blank_append_iff pre.2 post.2 _).2 ih.group
  | atom pre a post => exact (balanced_blank_append_iff pre.2 post.2 _).2 a.balanced

/-- A derived text has no connective on its surface that is looser than its level. -/
theorem freeOf {level : Level} (d : Derivation level) {family : Family}
    (h : level.strength < family.strength) : FreeOf family d.text := by
  induction d with
  | @lift family' d ih => exact ih (Nat.lt_trans family'.tighter_strength_lt h)
  | @link family' op hop left right ihl ihr =>
      rw [text, freeOf_append left.balanced, freeOf_cons op.isPlain_glyph]
      refine ⟨ihl (Nat.lt_trans family'.tighter_strength_lt h), ?_, ihr h⟩
      -- the connective of the chain is of the family of its level, which is tighter
      intro op' hop' hglyph
      rw [Connective.glyph_injective hglyph, hop] at hop'
      rw [hop'] at h
      exact Nat.lt_irrefl _ h
  | negation pre d ih =>
      rw [text, freeOf_append (balanced_of_isAllBlank pre.2),
        freeOf_cons isPlain_negationGlyph]
      refine ⟨freeOf_of_isAllBlank pre.2 family, ?_, ih h⟩
      intro op _
      cases op <;> decide
  | group pre d post ih =>
      exact (freeOf_blank_append_iff pre.2 post.2 d.balanced.group).2
        (freeOf_group d.balanced family)
  | atom pre a post =>
      exact (freeOf_blank_append_iff pre.2 post.2 a.balanced).2 (a.freeOf family)

theorem freeOf_tighter {family : Family} (d : Derivation family.tighter) :
    FreeOf family d.text :=
  d.freeOf family.tighter_strength_lt

theorem freeOf_operand (d : Derivation .operand) (family : Family) : FreeOf family d.text :=
  d.freeOf family.strength_pos

theorem nothingLooser {family : Family} (d : Derivation (.chain family)) :
    NothingLooser family d.text :=
  fun _ h => d.freeOf h

/-- A connective of a chain is on the surface of its text. -/
theorem not_freeOf_link {family : Family} {op : Connective} (hop : op.family = family)
    (left : Derivation family.tighter) (right : Derivation (.chain family)) :
    ¬FreeOf family (link op hop left right).text := by
  intro h
  rw [text, freeOf_append left.balanced, freeOf_cons op.isPlain_glyph] at h
  exact h.2.1 op hop rfl

end Derivation

/-! ## Nesting of a derivation -/

namespace Derivation

/-- The nesting of a derived text. A chain of any length is entered once for each operand, so
`entry`, the cost of entering the rest of a chain, counts only if the rest is a single operand. -/
def nestingFrom (entry : Nat) : {level : Level} → Derivation level → Nat
  | _, lift d => entry + d.nestingFrom 0
  | _, link _ _ left right =>
      max (chainCost + left.nestingFrom 0) (right.nestingFrom chainCost)
  | _, negation _ d => negationCost + d.nestingFrom 0
  | _, group _ d _ => groupCost + d.nestingFrom 0
  | _, atom _ _ _ => 0

/-- The nesting of a derived text that is a window of its own. -/
abbrev nesting {level : Level} (d : Derivation level) : Nat := d.nestingFrom 0

/-- A rest of a chain without further connectives is entered as one operand. -/
theorem nestingFrom_of_freeOf {family : Family} (d : Derivation (.chain family))
    (h : FreeOf family d.text) (entry : Nat) : d.nestingFrom entry = entry + d.nesting := by
  cases d with
  | lift d => rw [nesting, nestingFrom, nestingFrom, Nat.zero_add]
  | link op hop left right => exact absurd h (not_freeOf_link hop left right)

/-- A chain that is entered as one operand is nested no less than on its own. -/
theorem nesting_le_nestingFrom {family : Family} (d : Derivation (.chain family)) (entry : Nat) :
    d.nesting ≤ d.nestingFrom entry := by
  cases d with
  | lift d =>
      rw [nesting, nestingFrom, nestingFrom]
      omega
  | link op hop left right => exact Nat.le_refl _

end Derivation

/-! ## The grammar is unambiguous -/

namespace Derivation

/-- The first operand of a chain ends at its first connective. -/
theorem link_inj {family : Family} {op op' : Connective} (hop : op.family = family)
    (hop' : op'.family = family) {left left' : Derivation family.tighter} {cs cs' : List Char}
    (h : left.text ++ op.glyph :: cs = left'.text ++ op'.glyph :: cs') :
    left.text = left'.text ∧ op = op' ∧ cs = cs' := by
  -- the left operands have no connective of the family, so both texts have their first split here
  have hfirst := congrArg (splits family 0) h
  rw [splits_operand left.balanced left.freeOf_tighter hop,
    splits_operand left'.balanced left'.freeOf_tighter hop', List.cons.injEq,
    Split.mk.injEq] at hfirst
  have hlength : left.text.length = left'.text.length := by omega
  obtain ⟨htext, hrest⟩ := List.append_inj h hlength
  exact ⟨htext, hfirst.1.2, (List.cons.inj hrest).2⟩

/-- A text has at most one derivation at a level. -/
theorem text_injective {level : Level} {d d' : Derivation level} (h : d.text = d'.text) :
    d = d' := by
  induction d with
  | lift d ih =>
      cases d' with
      | lift d' => rw [ih h]
      | link op hop left right =>
          -- one text has a connective of the family on its surface, the other has none
          have hfree := d.freeOf_tighter
          rw [show d.text = (link op hop left right).text from h] at hfree
          exact absurd hfree (not_freeOf_link hop left right)
  | link op hop left right ihl ihr =>
      cases d' with
      | lift d' =>
          have hfree := d'.freeOf_tighter
          rw [show d'.text = (link op hop left right).text from h.symm] at hfree
          exact absurd hfree (not_freeOf_link hop left right)
      | link op' hop' left' right' =>
          obtain ⟨hleft, rfl, hright⟩ := link_inj hop hop' h
          rw [ihl hleft, ihr hright]
  | negation pre d ih =>
      -- blanks aside, negations, groups and atoms begin with different characters
      cases d' with
      | negation pre' d' =>
          obtain ⟨hpre, hrest⟩ := blank_append_inj pre.2 pre'.2 isBlank_negationGlyph
            isBlank_negationGlyph h
          rw [Subtype.ext hpre, ih (List.cons.inj hrest).2]
      | group pre' d' post' =>
          simp only [text, List.append_assoc, List.cons_append] at h
          obtain ⟨-, hrest⟩ := blank_append_inj pre.2 pre'.2 isBlank_negationGlyph
            isBlank_openParen h
          exact absurd (List.cons.inj hrest).1 negationGlyph_ne_openParen
      | atom pre' a' post' =>
          obtain ⟨c, rest, htext, hblank, -, hneg⟩ := a'.exists_head
          simp only [text, htext, List.append_assoc, List.cons_append] at h
          obtain ⟨-, hrest⟩ := blank_append_inj pre.2 pre'.2 isBlank_negationGlyph hblank h
          exact absurd (List.cons.inj hrest).1.symm hneg
  | group pre d post ih =>
      cases d' with
      | negation pre' d' =>
          simp only [text, List.append_assoc, List.cons_append] at h
          obtain ⟨-, hrest⟩ := blank_append_inj pre.2 pre'.2 isBlank_openParen
            isBlank_negationGlyph h
          exact absurd (List.cons.inj hrest).1.symm negationGlyph_ne_openParen
      | group pre' d' post' =>
          obtain ⟨hpre, hbody, hpost⟩ := blank_between_inj pre.2 post.2 pre'.2 post'.2
            (trimmed_between isBlank_openParen isBlank_closeParen d.text) (List.cons_ne_nil _ _)
            (trimmed_between isBlank_openParen isBlank_closeParen d'.text) (List.cons_ne_nil _ _) h
          simp only [List.cons_append, List.cons.injEq, true_and] at hbody
          rw [Subtype.ext hpre, Subtype.ext hpost, ih (List.append_cancel_right hbody)]
      | atom pre' a' post' =>
          obtain ⟨c, rest, htext, hblank, hopen, -⟩ := a'.exists_head
          simp only [text, htext, List.append_assoc, List.cons_append] at h
          obtain ⟨-, hrest⟩ := blank_append_inj pre.2 pre'.2 isBlank_openParen hblank h
          exact absurd (List.cons.inj hrest).1.symm hopen
  | atom pre a post =>
      obtain ⟨c, rest, htext, hblank, hopen, hneg⟩ := a.exists_head
      cases d' with
      | negation pre' d' =>
          simp only [text, htext, List.append_assoc, List.cons_append] at h
          obtain ⟨-, hrest⟩ := blank_append_inj pre.2 pre'.2 hblank isBlank_negationGlyph h
          exact absurd (List.cons.inj hrest).1 hneg
      | group pre' d' post' =>
          simp only [text, htext, List.append_assoc, List.cons_append] at h
          obtain ⟨-, hrest⟩ := blank_append_inj pre.2 pre'.2 hblank isBlank_openParen h
          exact absurd (List.cons.inj hrest).1 hopen
      | atom pre' a' post' =>
          obtain ⟨c', rest', htext', -⟩ := a'.exists_head
          have hne : a.text ≠ [] := by
            rw [htext]
            exact List.cons_ne_nil c rest
          have hne' : a'.text ≠ [] := by
            rw [htext']
            exact List.cons_ne_nil c' rest'
          obtain ⟨hpre, hbody, hpost⟩ := blank_between_inj pre.2 post.2 pre'.2 post'.2 a.trimmed hne
            a'.trimmed hne' h
          rw [Subtype.ext hpre, Subtype.ext hpost, Atom.text_injective hbody]

end Derivation

/-! ## Derivations at other levels -/

namespace Derivation

/-- A derivation of an operand as one from the start symbol. -/
def ofOperand (d : Derivation .operand) : Derivation.Start :=
  lift (lift (lift d : Derivation (.chain .conjunction)) : Derivation (.chain .disjunction))

/-- An atom as an operand. -/
def ofAtom (a : Atom) : Derivation .operand := atom noBlanks a noBlanks

theorem text_ofAtom (a : Atom) : (ofAtom a).text = a.text := List.append_nil a.text

/-- Blanks can be put around any derived text. -/
theorem exists_pad {level : Level} (d : Derivation level) {pre post : List Char}
    (hpre : isAllBlank pre = true) (hpost : isAllBlank post = true) :
    ∃ d' : Derivation level, d'.text = pre ++ d.text ++ post ∧ d'.tree = d.tree ∧
      ∀ entry, d'.nestingFrom entry = d.nestingFrom entry := by
  induction d generalizing pre post with
  | lift d ih =>
      obtain ⟨d', htext, htree, hnesting⟩ := ih hpre hpost
      refine ⟨lift d', htext, htree, ?_⟩
      intro entry
      rw [nestingFrom, nestingFrom, hnesting]
  | link op hop left right ihl ihr =>
      -- the blanks go to the outer sides of the first and of the last operand
      obtain ⟨left', hltext, hltree, hlnesting⟩ := ihl hpre isAllBlank_nil
      obtain ⟨right', hrtext, hrtree, hrnesting⟩ := ihr isAllBlank_nil hpost
      refine ⟨link op hop left' right', ?_, ?_, ?_⟩
      · simp only [text, hltext, hrtext, List.nil_append, List.append_nil, List.append_assoc,
          List.cons_append]
      · rw [tree, tree, hltree, hrtree]
      · intro entry
        rw [nestingFrom, nestingFrom, hlnesting, hrnesting]
  | negation pre' d ih =>
      obtain ⟨d', htext, htree, hnesting⟩ := ih isAllBlank_nil hpost
      refine ⟨negation ⟨pre ++ pre', isAllBlank_append.2 ⟨hpre, pre'.2⟩⟩ d', ?_, ?_, ?_⟩
      · simp only [text, htext, List.nil_append, List.append_assoc, List.cons_append]
      · rw [tree, tree, htree]
      · intro entry
        rw [nestingFrom, nestingFrom, hnesting]
  | group pre' d post' =>
      refine ⟨group ⟨pre ++ pre', isAllBlank_append.2 ⟨hpre, pre'.2⟩⟩ d
        ⟨post' ++ post, isAllBlank_append.2 ⟨post'.2, hpost⟩⟩, ?_, rfl, fun _ => rfl⟩
      simp only [text, List.append_assoc]
  | atom pre' a post' =>
      refine ⟨atom ⟨pre ++ pre', isAllBlank_append.2 ⟨hpre, pre'.2⟩⟩ a
        ⟨post' ++ post, isAllBlank_append.2 ⟨post'.2, hpost⟩⟩, ?_, rfl, fun _ => rfl⟩
      simp only [text, List.append_assoc]

/-- A chain without connectives is a text of the next tighter level. -/
theorem exists_tighten {family : Family} (d : Derivation (.chain family))
    (h : FreeOf family d.text) :
    ∃ d' : Derivation family.tighter, d'.text = d.text ∧ d'.tree = d.tree := by
  cases d with
  | lift d => exact ⟨d, rfl, rfl⟩
  | link op hop left right => exact absurd h (not_freeOf_link hop left right)

/-- A text without looser connectives is a chain of the family. -/
theorem exists_descend (d : Derivation.Start) {family : Family} (h : NothingLooser family d.text) :
    ∃ d' : Derivation (.chain family), d'.text = d.text ∧ d'.tree = d.tree := by
  cases family with
  | equality => exact ⟨d, rfl, rfl⟩
  | disjunction => exact exists_tighten d (h .equality (by decide))
  | conjunction =>
      obtain ⟨d₁, htext₁, htree₁⟩ := exists_tighten d (h .equality (by decide))
      have hfree : FreeOf .disjunction d₁.text := by
        rw [htext₁]
        exact h .disjunction (by decide)
      obtain ⟨d₂, htext₂, htree₂⟩ := @exists_tighten .disjunction d₁ hfree
      exact ⟨d₂, htext₂.trans htext₁, htree₂.trans htree₁⟩

/-- A text without connectives of a family or looser ones is at the level below the family. -/
theorem exists_descend_tighter (d : Derivation.Start) {family : Family}
    (hloose : NothingLooser family d.text) (hfree : FreeOf family d.text) :
    ∃ d' : Derivation family.tighter, d'.text = d.text ∧ d'.tree = d.tree := by
  obtain ⟨d₁, htext₁, htree₁⟩ := d.exists_descend hloose
  rw [← htext₁] at hfree
  obtain ⟨d₂, htext₂, htree₂⟩ := d₁.exists_tighten hfree
  exact ⟨d₂, htext₂.trans htext₁, htree₂.trans htree₁⟩

/-- A text without connectives is an operand. -/
theorem exists_descend_operand (d : Derivation.Start)
    (h : ∀ family : Family, FreeOf family d.text) :
    ∃ d' : Derivation .operand, d'.text = d.text ∧ d'.tree = d.tree :=
  d.exists_descend_tighter (fun looser _ => h looser) (h .conjunction)

/-- A chain of any family as a derivation from the start symbol. -/
theorem exists_raise {family : Family} (d : Derivation (.chain family)) :
    ∃ d' : Derivation.Start, d'.text = d.text ∧ d'.tree = d.tree ∧ d'.nesting = d.nesting := by
  cases family with
  | equality => exact ⟨d, rfl, rfl, rfl⟩
  | disjunction => exact ⟨lift d, rfl, rfl, Nat.zero_add _⟩
  | conjunction =>
      refine ⟨lift (lift d : Derivation (.chain .disjunction)), rfl, rfl, ?_⟩
      exact (Nat.zero_add _).trans (Nat.zero_add _)

/-- An operand as a text of the level below a family. -/
theorem exists_tighter_of_operand (family : Family) (d : Derivation .operand) :
    ∃ d' : Derivation family.tighter, d'.text = d.text ∧ d'.tree = d.tree ∧
      d'.nesting = d.nesting := by
  cases family with
  | equality =>
      refine ⟨(lift (lift d : Derivation (.chain .conjunction)) : Derivation (.chain .disjunction)),
        rfl, rfl, ?_⟩
      exact (Nat.zero_add _).trans (Nat.zero_add _)
  | disjunction => exact ⟨(lift d : Derivation (.chain .conjunction)), rfl, rfl, Nat.zero_add _⟩
  | conjunction => exact ⟨d, rfl, rfl, rfl⟩

/-- Two operands with a connective between them, in parentheses. -/
theorem exists_binary (op : Connective) (left right : Derivation .operand) :
    ∃ d : Derivation .operand,
      d.text = openParen :: (left.text ++ ' ' :: op.glyph :: ' ' :: right.text) ++ [closeParen] ∧
        d.tree = .binary op left.tree right.tree ∧
        d.nesting = groupCost + (chainCost + max left.nesting right.nesting) := by
  obtain ⟨l, hltext, hltree, hlnesting⟩ := left.exists_pad isAllBlank_nil isAllBlank_space
  obtain ⟨r, hrtext, hrtree, hrnesting⟩ := right.exists_pad isAllBlank_space isAllBlank_nil
  -- a chain of two operands of the family of the connective, raised to the loosest level
  obtain ⟨l', hltext', hltree', hlnesting'⟩ := l.exists_tighter_of_operand op.family
  obtain ⟨r', hrtext', hrtree', hrnesting'⟩ := r.exists_tighter_of_operand op.family
  obtain ⟨d, htext, htree, hnesting⟩ := (link op rfl l' (lift r')).exists_raise
  refine ⟨group noBlanks d noBlanks, ?_, ?_, ?_⟩
  · simp only [text, noBlanks, htext, hltext', hltext, hrtext', hrtext, List.nil_append,
      List.append_nil, List.append_assoc, List.cons_append]
  · rw [tree, htree, tree, tree, hltree', hltree, hrtree', hrtree]
  · have hl : l'.nestingFrom 0 = left.nesting := hlnesting'.trans (hlnesting 0)
    have hr : r'.nestingFrom 0 = right.nesting := hrnesting'.trans (hrnesting 0)
    rw [nesting, nestingFrom, show d.nestingFrom 0 = _ from hnesting, nesting, nestingFrom,
      nestingFrom, hl, hr, Nat.add_max_add_left]

/-! ### Names -/

/-- Every name in the tree of a derivation is an atom of its own. -/
theorem exists_atom_of_mem_names {level : Level} (d : Derivation level) {name : String}
    (h : name ∈ d.tree.names) : ∃ a : Atom, a.text = name.toList ∧ a.tree = .var name := by
  induction d with
  | lift d ih => exact ih h
  | link op hop left right ihl ihr =>
      rcases List.mem_append.1 h with hl | hr
      · exact ihl hl
      · exact ihr hr
  | negation pre d ih => exact ih h
  | group pre d post ih => exact ih h
  | atom pre a post =>
      cases a with
      | const value => exact absurd h List.not_mem_nil
      | plain cs hcs =>
          rw [List.mem_singleton.1 h]
          exact ⟨.plain cs hcs, String.toList_ofList.symm, rfl⟩
      | quoted inside hinside =>
          rw [List.mem_singleton.1 h]
          exact ⟨.quoted inside hinside, String.toList_ofList.symm, rfl⟩

end Derivation

end Sentential
