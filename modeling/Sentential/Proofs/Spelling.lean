import Sentential.Proofs.Normalizing
import Sentential.Proofs.RoundTrip

/-!
# Spelling with glyphs and with keywords

A symbol is spelled as its glyph or as one of its keywords, in any mix of cases (`IsSpelling`), and
`Spelled f cs` says that `cs` writes the formula `f` with a spelling of its own at every symbol.
Whatever the spellings are, the line is read as the formula, if the names of the formula are read as
themselves and in normal form (`parseLine_spelled`). Both are so for the names of every formula read
from a line, since normalization has left no keyword in the text that the names come from
(`Derivation.isNormal_iff`).
-/

namespace Sentential

open Text

/-- The character is the letter or its capital. -/
def SameLetter (c letter : Char) : Prop := c = letter ∨ c = letter.toUpper

instance (c letter : Char) : Decidable (SameLetter c letter) :=
  inferInstanceAs (Decidable (c = letter ∨ c = letter.toUpper))

/-- A keyword of the symbol, in any mix of cases. -/
def IsKeyword (s : Symbol) (cs : List Char) : Prop :=
  ∃ word, (word, s) ∈ keywordTable ∧ List.Forall₂ SameLetter cs word.toList

/-- The glyph or a keyword of the symbol. -/
def IsSpelling (s : Symbol) (cs : List Char) : Prop := cs = [s.glyph] ∨ IsKeyword s cs

/-- The text writes the formula with any spelling of each symbol. Binary nodes stand in parentheses,
with a space on either side of the connective; a keyword for negation is followed by a space. -/
inductive Spelled : Formula → List Char → Prop
  | const {value : Bool} {cs : List Char} (h : IsSpelling (.const value) cs) :
      Spelled (.const value) cs
  | var (name : String) : Spelled (.var name) name.toList
  | neg {operand : Formula} {cs : List Char} (h : Spelled operand cs) :
      Spelled (.neg operand) (negationGlyph :: cs)
  | negWord {operand : Formula} {word cs : List Char} (hword : IsKeyword (.operator .negation) word)
      (h : Spelled operand cs) : Spelled (.neg operand) (word ++ ' ' :: cs)
  | binary {op : Connective} {left right : Formula} {ls mid rs : List Char}
      (hop : IsSpelling (.operator (.binary op)) mid) (hl : Spelled left ls)
      (hr : Spelled right rs) :
      Spelled (.binary op left right)
        (openParen :: (ls ++ ' ' :: (mid ++ ' ' :: rs)) ++ [closeParen])

/-! ## Spellings of symbols -/

/-- A letter that the lexer lowers to itself, and to which it lowers its capital; both are word
characters. -/
def isKeywordLetter (letter : Char) : Bool :=
  lowerAscii letter == letter && isWordChar letter &&
    (lowerAscii letter.toUpper == letter && isWordChar letter.toUpper)

theorem SameLetter.lowerAscii_eq {c letter : Char} (h : SameLetter c letter)
    (hletter : isKeywordLetter letter = true) :
    lowerAscii c = letter ∧ isWordChar c = true := by
  simp only [isKeywordLetter, Bool.and_eq_true, beq_iff_eq] at hletter
  rcases h with rfl | rfl
  · exact hletter.1
  · exact hletter.2

theorem letters_of_forall₂ {cs letters : List Char} (h : List.Forall₂ SameLetter cs letters)
    (hletters : letters.all isKeywordLetter = true) :
    cs.map lowerAscii = letters ∧ ∀ c ∈ cs, isWordChar c = true := by
  induction h with
  | nil => exact ⟨rfl, fun c hc => absurd hc List.not_mem_nil⟩
  | @cons c letter cs letters hsame _ ih =>
      rw [List.all_cons, Bool.and_eq_true] at hletters
      obtain ⟨hmap, hword⟩ := ih hletters.2
      obtain ⟨hlower, hwordHead⟩ := hsame.lowerAscii_eq hletters.1
      constructor
      · rw [List.map_cons, hmap, hlower]
      · intro d hd
        rcases List.mem_cons.1 hd with rfl | hd
        · exact hwordHead
        · exact hword d hd

/-- A keyword in any mix of cases is a word that the lexer takes for its symbol. -/
theorem IsKeyword.wordSymbol?_eq {s : Symbol} {cs : List Char} (h : IsKeyword s cs) :
    wordSymbol? cs = some s ∧ cs ≠ [] ∧ ∀ c ∈ cs, isWordChar c = true := by
  obtain ⟨word, hmem, hletters⟩ := h
  have hkeyword : ∀ p ∈ keywordTable, keyword? p.1 = some p.2 ∧ p.1.toList ≠ [] := by decide +kernel
  have hcase : ∀ p ∈ keywordTable, p.1.toList.all isKeywordLetter = true := by decide +kernel
  obtain ⟨hmap, hword⟩ := letters_of_forall₂ hletters (hcase _ hmem)
  obtain ⟨hsymbol, hne⟩ := hkeyword _ hmem
  refine ⟨?_, ?_, hword⟩
  · rw [wordSymbol?, hmap, String.ofList_toList]
    exact hsymbol
  · rintro rfl
    exact hne hmap.symm

/-- Any spelling of a symbol is a solid text, and its normal form is the glyph. -/
theorem IsSpelling.solid_normalChars {s : Symbol} {cs : List Char} (h : IsSpelling s cs) :
    Solid cs ∧ normalChars cs = [s.glyph] := by
  rcases h with rfl | hkeyword
  · refine ⟨solid_singleton (isBlank_glyph s) (glyph_ne_quoteMark s), ?_⟩
    rw [normalChars_glyph, normalChars_nil]
  · obtain ⟨hsymbol, hne, hword⟩ := hkeyword.wordSymbol?_eq
    obtain ⟨c, cs, rfl⟩ := List.exists_cons_of_ne_nil hne
    refine ⟨⟨hne, ?_, ?_⟩, ?_⟩
    · exact trimmed_of_forall_not_blank fun d hd => isBlank_of_isWordChar (hword d hd)
    · exact quotesPaired_of_not_mem (quoteMark_not_mem_of_words hword)
    · have hlead : Leads ⟨.word, c :: cs⟩ [] := .word hword fun d hd => absurd hd (by simp)
      have hnormal := normalChars_of_leads hlead
      rw [List.append_nil, normalChars_nil, List.append_nil] at hnormal
      rw [hnormal]
      simp only [Lexeme.normal, hsymbol]

/-! ## Derived texts in normal form -/

theorem Atom.solid (a : Atom) : Solid a.text := by
  refine ⟨?_, a.trimmed, ?_⟩
  · obtain ⟨c, rest, htext, -⟩ := a.exists_head
    rw [htext]
    exact List.cons_ne_nil c rest
  · cases a with
    | const value =>
        exact (solid_singleton (isBlank_glyph (.const value))
          (glyph_ne_quoteMark (.const value))).paired
    | plain name h => exact quotesPaired_of_not_mem fun hq => (h.ordinary _ hq).2.2.1 rfl
    | quoted inside h => exact quotesPaired_quoted h.unquoted

namespace Derivation

/-- The quotation marks of a derived text are paired, since those of every atom are. -/
theorem quotesPaired {level : Level} (d : Derivation level) : QuotesPaired d.text := by
  have hsymbol {c : Char} (hc : c ≠ quoteMark) {cs : List Char} (h : QuotesPaired cs) :
      QuotesPaired (c :: cs) := by
    rwa [QuotesPaired, List.count_cons_of_ne hc]
  induction d with
  | lift d ih => exact ih
  | link op hop left right ihl ihr =>
      exact ihl.append (hsymbol (glyph_ne_quoteMark (.operator (.binary op))) ihr)
  | negation pre d ih =>
      refine (quotesPaired_of_isAllBlank pre.2).append ?_
      exact hsymbol (glyph_ne_quoteMark (.operator .negation)) ih
  | group pre d post ih =>
      refine ((quotesPaired_of_isAllBlank pre.2).append ?_).append
        (quotesPaired_of_isAllBlank post.2)
      exact (hsymbol (by decide) ih).append (quotesPaired_of_not_mem (by decide))
  | atom pre a post =>
      exact ((quotesPaired_of_isAllBlank pre.2).append a.solid.paired).append
        (quotesPaired_of_isAllBlank post.2)

/-- A derived text is in normal form exactly if the names in it are. -/
theorem isNormal_iff {level : Level} (d : Derivation level) :
    IsNormal d.text ↔ ∀ name ∈ d.tree.names, IsNormal name.toList := by
  induction d with
  | lift d ih => exact ih
  | link op hop left right ihl ihr =>
      have hsep : Separate left.text (op.glyph :: right.text) :=
        separate_glyph (.operator (.binary op)) left.text right.text
      have hcons : IsNormal (op.glyph :: right.text) ↔ IsNormal right.text :=
        isNormal_glyph_iff (.operator (.binary op)) right.text
      rw [text, isNormal_append_iff left.quotesPaired hsep, hcons, ihl, ihr, tree, Formula.names,
        List.forall_mem_append]
  | negation pre d ih =>
      have hhead : StartsOutside isBlank (negationGlyph :: d.text) :=
        startsOutside_cons isBlank_negationGlyph d.text
      have hcons : IsNormal (negationGlyph :: d.text) ↔ IsNormal d.text :=
        isNormal_glyph_iff (.operator .negation) d.text
      rw [text, isNormal_blank_append_iff pre.2 hhead, hcons]
      exact ih
  | group pre d post ih =>
      have hsolid : Solid (openParen :: d.text ++ [closeParen]) := .parens d.quotesPaired
      have hbody : IsNormal (openParen :: d.text ++ [closeParen]) ↔ IsNormal d.text := by
        rw [IsNormal, List.cons_append, normalChars_open, normalChars_append_close d.quotesPaired,
          List.cons.injEq, List.append_left_inj]
        exact and_iff_right rfl
      have hhead : StartsOutside isBlank (openParen :: d.text ++ [closeParen] ++ post) :=
        startsOutside_cons isBlank_openParen _
      rw [text, List.append_assoc, isNormal_blank_append_iff pre.2 hhead,
        isNormal_append_blank_iff hsolid post.2, hbody]
      exact ih
  | atom pre a post =>
      have hhead : StartsOutside isBlank (a.text ++ post) :=
        startsOutside_append a.trimmed.1 fun hnil => absurd hnil a.solid.nonempty
      rw [text, List.append_assoc, isNormal_blank_append_iff pre.2 hhead,
        isNormal_append_blank_iff a.solid post.2]
      cases a with
      | const value =>
          refine iff_of_true ?_ fun name hname => absurd hname List.not_mem_nil
          exact (isNormal_glyph_iff (.const value) []).2 normalChars_nil
      | plain name h =>
          rw [Atom.text, tree, Atom.tree, Formula.names, List.forall_mem_singleton,
            String.toList_ofList]
      | quoted inside h =>
          rw [Atom.text, tree, Atom.tree, Formula.names, List.forall_mem_singleton,
            String.toList_ofList]

end Derivation

/-! ## Spelled texts are read -/

/-- The text is solid, and its normal form is derived as an operand with the tree. -/
structure Written (f : Formula) (cs : List Char) : Prop where
  solid : Solid cs
  derived : ∃ d : Derivation .operand,
    d.text = normalChars cs ∧ d.tree = f ∧ d.nesting = f.nesting

theorem written_neg {f : Formula} {cs : List Char} (h : Written f cs) :
    Written (.neg f) (negationGlyph :: cs) := by
  obtain ⟨d, htext, htree, hnesting⟩ := h.derived
  refine ⟨?_, .negation noBlanks d, ?_, ?_, ?_⟩
  · exact (solid_singleton isBlank_negationGlyph (by decide)).between
      (quotesPaired_of_isAllBlank isAllBlank_nil) h.solid
  · rw [show negationGlyph = Symbol.glyph (.operator .negation) from rfl, normalChars_glyph,
      ← htext]
    rfl
  · rw [Derivation.tree, htree]
  · rw [Formula.nesting, ← hnesting]
    rfl

theorem written_negWord {f : Formula} {word cs : List Char}
    (hword : IsKeyword (.operator .negation) word) (h : Written f cs) :
    Written (.neg f) (word ++ ' ' :: cs) := by
  obtain ⟨hsolid, hnormal⟩ := IsSpelling.solid_normalChars (Or.inr hword)
  obtain ⟨d, htext, htree, hnesting⟩ := h.derived
  obtain ⟨d', htext', htree', hnesting'⟩ := d.exists_pad isAllBlank_space isAllBlank_nil
  -- the space after the keyword becomes a blank before the operand
  refine ⟨?_, .negation noBlanks d', ?_, ?_, ?_⟩
  · have := hsolid.between (quotesPaired_of_isAllBlank isAllBlank_space) h.solid
    rwa [List.append_assoc] at this
  · rw [normalChars_join hsolid h.solid.trimmed, hnormal, Derivation.text, htext', htext,
      List.append_nil]
    rfl
  · rw [Derivation.tree, htree', htree]
  · rw [Formula.nesting, ← hnesting, Derivation.nesting, Derivation.nestingFrom, hnesting']

theorem written_binary {op : Connective} {left right : Formula} {ls mid rs : List Char}
    (hop : IsSpelling (.operator (.binary op)) mid) (hl : Written left ls) (hr : Written right rs) :
    Written (.binary op left right)
      (openParen :: (ls ++ ' ' :: (mid ++ ' ' :: rs)) ++ [closeParen]) := by
  have hspace : QuotesPaired [' '] := quotesPaired_of_isAllBlank isAllBlank_space
  obtain ⟨hsolid, hnormal⟩ := hop.solid_normalChars
  obtain ⟨l, hltext, hltree, hlnesting⟩ := hl.derived
  obtain ⟨r, hrtext, hrtree, hrnesting⟩ := hr.derived
  have hright : Solid (mid ++ ' ' :: rs) := by
    have := hsolid.between hspace hr.solid
    rwa [List.append_assoc] at this
  have hbody : Solid (ls ++ ' ' :: (mid ++ ' ' :: rs)) := by
    have := hl.solid.between hspace hright
    rwa [List.append_assoc] at this
  obtain ⟨d, htext, htree, hnesting⟩ := Derivation.exists_binary op l r
  refine ⟨?_, d, ?_, ?_, ?_⟩
  · exact .parens hbody.paired
  · rw [htext, List.cons_append, List.cons_append, normalChars_open,
      normalChars_append_close hbody.paired, normalChars_join hl.solid hright.trimmed,
      normalChars_join hsolid hr.solid.trimmed, hnormal, hltext, hrtext]
    rfl
  · rw [htree, hltree, hrtree]
  · rw [hnesting, hlnesting, hrnesting, Formula.nesting]

/-- A spelled text is normalized to a text of its formula, by induction on the spelling. -/
theorem Spelled.written {f : Formula} {cs : List Char} (h : Spelled f cs)
    (hnames : ∀ name ∈ f.names,
      (∃ a : Atom, a.text = name.toList ∧ a.tree = .var name) ∧ IsNormal name.toList) :
    Written f cs := by
  induction h with
  | @const value cs h =>
      obtain ⟨hsolid, hnormal⟩ := h.solid_normalChars
      refine ⟨hsolid, .ofAtom (.const value), ?_, rfl, rfl⟩
      rw [hnormal]
      rfl
  | var name =>
      obtain ⟨⟨a, htext, htree⟩, hnormal⟩ := hnames name (List.mem_singleton.2 rfl)
      refine ⟨?_, .ofAtom a, ?_, htree, rfl⟩
      · rw [← htext]
        exact a.solid
      · rw [show normalChars name.toList = name.toList from hnormal, ← htext,
          Derivation.text_ofAtom]
  | neg h ih => exact written_neg (ih hnames)
  | negWord hword h ih => exact written_negWord hword (ih hnames)
  | binary hop hl hr ihl ihr =>
      rw [Formula.names, List.forall_mem_append] at hnames
      exact written_binary hop (ihl hnames.1) (ihr hnames.2)

theorem result_parseLine (s : String) :
    (Formula.parseLine s).result = (Formula.parse (normalizedText s)).result := by
  rw [Formula.parseLine, Traced.result_bind, result_normalizeLine]
  rfl

/-- Keywords and glyphs mean the same. A formula whose names are read as themselves and in normal
form is read from any of its spellings, unless the nesting exceeds the budget. The names of a
formula that was read from a line are read as themselves and in normal form, so that its text, which
is in normal form, is read as the formula. -/
theorem parseLine_spelled :
    (∀ (f : Formula) (cs : List Char),
      (∀ name ∈ f.names,
        (Formula.parse name).result = .ok (.var name) ∧ normalizedText name = name) →
      Spelled f cs →
        (Formula.parseLine (String.ofList cs)).result =
          if nestingBudget.Covers f.nesting then .ok f
          else .error (.tooDeep (normalizedText (String.ofList cs)).length)) ∧
      ∀ (line : String) (f : Formula), (Formula.parseLine line).result = .ok f →
        (∀ name ∈ f.names,
          (Formula.parse name).result = .ok (.var name) ∧ normalizedText name = name) ∧
          normalizedText f.render = f.render ∧
          (Formula.parseLine f.render).result =
            if nestingBudget.Covers f.nesting then .ok f
            else .error (.tooDeep f.render.length) := by
  constructor
  · intro f cs hnames h
    have hwritten := h.written fun name hn =>
      ⟨parse_name_iff.1 (hnames name hn).1, normalizedText_eq_self_iff.1 (hnames name hn).2⟩
    obtain ⟨d, htext, htree, hnesting⟩ := hwritten.derived
    have hd : d.text = (normalizedText (String.ofList cs)).toList := by
      rw [htext, toList_normalizedText, String.toList_ofList]
    rw [result_parseLine, Formula.parse, parseWithin_of_derivation nestingBudget hd, htree,
      hnesting]
    rfl
  · intro line f hread
    rw [result_parseLine] at hread
    obtain ⟨d, htext, rfl⟩ := derives_of_parseWithin hread
    have hnormal : IsNormal d.text := by
      rw [htext]
      exact isNormal_normalizedText line
    have hatoms : ∀ name ∈ d.tree.names, ∃ a : Atom, a.text = name.toList ∧ a.tree = .var name :=
      fun name hn => d.exists_atom_of_mem_names hn
    -- the text of the tree has the same names as the line, and they decide whether it is normal
    obtain ⟨d', htext', htree', -⟩ := exists_derivation_render d.tree hatoms
    have hrender : normalizedText d.tree.render = d.tree.render := by
      rw [normalizedText_eq_self_iff, ← htext', d'.isNormal_iff, htree', ← d.isNormal_iff]
      exact hnormal
    refine ⟨?_, hrender, ?_⟩
    · intro name hname
      constructor
      · exact parse_name_iff.2 (hatoms name hname)
      · exact normalizedText_eq_self_iff.2 (d.isNormal_iff.1 hnormal name hname)
    · rw [result_parseLine, hrender]
      exact parseWithin_render nestingBudget hatoms

/-- Names with symbols in them, and keywords in any mix of cases. -/
theorem parseLine_spelled_mixed_case :
    (Formula.parseLine "nOt (x-1 imPLY FALSE)").result =
      .ok (.neg (.binary .implies (.var "x-1") (.const false))) := by
  have hnot : IsKeyword (.operator .negation) "nOt".toList :=
    ⟨"not", by decide, by decide +kernel⟩
  have himply : IsKeyword (.operator (.binary .implies)) "imPLY".toList :=
    ⟨"imply", by decide, by decide +kernel⟩
  have hfalse : IsKeyword (.const false) "FALSE".toList := ⟨"false", by decide, by decide +kernel⟩
  have hspelled := Spelled.negWord hnot
    (.binary (Or.inr himply) (.var "x-1") (.const (Or.inr hfalse)))
  refine (parseLine_spelled.1 _ _ ?_ hspelled).trans (if_pos (by decide))
  intro name hname
  rw [List.mem_singleton.1 hname]
  exact ⟨by decide +kernel, by decide +kernel⟩

end Sentential
