import Sentential.Proofs.Answers
import Sentential.Proofs.Spelling

/-!
# The content of a line

A line and the formula that is read from it have the same content. The leaves and operators of the
formula from left to right are the values of the tokens of the line, without blanks and parentheses
(`Formula.yield`); the quoted names of the formula are the quoted tokens; and the names of the
formula are the names of the line, so that they head the columns of the truth table in the order of
the line (`parseLine_yield`).

The lexer pairs quotation marks off from left to right, while the parser looks at them leaf by leaf.
Both agree because the quotation marks of every part of a derived text are paired, so that its
lexemes are those of its parts put together. `Yields` says that lexemes have the content of a
formula; it is passed along the derivation of the text (`Derivation.yields`).
-/

namespace Sentential

open Text

/-! ## The content of a formula and of a line -/

/-- The leaves and operators of a formula from left to right. -/
def Formula.yield : Formula → List Char
  | .const value => [constGlyph value]
  | .var name => name.toList
  | .neg operand => negationGlyph :: operand.yield
  | .binary op left right => left.yield ++ op.glyph :: right.yield

/-- The name stands between quotation marks. -/
def isQuotedName (name : String) : Bool := isQuotedForm name.toList

/-- Blanks and parentheses. -/
def isLayout (kind : TokenKind) (value : List Char) : Bool :=
  kind = .space || kind = .symbol && (value = [openParen] || value = [closeParen])

/-- The text of lexemes without blanks and parentheses. -/
def visibleText (ls : List Lexeme) : List Char :=
  (ls.filter fun l => !isLayout l.kind l.chars).flatMap Lexeme.chars

/-- The quoted names among lexemes. -/
def quotedNames (ls : List Lexeme) : List String :=
  (ls.filter fun l => l.kind = .quoted).map fun l => String.ofList l.chars

/-- What no name goes across: blanks, parentheses and reserved characters. -/
def Lexeme.endsName (l : Lexeme) : Bool :=
  isLayout l.kind l.chars || l.kind = .symbol && l.chars.any isReserved

/-- The names among lexemes: what stands between two lexemes that end names. -/
def namesOf (ls : List Lexeme) : List String :=
  ((ls.splitOnP Lexeme.endsName).filter fun run => !run.isEmpty).map fun run =>
    String.ofList (run.flatMap Lexeme.chars)

/-- The lexeme of the normalized text that a token stands for; a keyword has become a symbol. -/
def Token.lexeme (t : Token) : Lexeme := ⟨if t.kind = .keyword then .symbol else t.kind, t.value⟩

/-- The names of a line from left to right. -/
def lineNames (line : String) : List String := namesOf ((tokensOf line).map Token.lexeme)

/-- The lexemes have the content of the formula. -/
structure Yields (ls : List Lexeme) (f : Formula) : Prop where
  visible : visibleText ls = f.yield
  quoted : quotedNames ls = f.names.filter isQuotedName
  names : namesOf ls = f.names

/-! ## Tokens and lexemes -/

theorem isLayout_glyph (kind : TokenKind) (hkind : kind ≠ .space) (s : Symbol) :
    isLayout kind [s.glyph] = false := by
  obtain ⟨hopen, hclose⟩ := isPlain_glyph s
  simp [isLayout, hkind, hopen, hclose]

/-- The token of a lexeme stands for its normal form, and has the same place in the layout. -/
theorem Leads.lexeme_token {l : Lexeme} {rest : List Char} (h : Leads l rest) (start : Nat) :
    (l.token start).lexeme = l.normal ∧
      isLayout (l.token start).kind (l.token start).value =
        isLayout l.normal.kind l.normal.chars := by
  cases h with
  | @word c cs _ _ _ =>
      cases hword : wordSymbol? (c :: cs) with
      | none => simp [Lexeme.token, Lexeme.normal, Token.lexeme, hword]
      | some s => simp [Lexeme.token, Lexeme.normal, Token.lexeme, hword, isLayout_glyph]
  | quoted => exact ⟨rfl, rfl⟩
  | loneQuote => exact ⟨rfl, rfl⟩
  | space => exact ⟨rfl, rfl⟩
  | symbol => exact ⟨rfl, rfl⟩

/-- The tokens of a text stand for the normal forms of its lexemes, in order. -/
theorem map_lexeme_tokensFrom (cs : List Char) (start : Nat) :
    (tokensFrom start (lexemes cs)).map Token.lexeme = (lexemes cs).map Lexeme.normal ∧
      ∀ t ∈ tokensFrom start (lexemes cs),
        isLayout t.kind t.value = isLayout t.lexeme.kind t.lexeme.chars := by
  induction cs using lexing_induction generalizing start with
  | nil =>
      rw [lexemes]
      exact ⟨rfl, fun t ht => absurd ht List.not_mem_nil⟩
  | step l rest hl ih =>
      obtain ⟨hmap, hlayout⟩ := ih (start + l.chars.length)
      obtain ⟨hlexeme, hsame⟩ := hl.lexeme_token start
      rw [lexemes_of_leads hl, tokensFrom]
      constructor
      · rw [List.map_cons, List.map_cons, hmap, hlexeme]
      · intro t ht
        rcases List.mem_cons.1 ht with rfl | ht
        · rw [hsame, hlexeme]
        · exact hlayout t ht

/-- The tokens of a line are the lexemes of the normalized line. -/
theorem map_lexeme_tokensOf (line : String) :
    (tokensOf line).map Token.lexeme = lexemes (normalizedText line).toList := by
  rw [tokensOf, (map_lexeme_tokensFrom _ _).1, toList_normalizedText, lexemes_normalChars]

theorem isLayout_lexeme {line : String} {t : Token} (ht : t ∈ tokensOf line) :
    isLayout t.kind t.value = isLayout t.lexeme.kind t.lexeme.chars :=
  (map_lexeme_tokensFrom _ _).2 t ht

/-- The lexemes of blanks are layout. -/
theorem isLayout_of_mem_blanks {l : Lexeme} {cs : List Char} (hcs : isAllBlank cs = true)
    (h : l ∈ lexemes cs) : isLayout l.kind l.chars = true := by
  obtain ⟨rest, hlead, hmem⟩ := leads_of_mem_lexemes h
  have hblank : ∀ c ∈ l.chars, isBlank c = true := fun c hc => isAllBlank_iff.1 hcs c (hmem c hc)
  cases hlead with
  | quoted => exact absurd (hblank _ List.mem_cons_self) (by rw [isBlank_quoteMark]; decide)
  | loneQuote => exact absurd (hblank _ List.mem_cons_self) (by rw [isBlank_quoteMark]; decide)
  | space => rfl
  | @word c _ _ hword _ =>
      have hc := isBlank_of_isWordChar (hword c List.mem_cons_self)
      exact absurd (hblank c List.mem_cons_self) (by rw [hc]; decide)
  | @symbol c _ _ hc _ => exact absurd (hblank c List.mem_cons_self) (by rw [hc]; decide)

/-- The lexemes of a plain name end no names and are not quoted. -/
theorem endsName_of_mem_plainName {l : Lexeme} {cs : List Char} (h : IsPlainName cs)
    (hl : l ∈ lexemes cs) : l.endsName = false ∧ l.kind ≠ .quoted := by
  obtain ⟨rest, hlead, hmem⟩ := leads_of_mem_lexemes hl
  -- quotation marks, blanks, parentheses and reserved characters do not occur in the name
  cases hlead with
  | quoted => exact absurd rfl (h.ordinary quoteMark (hmem _ List.mem_cons_self)).2.2.1
  | loneQuote => exact absurd rfl (h.ordinary quoteMark (hmem _ List.mem_cons_self)).2.2.1
  | @space c _ _ hblank _ =>
      have hc := hblank c List.mem_cons_self
      rw [(h.ordinary c (hmem c List.mem_cons_self)).1] at hc
      exact Bool.noConfusion hc
  | word => exact ⟨rfl, TokenKind.noConfusion⟩
  | @symbol c =>
      obtain ⟨-, hplain, -, hreserved⟩ := h.ordinary c (hmem c List.mem_cons_self)
      refine ⟨?_, TokenKind.noConfusion⟩
      simp [Lexeme.endsName, isLayout, hplain.1, hplain.2, hreserved]

/-! ## Lexemes put together -/

section Append

variable {l : Lexeme} {ls rs : List Lexeme}

theorem visibleText_append (ls rs : List Lexeme) :
    visibleText (ls ++ rs) = visibleText ls ++ visibleText rs := by
  rw [visibleText, List.filter_append, List.flatMap_append, visibleText, visibleText]

theorem quotedNames_append (ls rs : List Lexeme) :
    quotedNames (ls ++ rs) = quotedNames ls ++ quotedNames rs := by
  rw [quotedNames, List.filter_append, List.map_append, quotedNames, quotedNames]

theorem visibleText_symbol (s : Symbol) (ls : List Lexeme) :
    visibleText (⟨.symbol, [s.glyph]⟩ :: ls) = s.glyph :: visibleText ls := by
  have hlayout := isLayout_glyph .symbol (by decide) s
  simp [visibleText, hlayout]

theorem quotedNames_symbol (cs : List Char) (ls : List Lexeme) :
    quotedNames (⟨.symbol, cs⟩ :: ls) = quotedNames ls := rfl

theorem endsName_symbol (s : Symbol) : Lexeme.endsName ⟨.symbol, [s.glyph]⟩ = true := by
  simp [Lexeme.endsName, isReserved_glyph]

theorem visibleText_of_layout (h : ∀ l ∈ ls, isLayout l.kind l.chars = true) :
    visibleText ls = [] := by
  have hnone : (ls.filter fun l => !isLayout l.kind l.chars) = [] :=
    List.filter_eq_nil_iff.2 fun l hl => by simp [h l hl]
  rw [visibleText, hnone, List.flatMap_nil]

theorem visibleText_of_not_layout (h : ∀ l ∈ ls, isLayout l.kind l.chars = false) :
    visibleText ls = ls.flatMap Lexeme.chars := by
  have hall : (ls.filter fun l => !isLayout l.kind l.chars) = ls :=
    List.filter_eq_self.2 fun l hl => by simp [h l hl]
  rw [visibleText, hall]

theorem quotedNames_of_ne_quoted (h : ∀ l ∈ ls, l.kind ≠ .quoted) : quotedNames ls = [] := by
  have hnone : (ls.filter fun l => l.kind = .quoted) = [] :=
    List.filter_eq_nil_iff.2 fun l hl => by simp [h l hl]
  rw [quotedNames, hnone, List.map_nil]

theorem namesOf_nil : namesOf [] = [] := by
  rw [namesOf, List.splitOnP_nil]
  rfl

/-- Names are found on either side of a lexeme that ends names. -/
theorem namesOf_append_cons (hl : l.endsName = true) :
    namesOf (ls ++ l :: rs) = namesOf ls ++ namesOf rs := by
  rw [namesOf, List.splitOnP_append_cons ls rs hl, List.filter_append, List.map_append]
  rfl

theorem namesOf_cons (hl : l.endsName = true) : namesOf (l :: rs) = namesOf rs := by
  rw [← List.nil_append (l :: rs), namesOf_append_cons hl, namesOf_nil, List.nil_append]

theorem namesOf_append_left (hls : ∀ l ∈ ls, l.endsName = true) :
    namesOf (ls ++ rs) = namesOf rs := by
  induction ls with
  | nil => rfl
  | cons l ls ih =>
      rw [List.cons_append, namesOf_cons (hls l List.mem_cons_self)]
      exact ih fun l hl => hls l (List.mem_cons_of_mem _ hl)

theorem namesOf_append_right (hrs : ∀ l ∈ rs, l.endsName = true) :
    namesOf (ls ++ rs) = namesOf ls := by
  cases rs with
  | nil => rw [List.append_nil]
  | cons l rs =>
      have hnone : namesOf (rs ++ []) = namesOf [] :=
        namesOf_append_left fun l hl => hrs l (List.mem_cons_of_mem _ hl)
      rw [List.append_nil, namesOf_nil] at hnone
      rw [namesOf_append_cons (hrs l List.mem_cons_self), hnone, List.append_nil]

/-- Lexemes that end no name make up one name. -/
theorem namesOf_run (hne : ls ≠ []) (hls : ∀ l ∈ ls, l.endsName = false) :
    namesOf ls = [String.ofList (ls.flatMap Lexeme.chars)] := by
  rw [namesOf, List.splitOnP_eq_singleton hls]
  simp [hne]

theorem endsName_of_isLayout (h : isLayout l.kind l.chars = true) : l.endsName = true := by
  rw [Lexeme.endsName, h, Bool.true_or]

theorem ne_quoted_of_isLayout (h : isLayout l.kind l.chars = true) : l.kind ≠ .quoted := by
  intro hkind
  simp [isLayout, hkind] at h

end Append

namespace Yields

variable {ls rs : List Lexeme} {f g : Formula}

/-- Layout around lexemes adds no content. -/
theorem between (h : Yields ls f) {pre post : List Lexeme}
    (hpre : ∀ l ∈ pre, isLayout l.kind l.chars = true)
    (hpost : ∀ l ∈ post, isLayout l.kind l.chars = true) : Yields (pre ++ ls ++ post) f where
  visible := by
    rw [visibleText_append, visibleText_append, visibleText_of_layout hpre,
      visibleText_of_layout hpost, List.nil_append, List.append_nil, h.visible]
  quoted := by
    rw [quotedNames_append, quotedNames_append,
      quotedNames_of_ne_quoted fun l hl => ne_quoted_of_isLayout (hpre l hl),
      quotedNames_of_ne_quoted fun l hl => ne_quoted_of_isLayout (hpost l hl), List.nil_append,
      List.append_nil, h.quoted]
  names := by
    rw [namesOf_append_right fun l hl => endsName_of_isLayout (hpost l hl),
      namesOf_append_left fun l hl => endsName_of_isLayout (hpre l hl), h.names]

theorem const (value : Bool) : Yields [⟨.symbol, [constGlyph value]⟩] (.const value) where
  visible := visibleText_symbol (.const value) []
  quoted := rfl
  names := (namesOf_cons (endsName_symbol (.const value))).trans namesOf_nil

theorem neg (h : Yields ls f) : Yields (⟨.symbol, [negationGlyph]⟩ :: ls) (.neg f) where
  visible := by
    have hvisible :
        visibleText (⟨.symbol, [negationGlyph]⟩ :: ls) = negationGlyph :: visibleText ls :=
      visibleText_symbol (.operator .negation) ls
    rw [hvisible, h.visible, Formula.yield]
  quoted := by
    rw [quotedNames_symbol, h.quoted, Formula.names]
  names := (namesOf_cons (endsName_symbol (.operator .negation))).trans h.names

theorem binary {op : Connective} (hf : Yields ls f) (hg : Yields rs g) :
    Yields (ls ++ ⟨.symbol, [op.glyph]⟩ :: rs) (.binary op f g) where
  visible := by
    have hvisible : visibleText (⟨.symbol, [op.glyph]⟩ :: rs) = op.glyph :: visibleText rs :=
      visibleText_symbol (.operator (.binary op)) rs
    rw [visibleText_append, hvisible, hf.visible, hg.visible, Formula.yield]
  quoted := by
    rw [quotedNames_append, quotedNames_symbol, hf.quoted, hg.quoted, Formula.names,
      List.filter_append]
  names := by
    have hends : Lexeme.endsName ⟨.symbol, [op.glyph]⟩ = true :=
      endsName_symbol (.operator (.binary op))
    rw [namesOf_append_cons hends, hf.names, hg.names, Formula.names]

/-- A quoted name is one lexeme. -/
theorem quotedName (inside : List Char) :
    Yields [⟨.quoted, quoteMark :: inside ++ [quoteMark]⟩]
      (.var (String.ofList (quoteMark :: inside ++ [quoteMark]))) where
  visible := by
    rw [Formula.yield, String.toList_ofList]
    exact List.append_nil _
  quoted := by
    have hquoted : isQuotedName (String.ofList (quoteMark :: inside ++ [quoteMark])) = true := by
      rw [isQuotedName, String.toList_ofList]
      exact isQuotedForm_iff.2 ⟨inside, rfl⟩
    rw [Formula.names, List.filter_cons_of_pos hquoted]
    rfl
  names := by
    have hends : Lexeme.endsName ⟨.quoted, quoteMark :: inside ++ [quoteMark]⟩ = false := rfl
    rw [namesOf_run (List.cons_ne_nil _ _) fun l hl => List.mem_singleton.1 hl ▸ hends,
      List.flatMap_cons, List.flatMap_nil, List.append_nil, Formula.names]

/-- The lexemes of a plain name make up one name, which is not quoted. -/
theorem plainName {cs : List Char} (h : IsPlainName cs) :
    Yields (lexemes cs) (.var (String.ofList cs)) := by
  have hends (l : Lexeme) (hl : l ∈ lexemes cs) := endsName_of_mem_plainName h hl
  have hlayout : ∀ l ∈ lexemes cs, isLayout l.kind l.chars = false := by
    intro l hl
    have hl := (hends l hl).1
    rw [Lexeme.endsName, Bool.or_eq_false_iff] at hl
    exact hl.1
  have hne : lexemes cs ≠ [] := by
    intro hnil
    have hflat := flatten_lexemes cs
    rw [hnil, List.flatMap_nil] at hflat
    exact h.nonempty hflat.symm
  constructor
  · rw [visibleText_of_not_layout hlayout, flatten_lexemes, Formula.yield, String.toList_ofList]
  · have hquoted : isQuotedName (String.ofList cs) = false := by
      rw [isQuotedName, String.toList_ofList, h.isQuotedForm_eq_false]
    rw [quotedNames_of_ne_quoted fun l hl => (hends l hl).2, Formula.names,
      List.filter_cons_of_neg (by rw [hquoted]; exact Bool.false_ne_true), List.filter_nil]
  · rw [namesOf_run hne fun l hl => (hends l hl).1, flatten_lexemes, Formula.names]

end Yields

/-! ## Derived texts -/

theorem lexemes_glyph (s : Symbol) (cs : List Char) :
    lexemes (s.glyph :: cs) = ⟨.symbol, [s.glyph]⟩ :: lexemes cs :=
  lexemes_of_leads (.symbol (glyph_ne_quoteMark s) (isBlank_glyph s) (isWordChar_glyph s))

theorem lexemes_nil : lexemes [] = [] := by rw [lexemes]

theorem lexemes_quoted {inside : List Char} (h : quoteMark ∉ inside) :
    lexemes (quoteMark :: inside ++ [quoteMark]) =
      [⟨.quoted, quoteMark :: inside ++ [quoteMark]⟩] := by
  have hlexemes := lexemes_of_leads (Leads.quoted h : Leads _ [])
  rwa [List.append_nil, lexemes_nil] at hlexemes

theorem Atom.yields (a : Atom) : Yields (lexemes a.text) a.tree := by
  cases a with
  | const value =>
      have hlexemes : lexemes [constGlyph value] = [⟨.symbol, [constGlyph value]⟩] :=
        (lexemes_glyph (.const value) []).trans (congrArg _ lexemes_nil)
      rw [text, hlexemes]
      exact .const value
  | plain name h => exact .plainName h
  | quoted inside h =>
      rw [text, lexemes_quoted h.unquoted]
      exact .quotedName inside

/-- Blanks around a solid text are lexemes of their own. -/
theorem lexemes_blank_append_blank {pre as post : List Char} (hpre : isAllBlank pre = true)
    (has : Solid as) (hpost : isAllBlank post = true) :
    lexemes (pre ++ as ++ post) = lexemes pre ++ lexemes as ++ lexemes post := by
  have hhead : StartsOutside isBlank (as ++ post) :=
    startsOutside_append has.trimmed.1 fun hnil => absurd hnil has.nonempty
  have htail : ∀ b ∈ post.head?, isBlank b = true := by
    intro b hb
    exact isAllBlank_iff.1 hpost b (List.mem_of_head? hb)
  rw [List.append_assoc,
    lexemes_append (quotesPaired_of_isAllBlank hpre) (separate_blanks hpre hhead),
    lexemes_append has.paired (separate_of_blank_head has.trimmed htail), List.append_assoc]

/-- The lexemes of a text in parentheses. -/
theorem lexemes_group {cs : List Char} (h : QuotesPaired cs) :
    lexemes (openParen :: cs ++ [closeParen]) =
      [⟨.symbol, [openParen]⟩] ++ lexemes cs ++ [⟨.symbol, [closeParen]⟩] := by
  have hopen : Leads ⟨.symbol, [openParen]⟩ (cs ++ [closeParen]) :=
    .symbol (by decide) isBlank_openParen (by decide +kernel)
  have hword : isWordChar closeParen = false := by decide +kernel
  have hclose : Leads ⟨.symbol, [closeParen]⟩ [] := .symbol (by decide) isBlank_closeParen hword
  have hlast := lexemes_of_leads hclose
  rw [List.append_nil, lexemes_nil] at hlast
  have hfirst := lexemes_of_leads hopen
  rw [lexemes_append h (separate_symbol isBlank_closeParen hword cs []), hlast] at hfirst
  exact hfirst

/-- The lexemes of a derived text have the content of the formula that is derived. By induction on
the derivation: the quotation marks of each part are paired, so that its lexemes stay together. -/
theorem Derivation.yields {level : Level} (d : Derivation level) :
    Yields (lexemes d.text) d.tree := by
  induction d with
  | lift d ih => exact ih
  | link op hop left right ihl ihr =>
      have hsep : Separate left.text (op.glyph :: right.text) :=
        separate_glyph (.operator (.binary op)) left.text right.text
      have hglyph :
          lexemes (op.glyph :: right.text) = ⟨.symbol, [op.glyph]⟩ :: lexemes right.text :=
        lexemes_glyph (.operator (.binary op)) right.text
      rw [text, lexemes_append left.quotesPaired hsep, hglyph]
      exact ihl.binary ihr
  | negation pre d ih =>
      have hsep : Separate pre.1 (negationGlyph :: d.text) :=
        separate_blanks pre.2 (startsOutside_cons isBlank_negationGlyph d.text)
      have hglyph :
          lexemes (negationGlyph :: d.text) = ⟨.symbol, [negationGlyph]⟩ :: lexemes d.text :=
        lexemes_glyph (.operator .negation) d.text
      rw [text, lexemes_append (quotesPaired_of_isAllBlank pre.2) hsep, hglyph,
        ← List.append_nil (lexemes pre.1 ++ _)]
      exact ih.neg.between (fun l hl => isLayout_of_mem_blanks pre.2 hl)
        fun l hl => absurd hl List.not_mem_nil
  | group pre d post ih =>
      rw [text, lexemes_blank_append_blank pre.2 (.parens d.quotesPaired) post.2,
        lexemes_group d.quotesPaired]
      have hinner : Yields ([⟨.symbol, [openParen]⟩] ++ lexemes d.text ++ [⟨.symbol, [closeParen]⟩])
          d.tree := by
        apply ih.between
        · intro l hl
          rw [List.mem_singleton.1 hl]
          decide
        · intro l hl
          rw [List.mem_singleton.1 hl]
          decide
      exact hinner.between (fun l hl => isLayout_of_mem_blanks pre.2 hl)
        fun l hl => isLayout_of_mem_blanks post.2 hl
  | atom pre a post =>
      rw [text, lexemes_blank_append_blank pre.2 a.solid post.2]
      exact a.yields.between (fun l hl => isLayout_of_mem_blanks pre.2 hl)
        fun l hl => isLayout_of_mem_blanks post.2 hl

/-! ## Lines -/

/-- The tokens of a line that is read have the content of its formula. -/
theorem yields_of_parseLine {line : String} {f : Formula}
    (h : (Formula.parseLine line).result = .ok f) :
    Yields ((tokensOf line).map Token.lexeme) f := by
  rw [result_parseLine] at h
  obtain ⟨d, htext, rfl⟩ := derives_of_parseWithin h
  rw [map_lexeme_tokensOf, ← htext]
  exact d.yields

/-- A line and the formula that is read from it have the same content: nothing is lost, duplicated,
reordered or quoted anew. The values of the tokens, without blanks and parentheses, are the leaves
and operators of the formula from left to right, and the quoted tokens are its quoted names. These
are found when the names are collected, unless the formula is too deep for that. The names of the
formula are those of the line, so that a truth table has the names of the line for its columns, in
the order in which they appear first. -/
theorem parseLine_yield {line : String} {f : Formula}
    (h : (Formula.parseLine line).result = .ok f) :
    ((tokensOf line).filter fun t => !isLayout t.kind t.value).flatMap Token.value = f.yield ∧
      (((tokensOf line).filter fun t => t.kind = .quoted).map fun t => String.ofList t.value) =
        f.names.filter isQuotedName ∧
      (f.boundedNames = .ok f.names ∨
        walkLimit < f.height ∧ f.boundedNames = .error (.tooDeep .traverse)) ∧
      f.names = lineNames line ∧
      ∀ (limit : Int) (t : TruthTable), (TruthTable.ofFormula f limit).result = .ok t →
        t.columns = (lineNames line).eraseDups := by
  have hyields := yields_of_parseLine h
  have hnames : f.names = lineNames line := hyields.names.symm
  refine ⟨?_, ?_, ?_, hnames, ?_⟩
  · rw [← hyields.visible, visibleText, List.filter_map, List.flatMap_map]
    apply congrArg (List.flatMap Token.value)
    apply List.filter_congr
    intro t ht
    rw [isLayout_lexeme ht]
    rfl
  · rw [← hyields.quoted, quotedNames, List.filter_map, List.map_map]
    apply congrArg (List.map _)
    apply List.filter_congr
    intro t _
    -- no token is quoted for having been a keyword
    cases hkind : t.kind <;> simp [Token.lexeme, hkind]
  · rw [Formula.boundedNames]
    by_cases hdepth : f.height ≤ walkLimit
    · exact Or.inl (if_pos hdepth)
    · exact Or.inr ⟨Nat.lt_of_not_le hdepth, if_neg hdepth⟩
  · intro limit t ht
    rw [← hnames, TruthTable.eq_complete_of_ofFormula ht]
    rfl

/-- A line with keywords, a name of several tokens, and quoted names with a keyword, an operator and
parentheses in them; one of them is repeated. -/
theorem parseLine_yield_quoted_names :
    ∃ f, (Formula.parseLine "NOT (`a and (b)` or x-1) = `c` xor `a and (b)`").result = .ok f ∧
      f.yield = "¬`a and (b)`∨x-1=`c`⊕`a and (b)`".toList ∧
      f.names.filter isQuotedName = ["`a and (b)`", "`c`", "`a and (b)`"] ∧
      f.names = ["`a and (b)`", "x-1", "`c`", "`a and (b)`"] ∧
      ∀ t, (TruthTable.ofFormula f 16).result = .ok t →
        t.columns = ["`a and (b)`", "x-1", "`c`"] := by
  have hread : (Formula.parseLine "NOT (`a and (b)` or x-1) = `c` xor `a and (b)`").result =
      .ok (.binary .equals (.neg (.binary .or (.var "`a and (b)`") (.var "x-1")))
        (.binary .xor (.var "`c`") (.var "`a and (b)`"))) := by decide +kernel
  obtain ⟨hvisible, hquoted, -, hnames, hcolumns⟩ := parseLine_yield hread
  refine ⟨_, hread, ?_, ?_, ?_, ?_⟩
  · rw [← hvisible]
    decide +kernel
  · rw [← hquoted]
    decide +kernel
  · rw [hnames]
    decide +kernel
  · intro t ht
    rw [hcolumns 16 t ht]
    decide +kernel

end Sentential
