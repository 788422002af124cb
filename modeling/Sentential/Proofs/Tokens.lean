import Sentential.Proofs.Keywords
import Sentential.Proofs.TokenRules
import Sentential.Proofs.TokenSpans
import Sentential.Proofs.Yield

/-!
# The tokens of a line

The tokens of a line lose nothing of it: the rules cut every line, they cut it in one way, and each
class of tokens is found in the line without the lexer (`Tokenizes`). Normalization replaces the
keywords and leaves everything else as it is (`tokensOf_tokenizes`). The tokens of a normalized line
are those of the line it comes from, token by token, with a symbol in place of every keyword
(`tokensOf_normalizedText`).
-/

namespace Sentential

open Text

/-- The tokens are those of the text. -/
structure Tokenizes (cs : List Char) (tokens : List Token) : Prop where
  /-- The rules cut the text into these tokens and into no others. -/
  cuts : ∀ others, Cuts 0 cs others ↔ others = tokens
  /-- The tokens lie end to end, and none is empty. -/
  tiles : Tiles 0 cs.length tokens
  /-- The quoted tokens reach from a quotation mark outside the quoted tokens before to the next
  one. -/
  quoted : ∀ start stop, Stands tokens [.quoted] start stop ↔ IsQuotation cs tokens start stop
  /-- A quotation mark outside the quoted tokens is the last one, and a symbol. -/
  lone : ∀ k, cs[k]? = some quoteMark → ¬InQuotes tokens k →
    Stands tokens [.symbol] k (k + 1) ∧ ∀ j, k < j → cs[j]? ≠ some quoteMark
  /-- Outside quoted tokens, the maximal runs of blanks are the space tokens. -/
  space : ∀ start stop, Stands tokens [.space] start stop ↔
    IsMaximalRun isBlank cs start stop ∧ ∀ k, start ≤ k → k < stop → ¬InQuotes tokens k
  /-- Outside quoted tokens, the maximal runs of word characters are the words and the keywords. -/
  word : ∀ start stop, Stands tokens [.word, .keyword] start stop ↔
    IsMaximalRun isWordChar cs start stop ∧ ∀ k, start ≤ k → k < stop → ¬InQuotes tokens k
  /-- The symbols are the other characters outside quoted tokens, one by one. -/
  symbol : ∀ start stop, Stands tokens [.symbol] start stop ↔
    stop = start + 1 ∧ ¬InQuotes tokens start ∧
      ∃ c, cs[start]? = some c ∧ isBlank c = false ∧ isWordChar c = false
  /-- A run of word characters is a keyword exactly if it is one with all its letters lowered; its
  value is then the glyph of the keyword. -/
  keyword : ∀ t ∈ tokens, t.kind ∈ [.word, .keyword] →
    (∃ lowered, Lowered (t.source cs) lowered) ∧
      ∀ lowered, Lowered (t.source cs) lowered →
        (t.kind = .keyword ↔ ∃ s, (String.ofList lowered, s) ∈ keywordTable) ∧
          ∀ s, (String.ofList lowered, s) ∈ keywordTable → t.value = [s.glyph]
  /-- Every other token has its text for its value. -/
  value : ∀ t ∈ tokens, t.kind ≠ .keyword → t.value = t.source cs

/-! ## Values -/

namespace Marks

variable {cs : List Char} {t : Token} {l : Lexeme}

/-- The class of a word and its value are decided by the keyword that it is. -/
theorem keyword_iff (h : Marks cs t l) (hkind : l.kind = .word) :
    (t.kind = .keyword ↔ ∃ s, wordSymbol? l.chars = some s) ∧
      ∀ s, wordSymbol? l.chars = some s → t.value = [s.glyph] := by
  rw [h.token]
  rcases l.token_cases t.start with ⟨hnone, htoken⟩ | ⟨s, -, hsome, htoken⟩
  · rw [htoken, hnone hkind, hkind]
    constructor
    · refine iff_of_false TokenKind.noConfusion ?_
      rintro ⟨s, hs⟩
      cases hs
    · intro s hs
      cases hs
  · rw [htoken, hsome]
    exact ⟨iff_of_true rfl ⟨s, rfl⟩, fun other hs => by rw [Option.some.inj hs]⟩

theorem value_eq_source (h : Marks cs t l) (hkind : t.kind ≠ .keyword) : t.value = t.source cs := by
  rw [h.source_eq]
  rw [h.token] at hkind ⊢
  rcases l.token_cases t.start with ⟨-, htoken⟩ | ⟨s, -, -, htoken⟩
  · rw [htoken]
  · rw [htoken] at hkind
    exact absurd rfl hkind

end Marks

/-- The texts of tokens that lie end to end make up the text. -/
theorem flatMap_source {cs : List Char} {start stop : Nat} {tokens : List Token}
    (htiles : Tiles start stop tokens) (hmarks : ∀ t ∈ tokens, ∃ l, Marks cs t l) :
    tokens.flatMap (Token.source cs) ++ cs.drop stop = cs.drop start := by
  induction tokens generalizing start with
  | nil =>
      obtain rfl : start = stop := htiles
      rfl
  | cons t rest ih =>
      obtain ⟨rfl, -, hrest⟩ := htiles
      obtain ⟨l, hl⟩ := hmarks t List.mem_cons_self
      rw [List.flatMap_cons, List.append_assoc,
        ih hrest fun u hu => hmarks u (List.mem_cons_of_mem t hu), hl.source_eq, hl.split]

theorem toList_normalizedText_eq_flatMap (line : String) :
    (normalizedText line).toList = (tokensOf line).flatMap Token.value := by
  rw [normalizedText, tokenText, String.toList_ofList]

theorem tokenizes_tokensOf (line : String) : Tokenizes line.toList (tokensOf line) where
  cuts others := cuts_iff
  tiles := (lexed_tokensOf line).tiles
  quoted start stop := (lexed_tokensOf line).stands_quoted_iff
  lone k := (lexed_tokensOf line).lone_quoteMark
  space start stop := (lexed_tokensOf line).stands_run_iff isRunClass_blank
  word start stop := (lexed_tokensOf line).stands_run_iff isRunClass_word
  symbol start stop := (lexed_tokensOf line).stands_symbol_iff
  keyword t ht hkind := by
    obtain ⟨l, hl⟩ := (lexed_tokensOf line).marks t ht
    have hword : l.kind = .word := (hl.kind_mem_iff (by decide)).1 hkind
    refine ⟨exists_lowered _, fun lowered hlowered => ?_⟩
    rw [hl.source_eq] at hlowered
    -- the lexer lowers ASCII capitals only, which makes no difference
    simp only [← keyword?_eq_some_iff, hlowered.keyword?_eq]
    exact hl.keyword_iff hword
  value t ht hkind := by
    obtain ⟨l, hl⟩ := (lexed_tokensOf line).marks t ht
    exact hl.value_eq_source hkind

/-- The lexer loses nothing and rewrites exactly the keywords. The tokens of a line are those of its
text; the texts of the tokens make up the line, and with the glyph in place of every keyword they
make up the normalized line. -/
theorem tokensOf_tokenizes (line : String) :
    Tokenizes line.toList (tokensOf line) ∧
      (tokensOf line).flatMap (Token.source line.toList) = line.toList ∧
      (normalizedText line).toList = (tokensOf line).flatMap fun t =>
        if t.kind = .keyword then t.value else t.source line.toList := by
  have hlexed := lexed_tokensOf line
  have htokens := tokenizes_tokensOf line
  refine ⟨htokens, ?_, ?_⟩
  · have hsources := flatMap_source hlexed.tiles hlexed.marks
    rwa [List.drop_length, List.append_nil, List.drop_zero] at hsources
  · rw [toList_normalizedText_eq_flatMap]
    apply List.flatMap_congr
    intro t ht
    by_cases hkind : t.kind = .keyword
    · rw [if_pos hkind]
    · rw [if_neg hkind, htokens.value t ht hkind]

/-- Words end at quotation marks, and the last quotation mark has no partner. -/
example :
    (tokensOf "pAND AND`or`oR`").map (fun t => (t.kind, String.ofList t.value)) =
      [(.word, "pAND"), (.space, " "), (.keyword, "∧"), (.quoted, "`or`"), (.keyword, "∨"),
        (.symbol, "`")] := by
  decide +kernel

/-! ## Tokens of a normalized line -/

/-- A token and the token that it has become in the normalized line: the value stays, and a keyword
has become a symbol. -/
structure Token.Becomes (t u : Token) : Prop where
  value : u.value = t.value
  kind : u.kind = if t.kind = .keyword then .symbol else t.kind

/-- The tokens `renewed` of a normalized text, beside the tokens of the text that it comes from. -/
structure Renews (cs : List Char) (tokens renewed : List Token) : Prop where
  /-- There are as many tokens as before. -/
  length : renewed.length = tokens.length
  /-- Every token has become the token in its place. -/
  each : List.Forall₂ Token.Becomes tokens renewed
  /-- No keyword is left, and none has come up. -/
  noKeyword : ∀ u ∈ renewed, u.kind ≠ .keyword
  /-- What stands in the text is what the tokens say. -/
  source : ∀ u ∈ renewed, u.source cs = u.value
  /-- The quoted names, the blanks and the words are those that there were. -/
  same : ∀ kind, kind ≠ .symbol → kind ≠ .keyword →
    (renewed.filter (·.kind = kind)).map Token.value =
      (tokens.filter (·.kind = kind)).map Token.value
  /-- Quotation marks are paired off as before: what they enclose is the quoted tokens. -/
  quoted : ∀ start stop, Stands renewed [.quoted] start stop ↔ IsQuotation cs renewed start stop
  /-- No words have run together: a maximal run of word characters is one of the words. -/
  word : ∀ start stop, Stands renewed [.word] start stop ↔
    IsMaximalRun isWordChar cs start stop ∧ ∀ k, start ≤ k → k < stop → ¬InQuotes renewed k

namespace Token.Becomes

variable {t u : Token}

theorem kind_ne_keyword (h : t.Becomes u) : u.kind ≠ .keyword := by
  rw [h.kind]
  by_cases hkind : t.kind = .keyword
  · rw [if_pos hkind]
    exact TokenKind.noConfusion
  · rwa [if_neg hkind]

/-- Only keywords and symbols change places. -/
theorem kind_eq_iff (h : t.Becomes u) {kind : TokenKind} (hsymbol : kind ≠ .symbol)
    (hkeyword : kind ≠ .keyword) : u.kind = kind ↔ t.kind = kind := by
  rw [h.kind]
  by_cases hkind : t.kind = .keyword
  · rw [if_pos hkind, hkind]
    exact iff_of_false hsymbol.symm hkeyword.symm
  · rw [if_neg hkind]

end Token.Becomes

/-- The token of a lexeme becomes the token of its normal form. -/
theorem Leads.becomes {l : Lexeme} {rest : List Char} (h : Leads l rest) (start start' : Nat) :
    (l.token start).Becomes (l.normal.token start') where
  value := by rw [Lexeme.value_token, Lexeme.value_token, Lexeme.normal_normal]
  kind := by
    rcases l.token_cases start with ⟨hnone, htoken⟩ | ⟨s, hword, hsome, htoken⟩
    · -- no keyword: the lexeme is its own normal form, and the class of the token is that of
      -- the lexeme
      have hnot {s : Symbol} (hword : l.kind = .word) : wordSymbol? l.chars ≠ some s := by
        rw [hnone hword]
        exact (Option.some_ne_none s).symm
      have hsame : l.normal = l :=
        l.normal_cases.resolve_right fun ⟨hword, s, hsome, _⟩ => hnot hword hsome
      have htoken' : l.token start' = ⟨l.kind, l.chars, start', start' + l.chars.length⟩ := by
        rcases l.token_cases start' with ⟨-, htoken'⟩ | ⟨s, hword, hsome, -⟩
        · exact htoken'
        · exact absurd hsome (hnot hword)
      rw [hsame, htoken', htoken, if_neg h.kind_ne_keyword]
    · have hnormal : l.normal = ⟨.symbol, [s.glyph]⟩ := by
        rw [Lexeme.normal, hword, hsome]
      rw [hnormal, htoken]
      rfl

/-- The tokens of a text become those of the normalized text, wherever either text begins. -/
theorem forall₂_becomes (cs : List Char) (start start' : Nat) :
    List.Forall₂ Token.Becomes (tokensFrom start (lexemes cs))
      (tokensFrom start' (lexemes (normalChars cs))) := by
  induction cs using lexing_induction generalizing start start' with
  | nil =>
      rw [normalChars_nil, lexemes, tokensFrom, tokensFrom]
      exact .nil
  | step l rest hl ih =>
      rw [normalChars_of_leads hl, lexemes_of_leads hl, lexemes_of_leads hl.normal, tokensFrom,
        tokensFrom]
      exact .cons (hl.becomes start start') (ih _ _)

section Becomes

variable {tokens renewed : List Token}

theorem noKeyword_of_becomes (h : List.Forall₂ Token.Becomes tokens renewed) :
    ∀ u ∈ renewed, u.kind ≠ .keyword := by
  induction h with
  | nil => exact fun u hu => absurd hu List.not_mem_nil
  | cons hbecomes _ ih =>
      intro u hu
      rcases List.mem_cons.1 hu with rfl | hu
      · exact hbecomes.kind_ne_keyword
      · exact ih u hu

/-- The values of a class of tokens stay, unless symbols are added to it or keywords lost. -/
theorem values_of_becomes (h : List.Forall₂ Token.Becomes tokens renewed) {kind : TokenKind}
    (hsymbol : kind ≠ .symbol) (hkeyword : kind ≠ .keyword) :
    (renewed.filter (·.kind = kind)).map Token.value =
      (tokens.filter (·.kind = kind)).map Token.value := by
  induction h with
  | nil => rfl
  | @cons t u _ _ hbecomes _ ih =>
      simp only [List.filter_cons, decide_eq_true_eq, hbecomes.kind_eq_iff hsymbol hkeyword]
      by_cases hkind : t.kind = kind
      · rw [if_pos hkind, if_pos hkind, List.map_cons, List.map_cons, ih, hbecomes.value]
      · rw [if_neg hkind, if_neg hkind, ih]

/-- Where no keyword is left the words are all the runs of word characters. -/
theorem stands_word_iff (h : ∀ u ∈ renewed, u.kind ≠ .keyword) {start stop : Nat} :
    Stands renewed [.word] start stop ↔ Stands renewed TokenKind.word.tokenKinds start stop := by
  constructor
  · rintro ⟨u, hu, hmem, hspan⟩
    exact ⟨u, hu, List.mem_cons.2 (Or.inl (List.mem_singleton.1 hmem)), hspan⟩
  · rintro ⟨u, hu, hmem, hspan⟩
    rcases List.mem_cons.1 hmem with hword | hkeyword
    · exact ⟨u, hu, List.mem_singleton.2 hword, hspan⟩
    · exact absurd (List.mem_singleton.1 hkeyword) (h u hu)

end Becomes

/-- Normalization settles at once, and it does so token by token: lexing the normalized line gives
the tokens of the line again, with a symbol in place of every keyword. -/
theorem tokensOf_normalizedText (line : String) :
    normalizedText (normalizedText line) = normalizedText line ∧
      Renews (normalizedText line).toList (tokensOf line) (tokensOf (normalizedText line)) := by
  have hlexed := lexed_tokensOf (normalizedText line)
  have heach : List.Forall₂ Token.Becomes (tokensOf line) (tokensOf (normalizedText line)) := by
    rw [tokensOf, tokensOf, toList_normalizedText]
    exact forall₂_becomes line.toList 0 0
  have hnone := noKeyword_of_becomes heach
  constructor
  · exact normalizedText_eq_self_iff.2 (isNormal_normalizedText line)
  · exact
      { length := heach.length_eq.symm
        each := heach
        noKeyword := hnone
        source := fun u hu => by
          obtain ⟨l, hl⟩ := hlexed.marks u hu
          exact (hl.value_eq_source (hnone u hu)).symm
        same := fun kind => values_of_becomes heach
        quoted := fun start stop => hlexed.stands_quoted_iff
        word :=
          fun start stop => (stands_word_iff hnone).trans (hlexed.stands_run_iff isRunClass_word) }

end Sentential
