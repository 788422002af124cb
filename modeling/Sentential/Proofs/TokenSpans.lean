import Sentential.Proofs.Lexing

/-!
# Where tokens stand

The tokens of a text lie end to end from its first character to its last one (`Tiles`), so that
every character belongs to exactly one token. `Marks` says that a token stands where a lexeme of the
text stands. A run of blanks or of word characters outside quoted tokens is maximal exactly if it is
a token (`Lexed.stands_run_iff`), a quoted token reaches from a quotation mark outside the quoted
tokens before it to the next quotation mark (`Lexed.stands_quoted_iff`), and every other character
is a token by itself (`Lexed.stands_symbol_iff`).
-/

namespace Sentential

open Text

/-- The tokens lie end to end from one position to another, and none is empty. -/
def Tiles : Nat → Nat → List Token → Prop
  | start, stop, [] => start = stop
  | start, stop, t :: rest => t.start = start ∧ t.start < t.stop ∧ Tiles t.stop stop rest

/-- The classes of the tokens that lexemes of a class give: some words are keywords. -/
def TokenKind.tokenKinds : TokenKind → List TokenKind
  | .word => [.word, .keyword]
  | kind => [kind]

/-- The part of a text where a token stands. -/
def Token.source (cs : List Char) (t : Token) : List Char := cs.extract t.start t.stop

/-- A token of one of the classes stands between the positions. -/
def Stands (tokens : List Token) (kinds : List TokenKind) (start stop : Nat) : Prop :=
  ∃ t ∈ tokens, t.kind ∈ kinds ∧ t.start = start ∧ t.stop = stop

/-- The position is in a quoted token. -/
def InQuotes (tokens : List Token) (k : Nat) : Prop :=
  ∃ t ∈ tokens, t.kind = .quoted ∧ t.start ≤ k ∧ k < t.stop

/-- A quotation mark stands at `start`, outside any quoted token that begins earlier, and the next
quotation mark stands just before `stop`. -/
structure IsQuotation (cs : List Char) (tokens : List Token) (start stop : Nat) : Prop where
  opening : cs[start]? = some quoteMark
  outside : ∀ t ∈ tokens, t.kind = .quoted → t.start < start → t.stop ≤ start
  closing : ∃ last, stop = last + 1 ∧ start < last ∧ cs[last]? = some quoteMark ∧
    ∀ k, start < k → k < last → cs[k]? ≠ some quoteMark

/-- The characters between the positions are of the class, and those next to them are not. -/
structure IsMaximalRun (p : Char → Bool) (cs : List Char) (start stop : Nat) : Prop where
  nonempty : start < stop
  members : ∀ k, start ≤ k → k < stop → cs[k]?.any p = true
  before : ∀ k, start = k + 1 → cs[k]?.any p = false
  after : cs[stop]?.any p = false

/-- The next quotation mark is in one place only. -/
theorem IsQuotation.unique {cs : List Char} {tokens : List Token} {start stop stop' : Nat}
    (h : IsQuotation cs tokens start stop)
    (h' : IsQuotation cs tokens start stop') : stop = stop' := by
  obtain ⟨last, rfl, hlt, hmark, hnone⟩ := h.closing
  obtain ⟨last', rfl, hlt', hmark', hnone'⟩ := h'.closing
  rcases Nat.lt_trichotomy last last' with hless | rfl | hless
  · exact absurd hmark (hnone' last hlt hless)
  · rfl
  · exact absurd hmark' (hnone last' hlt' hless)

/-! ## Tokens end to end -/

namespace Tiles

variable {start stop k : Nat} {tokens : List Token} {t u : Token}

theorem le (h : Tiles start stop tokens) : start ≤ stop := by
  induction tokens generalizing start with
  | nil => exact Nat.le_of_eq h
  | cons first rest ih =>
      obtain ⟨rfl, hlt, hrest⟩ := h
      exact Nat.le_trans (Nat.le_of_lt hlt) (ih hrest)

theorem bounds (h : Tiles start stop tokens) (ht : t ∈ tokens) :
    start ≤ t.start ∧ t.start < t.stop ∧ t.stop ≤ stop := by
  induction tokens generalizing start with
  | nil => exact absurd ht List.not_mem_nil
  | cons first rest ih =>
      obtain ⟨rfl, hlt, hrest⟩ := h
      rcases List.mem_cons.1 ht with rfl | ht
      · exact ⟨Nat.le_refl _, hlt, hrest.le⟩
      · obtain ⟨hstart, hbounds⟩ := ih hrest ht
        exact ⟨Nat.le_trans (Nat.le_of_lt hlt) hstart, hbounds⟩

/-- There is no gap: every position between the ends is in a token. -/
theorem exists_mem (h : Tiles start stop tokens) (hstart : start ≤ k) (hstop : k < stop) :
    ∃ t ∈ tokens, t.start ≤ k ∧ k < t.stop := by
  induction tokens generalizing start with
  | nil => exact absurd hstop (by rw [← h]; exact Nat.not_lt.2 hstart)
  | cons first rest ih =>
      obtain ⟨rfl, hlt, hrest⟩ := h
      by_cases hk : k < first.stop
      · exact ⟨first, List.mem_cons_self, hstart, hk⟩
      · obtain ⟨t, ht, hspan⟩ := ih hrest (Nat.not_lt.1 hk)
        exact ⟨t, List.mem_cons_of_mem first ht, hspan⟩

/-- There is no overlap: tokens that share a position are the same. -/
theorem eq_of_overlap (h : Tiles start stop tokens) (ht : t ∈ tokens) (hu : u ∈ tokens)
    (htk : t.start ≤ k ∧ k < t.stop) (huk : u.start ≤ k ∧ k < u.stop) : t = u := by
  induction tokens generalizing start with
  | nil => exact absurd ht List.not_mem_nil
  | cons first rest ih =>
      obtain ⟨rfl, -, hrest⟩ := h
      rcases List.mem_cons.1 ht with rfl | ht' <;> rcases List.mem_cons.1 hu with rfl | hu'
      · rfl
      · exact absurd (Nat.lt_of_lt_of_le htk.2 (hrest.bounds hu').1) (Nat.not_lt.2 huk.1)
      · exact absurd (Nat.lt_of_lt_of_le huk.2 (hrest.bounds ht').1) (Nat.not_lt.2 htk.1)
      · exact ih hrest ht' hu'

/-- A token that begins earlier than another one ends before it. -/
theorem stop_le (h : Tiles start stop tokens) (ht : t ∈ tokens) (hu : u ∈ tokens)
    (hlt : t.start < u.start) : t.stop ≤ u.start := by
  by_contra hover
  have hsame : t = u := h.eq_of_overlap ht hu ⟨Nat.le_of_lt hlt, Nat.not_le.1 hover⟩
    ⟨Nat.le_refl _, (h.bounds hu).2.1⟩
  exact absurd (hsame ▸ hlt) (Nat.lt_irrefl _)

end Tiles

/-! ## Tokens and lexemes -/

/-- A character stands at a position if the rest of the text begins with it. -/
theorem any_getElem?_of_startsOutside {p : Char → Bool} {cs : List Char} {k : Nat}
    (h : StartsOutside p (cs.drop k)) : cs[k]?.any p = false := by
  rw [← List.head?_drop]
  cases hhead : (cs.drop k).head? with
  | none => rfl
  | some c => exact h c hhead

/-- The token stands in the text where the lexeme stands. -/
structure Marks (cs : List Char) (t : Token) (l : Lexeme) : Prop where
  token : t = l.token t.start
  split : cs.drop t.start = l.chars ++ cs.drop t.stop
  leads : Leads l (cs.drop t.stop)

/-- The token of a lexeme has the class and the characters of the lexeme, unless the lexeme is a
word that stands for a symbol. -/
theorem Lexeme.token_cases (start : Nat) (l : Lexeme) :
    (l.kind = .word → wordSymbol? l.chars = none) ∧
        l.token start = ⟨l.kind, l.chars, start, start + l.chars.length⟩ ∨
      ∃ s, l.kind = .word ∧ wordSymbol? l.chars = some s ∧
        l.token start = ⟨.keyword, [s.glyph], start, start + l.chars.length⟩ := by
  obtain ⟨kind, chars⟩ := l
  cases kind with
  | word => cases hword : wordSymbol? chars <;> simp [token, hword]
  | quoted => exact Or.inl ⟨TokenKind.noConfusion, rfl⟩
  | space => exact Or.inl ⟨TokenKind.noConfusion, rfl⟩
  | keyword => exact Or.inl ⟨TokenKind.noConfusion, rfl⟩
  | symbol => exact Or.inl ⟨TokenKind.noConfusion, rfl⟩

theorem Lexeme.span_token (start : Nat) (l : Lexeme) :
    (l.token start).start = start ∧ (l.token start).stop = start + l.chars.length := by
  rcases l.token_cases start with ⟨-, htoken⟩ | ⟨s, -, -, htoken⟩
  · rw [htoken]
    exact ⟨rfl, rfl⟩
  · rw [htoken]
    exact ⟨rfl, rfl⟩

theorem Leads.kind_ne_keyword {l : Lexeme} {rest : List Char} (h : Leads l rest) :
    l.kind ≠ .keyword := by
  cases h <;> exact TokenKind.noConfusion

theorem TokenKind.mem_tokenKinds_iff {kind other : TokenKind} :
    other ∈ kind.tokenKinds ↔ other = kind ∨ kind = .word ∧ other = .keyword := by
  cases kind <;> simp [tokenKinds]

/-- The tokens of a text: they lie end to end, and each stands where a lexeme stands. -/
structure Lexed (cs : List Char) (tokens : List Token) : Prop where
  tiles : Tiles 0 cs.length tokens
  marks : ∀ t ∈ tokens, ∃ l, Marks cs t l

theorem tiles_tokensFrom (start : Nat) (cs : List Char) :
    Tiles start (start + cs.length) (tokensFrom start (lexemes cs)) := by
  induction cs using lexing_induction generalizing start with
  | nil =>
      rw [lexemes]
      rfl
  | step l rest hl ih =>
      obtain ⟨hstart, hstop⟩ := l.span_token start
      have hpos := hl.length_pos
      rw [lexemes_of_leads hl, tokensFrom]
      refine ⟨hstart, ?_, ?_⟩
      · rw [hstart, hstop]
        omega
      · rw [hstop, List.length_append, ← Nat.add_assoc]
        exact ih (start + l.chars.length)

/-- The tokens of the end of a text stand where its lexemes stand. -/
theorem exists_marks (before cs : List Char) :
    ∀ t ∈ tokensFrom before.length (lexemes cs), ∃ l, Marks (before ++ cs) t l := by
  induction cs using lexing_induction generalizing before with
  | nil =>
      rw [lexemes]
      exact fun t ht => absurd ht List.not_mem_nil
  | step l rest hl ih =>
      intro t ht
      have hdrop : (before ++ (l.chars ++ rest)).drop (before.length + l.chars.length) = rest := by
        rw [← List.append_assoc, ← List.length_append, List.drop_left]
      rw [lexemes_of_leads hl, tokensFrom] at ht
      rcases List.mem_cons.1 ht with rfl | ht
      · obtain ⟨hstart, hstop⟩ := l.span_token before.length
        refine ⟨l, ?_, ?_, ?_⟩
        · rw [hstart]
        · rw [hstart, hstop, hdrop, List.drop_left]
        · rw [hstop, hdrop]
          exact hl
      · -- the lexeme joins the text before, from which positions are counted
        rw [← List.length_append] at ht
        obtain ⟨m, hm⟩ := ih (before ++ l.chars) t ht
        rw [List.append_assoc] at hm
        exact ⟨m, hm⟩

theorem lexed_tokensOf (line : String) : Lexed line.toList (tokensOf line) where
  tiles := by
    have := tiles_tokensFrom 0 line.toList
    rwa [Nat.zero_add] at this
  marks := exists_marks [] line.toList

namespace Marks

variable {cs : List Char} {t : Token} {l : Lexeme}

theorem stop_eq (h : Marks cs t l) : t.stop = t.start + l.chars.length := by
  have := congrArg Token.stop h.token
  rwa [(l.span_token t.start).2] at this

theorem source_eq (h : Marks cs t l) : t.source cs = l.chars := by
  rw [Token.source, List.extract_eq_take_drop, h.split, h.stop_eq, Nat.add_sub_cancel_left,
    List.take_left]

/-- The characters between the ends of the token are those of the lexeme. -/
theorem getElem?_eq (h : Marks cs t l) {i : Nat} (hi : i < l.chars.length) :
    cs[t.start + i]? = l.chars[i]? := by
  rw [← List.getElem?_drop, h.split, List.getElem?_append_left hi]

theorem exists_getElem? (h : Marks cs t l) {k : Nat} (hk : t.start ≤ k ∧ k < t.stop) :
    ∃ c ∈ l.chars, cs[k]? = some c := by
  have hi : k - t.start < l.chars.length := by
    have := h.stop_eq
    omega
  have hget := h.getElem?_eq hi
  rw [Nat.add_sub_cancel' hk.1, List.getElem?_eq_getElem hi] at hget
  exact ⟨_, List.getElem_mem hi, hget⟩

/-- A token is of one of the classes that lexemes of a class give exactly if its lexeme is of the
class. -/
theorem kind_mem_iff (h : Marks cs t l) {kind : TokenKind} (hkind : kind ≠ .keyword) :
    t.kind ∈ kind.tokenKinds ↔ l.kind = kind := by
  have hne := h.leads.kind_ne_keyword
  rw [TokenKind.mem_tokenKinds_iff, h.token]
  rcases l.token_cases t.start with ⟨-, htoken⟩ | ⟨s, hword, -, htoken⟩
  · rw [htoken]
    exact or_iff_left fun hk => hne hk.2
  · rw [hword, htoken]
    constructor
    · rintro (rfl | ⟨rfl, -⟩)
      · exact absurd rfl hkind
      · rfl
    · rintro rfl
      exact Or.inr ⟨rfl, rfl⟩

theorem kind_eq_quoted_iff (h : Marks cs t l) : t.kind = .quoted ↔ l.kind = .quoted := by
  rw [← h.kind_mem_iff (by decide), TokenKind.mem_tokenKinds_iff]
  exact (or_iff_left fun hk => TokenKind.noConfusion hk.1).symm

end Marks

/-! ## Runs -/

namespace IsMaximalRun

variable {p : Char → Bool} {cs : List Char} {start stop start' stop' k : Nat}

/-- A maximal run does not begin within another run of its class. -/
theorem start_le (h : IsMaximalRun p cs start stop) (h' : IsMaximalRun p cs start' stop')
    (hk : start ≤ k ∧ k < stop) (hk' : start' ≤ k) : start' ≤ start := by
  by_contra hlt
  have hbefore := h'.before (start' - 1) (by omega)
  rw [h.members (start' - 1) (by omega) (by omega)] at hbefore
  exact Bool.noConfusion hbefore

/-- A maximal run does not end within another run of its class. -/
theorem stop_le (h : IsMaximalRun p cs start stop) (h' : IsMaximalRun p cs start' stop')
    (hk : start ≤ k) (hk' : k < stop') : stop ≤ stop' := by
  by_contra hlt
  have hafter := h'.after
  rw [h.members stop' (by omega) (by omega)] at hafter
  exact Bool.noConfusion hafter

/-- Maximal runs that share a position are the same. -/
theorem unique (h : IsMaximalRun p cs start stop) (h' : IsMaximalRun p cs start' stop')
    (hk : start ≤ k ∧ k < stop) (hk' : start' ≤ k ∧ k < stop') : start = start' ∧ stop = stop' :=
  ⟨Nat.le_antisymm (h'.start_le h hk' hk.1) (h.start_le h' hk hk'.1),
    Nat.le_antisymm (h.stop_le h' hk.1 hk'.2) (h'.stop_le h hk'.1 hk.2)⟩

end IsMaximalRun

/-- The lexeme of a quotation mark is a quoted name, or the quotation mark alone. -/
theorem Leads.quoted_cases {l : Lexeme} {rest : List Char} (h : Leads l rest)
    (hkind : l.kind = .quoted) :
    ∃ inside, l.chars = quoteMark :: inside ++ [quoteMark] ∧ quoteMark ∉ inside := by
  cases h with
  | @quoted inside _ h => exact ⟨inside, rfl, h⟩
  | loneQuote => cases hkind
  | space => cases hkind
  | word => cases hkind
  | symbol => cases hkind

/-- A lexeme with a quotation mark is a quoted name, unless no other quotation mark follows. -/
theorem Leads.quoteMark_cases {l : Lexeme} {rest : List Char} (h : Leads l rest)
    (hmem : quoteMark ∈ l.chars) :
    l.kind = .quoted ∨ l.chars = [quoteMark] ∧ quoteMark ∉ rest := by
  cases h with
  | quoted => exact Or.inl rfl
  | loneQuote h => exact Or.inr ⟨rfl, h⟩
  | space hcs _ => exact absurd hmem (quoteMark_not_mem_of_blanks hcs)
  | word hcs _ => exact absurd hmem (quoteMark_not_mem_of_words hcs)
  | symbol hquote _ _ => exact absurd (List.mem_singleton.1 hmem).symm hquote

/-- A symbol is a single character that is in no run. -/
theorem Leads.symbol_cases {l : Lexeme} {rest : List Char} (h : Leads l rest)
    (hkind : l.kind = .symbol) :
    ∃ c, l.chars = [c] ∧ isBlank c = false ∧ isWordChar c = false := by
  cases h with
  | loneQuote => exact ⟨_, rfl, isBlank_quoteMark, isWordChar_quoteMark⟩
  | @symbol c _ _ hblank hword => exact ⟨c, rfl, hblank, hword⟩
  | quoted => cases hkind
  | space => cases hkind
  | word => cases hkind

/-- The runs of the class are the lexemes of the kind. -/
structure IsRunClass (p : Char → Bool) (kind : TokenKind) : Prop where
  ne_quoted : kind ≠ .quoted
  ne_keyword : kind ≠ .keyword
  quoteMark : p quoteMark = false
  /-- A lexeme of the kind consists of characters of the class, and no such character follows. -/
  run {l : Lexeme} {rest : List Char} (h : Leads l rest) (hkind : l.kind = kind) :
    (∀ c ∈ l.chars, p c = true) ∧ StartsOutside p rest
  /-- Outside quoted names, the characters of the class are in lexemes of the kind. -/
  kind_eq {l : Lexeme} {rest : List Char} (h : Leads l rest) (hquoted : l.kind ≠ .quoted) {c : Char}
    (hc : c ∈ l.chars) (hp : p c = true) : l.kind = kind

theorem isRunClass_blank : IsRunClass isBlank .space where
  ne_quoted := by decide
  ne_keyword := by decide
  quoteMark := isBlank_quoteMark
  run h hkind := by
    cases h with
    | space hcs hrest => exact ⟨hcs, hrest⟩
    | quoted => cases hkind
    | loneQuote => cases hkind
    | word => cases hkind
    | symbol => cases hkind
  kind_eq h hquoted c hc hp := by
    cases h with
    | space => rfl
    | quoted => exact absurd rfl hquoted
    | loneQuote => exact absurd (List.mem_singleton.1 hc) (ne_of_isBlank hp isBlank_quoteMark)
    | word hcs _ =>
        rw [isBlank_of_isWordChar (hcs c hc)] at hp
        exact absurd hp Bool.false_ne_true
    | symbol _ hblank _ =>
        rw [List.mem_singleton.1 hc, hblank] at hp
        exact absurd hp Bool.false_ne_true

theorem isRunClass_word : IsRunClass isWordChar .word where
  ne_quoted := by decide
  ne_keyword := by decide
  quoteMark := isWordChar_quoteMark
  run h hkind := by
    cases h with
    | word hcs hrest => exact ⟨hcs, hrest⟩
    | quoted => cases hkind
    | loneQuote => cases hkind
    | space => cases hkind
    | symbol => cases hkind
  kind_eq h hquoted c hc hp := by
    cases h with
    | word => rfl
    | quoted => exact absurd rfl hquoted
    | loneQuote =>
        rw [List.mem_singleton.1 hc, isWordChar_quoteMark] at hp
        exact absurd hp Bool.false_ne_true
    | space hcs _ =>
        rw [isWordChar_of_isBlank (hcs c hc)] at hp
        exact absurd hp Bool.false_ne_true
    | symbol _ _ hword =>
        rw [List.mem_singleton.1 hc, hword] at hp
        exact absurd hp Bool.false_ne_true

/-- Outside quoted names, a character that is neither blank nor a word character is a symbol. -/
theorem Leads.kind_eq_symbol {l : Lexeme} {rest : List Char} (h : Leads l rest)
    (hquoted : l.kind ≠ .quoted) {c : Char} (hc : c ∈ l.chars) (hblank : isBlank c = false)
    (hword : isWordChar c = false) :
    l.kind = .symbol := by
  cases hkind : l.kind with
  | symbol => rfl
  | quoted => exact absurd hkind hquoted
  | keyword => exact absurd hkind h.kind_ne_keyword
  | space =>
      rw [(isRunClass_blank.run h hkind).1 c hc] at hblank
      exact Bool.noConfusion hblank
  | word =>
      rw [(isRunClass_word.run h hkind).1 c hc] at hword
      exact Bool.noConfusion hword

/-- A lexeme that ends with a character of the class is followed by none, since a quoted name ends
with a quotation mark. -/
theorem IsRunClass.startsOutside_of_last {p : Char → Bool} {kind : TokenKind}
    (hp : IsRunClass p kind) {l : Lexeme} {rest : List Char} (h : Leads l rest) {c : Char}
    (hlast : l.chars.getLast? = some c) (hc : p c = true) : StartsOutside p rest := by
  by_cases hquoted : l.kind = .quoted
  · cases h with
    | quoted =>
        rw [List.getLast?_append, List.getLast?_singleton] at hlast
        obtain rfl : Sentential.quoteMark = c := Option.some.inj hlast
        rw [hp.quoteMark] at hc
        exact absurd hc Bool.false_ne_true
    | loneQuote => cases hquoted
    | space => cases hquoted
    | word => cases hquoted
    | symbol => cases hquoted
  · exact (hp.run h (hp.kind_eq h hquoted (List.mem_of_getLast? hlast) hc)).2

namespace Lexed

variable {cs : List Char} {tokens : List Token} {start stop k : Nat}

/-- Every character is in a token. -/
theorem exists_marks (h : Lexed cs tokens) {c : Char} (hk : cs[k]? = some c) :
    ∃ t ∈ tokens, ∃ l, Marks cs t l ∧ (t.start ≤ k ∧ k < t.stop) ∧ c ∈ l.chars := by
  obtain ⟨hlt, -⟩ := List.getElem?_eq_some_iff.1 hk
  obtain ⟨t, ht, hspan⟩ := h.tiles.exists_mem (Nat.zero_le k) hlt
  obtain ⟨l, hl⟩ := h.marks t ht
  obtain ⟨d, hd, hget⟩ := hl.exists_getElem? hspan
  rw [hk] at hget
  exact ⟨t, ht, l, hl, hspan, Option.some.inj hget ▸ hd⟩

/-- The character before a token is the last one of the token that ends there. -/
theorem exists_marks_before (h : Lexed cs tokens) {t : Token} (ht : t ∈ tokens)
    (hk : t.start = k + 1) {c : Char} (hget : cs[k]? = some c) :
    ∃ u m, Marks cs u m ∧ u.stop = t.start ∧ m.chars.getLast? = some c := by
  obtain ⟨u, hu, m, hm, huk, -⟩ := h.exists_marks hget
  have hstop : u.stop = t.start := by
    have := h.tiles.stop_le hu ht (by omega)
    omega
  have hlength := hm.stop_eq
  have hindex : u.start + (m.chars.length - 1) = k := by omega
  refine ⟨u, m, hm, hstop, ?_⟩
  rw [List.getLast?_eq_getElem?, ← hm.getElem?_eq (by omega), hindex, hget]

/-- No position of a token of another class is in quotes. -/
theorem not_inQuotes (h : Lexed cs tokens) {t : Token} (ht : t ∈ tokens) (hkind : t.kind ≠ .quoted)
    (hk : t.start ≤ k ∧ k < t.stop) : ¬InQuotes tokens k := by
  rintro ⟨u, hu, hquoted, huk⟩
  rw [h.tiles.eq_of_overlap ht hu hk huk] at hkind
  exact hkind hquoted

/-- The lexeme of a class of runs is a maximal run. -/
theorem isMaximalRun (h : Lexed cs tokens) {p : Char → Bool} {kind : TokenKind}
    (hp : IsRunClass p kind) {t : Token} {l : Lexeme} (ht : t ∈ tokens) (hl : Marks cs t l)
    (hkind : l.kind = kind) :
    IsMaximalRun p cs t.start t.stop := by
  obtain ⟨hmembers, hrest⟩ := hp.run hl.leads hkind
  have hspan := h.tiles.bounds ht
  have hfirst : cs[t.start]?.any p = true := by
    obtain ⟨c, hc, hget⟩ := hl.exists_getElem? ⟨Nat.le_refl _, hspan.2.1⟩
    rw [hget]
    exact hmembers c hc
  refine ⟨hspan.2.1, ?_, ?_, any_getElem?_of_startsOutside hrest⟩
  · intro k hstart hstop
    obtain ⟨c, hc, hget⟩ := hl.exists_getElem? ⟨hstart, hstop⟩
    rw [hget]
    exact hmembers c hc
  · intro k hk
    cases hget : cs[k]? with
    | none => rfl
    | some c =>
        -- a run of the class that ended here would go on with the first character of the token
        obtain ⟨u, m, hm, hstop, hlast⟩ := h.exists_marks_before ht hk hget
        rw [Option.any_some, ← Bool.not_eq_true]
        intro hc
        have hnext := any_getElem?_of_startsOutside (hp.startsOutside_of_last hm.leads hlast hc)
        rw [hstop, hfirst] at hnext
        exact Bool.noConfusion hnext

/-- A maximal run outside quotes is a token, and the tokens of the kind are such runs. -/
theorem stands_run_iff (h : Lexed cs tokens) {p : Char → Bool} {kind : TokenKind}
    (hp : IsRunClass p kind) :
    Stands tokens kind.tokenKinds start stop ↔
      IsMaximalRun p cs start stop ∧ ∀ k, start ≤ k → k < stop → ¬InQuotes tokens k := by
  constructor
  · rintro ⟨t, ht, hmem, rfl, rfl⟩
    obtain ⟨l, hl⟩ := h.marks t ht
    have hkind := (hl.kind_mem_iff hp.ne_keyword).1 hmem
    refine ⟨h.isMaximalRun hp ht hl hkind, fun k hstart hstop => ?_⟩
    apply h.not_inQuotes ht _ ⟨hstart, hstop⟩
    rw [ne_eq, hl.kind_eq_quoted_iff, hkind]
    exact hp.ne_quoted
  · rintro ⟨hrun, houtside⟩
    -- the token of the first character is a run of the kind, and maximal runs that meet are the
    -- same
    have hfirst := hrun.members start (Nat.le_refl _) hrun.nonempty
    obtain ⟨c, hget, hc⟩ := (Option.any_eq_true _ _).1 hfirst
    obtain ⟨t, ht, l, hl, hspan, hmem⟩ := h.exists_marks hget
    have hquoted : l.kind ≠ .quoted := by
      intro hquoted
      exact houtside start (Nat.le_refl _) hrun.nonempty
        ⟨t, ht, hl.kind_eq_quoted_iff.2 hquoted, hspan⟩
    have hkind := hp.kind_eq hl.leads hquoted hmem hc
    obtain ⟨hstart, hstop⟩ := (h.isMaximalRun hp ht hl hkind).unique hrun hspan
      ⟨Nat.le_refl _, hrun.nonempty⟩
    exact ⟨t, ht, (hl.kind_mem_iff hp.ne_keyword).2 hkind, hstart, hstop⟩

/-! ## Quoted tokens -/

/-- A quoted token reaches from its quotation mark to the next one. -/
theorem isQuotation (h : Lexed cs tokens) {t : Token} (ht : t ∈ tokens)
    (hquoted : t.kind = .quoted) :
    IsQuotation cs tokens t.start t.stop := by
  obtain ⟨l, hl⟩ := h.marks t ht
  obtain ⟨inside, hchars, hinside⟩ := hl.leads.quoted_cases (hl.kind_eq_quoted_iff.1 hquoted)
  have hlength : l.chars.length = inside.length + 2 := by rw [hchars]; simp
  have hstop := hl.stop_eq
  have hchar : ∀ i, i < inside.length → cs[t.start + 1 + i]? = inside[i]? := by
    intro i hi
    rw [Nat.add_assoc, hl.getElem?_eq (by omega), hchars, Nat.add_comm 1 i, List.cons_append,
      List.getElem?_cons_succ, List.getElem?_append_left hi]
  refine ⟨?_, ?_, t.start + 1 + inside.length, by omega, by omega, ?_, ?_⟩
  · have := hl.getElem?_eq (show 0 < l.chars.length by omega)
    rw [Nat.add_zero, hchars] at this
    exact this
  · intro u hu _ hlt
    exact h.tiles.stop_le hu ht hlt
  · rw [Nat.add_assoc, hl.getElem?_eq (by omega), hchars, Nat.add_comm 1, List.cons_append,
      List.getElem?_cons_succ, List.getElem?_append_right (Nat.le_refl _), Nat.sub_self]
    rfl
  · intro k hstart hlast hmark
    have hi : k - (t.start + 1) < inside.length := by omega
    have hget := hchar (k - (t.start + 1)) hi
    rw [Nat.add_sub_cancel' hstart, hmark] at hget
    exact hinside (List.mem_of_getElem? hget.symm)

/-- A quotation mark is in quotes, or no other one follows. -/
theorem inQuotes_or_last (h : Lexed cs tokens) (hk : cs[k]? = some quoteMark) :
    InQuotes tokens k ∨ ∀ j, k < j → cs[j]? ≠ some quoteMark := by
  obtain ⟨t, ht, l, hl, hspan, hmem⟩ := h.exists_marks hk
  rcases hl.leads.quoteMark_cases hmem with hkind | ⟨hchars, hrest⟩
  · exact Or.inl ⟨t, ht, hl.kind_eq_quoted_iff.2 hkind, hspan⟩
  · right
    intro j hj hmark
    have hstop := hl.stop_eq
    rw [hchars, List.length_singleton] at hstop
    have hget : (cs.drop t.stop)[j - t.stop]? = some quoteMark := by
      rw [List.getElem?_drop, Nat.add_sub_cancel' (by omega), hmark]
    exact hrest (List.mem_of_getElem? hget)

/-- The quoted tokens are what the quotation marks enclose, paired off from the left. -/
theorem stands_quoted_iff (h : Lexed cs tokens) :
    Stands tokens [.quoted] start stop ↔ IsQuotation cs tokens start stop := by
  constructor
  · rintro ⟨t, ht, hmem, rfl, rfl⟩
    exact h.isQuotation ht (List.mem_singleton.1 hmem)
  · intro hquote
    rcases h.inQuotes_or_last hquote.opening with ⟨t, ht, hquoted, hspan⟩ | hnone
    · -- the mark lies in no quoted token that begins earlier, so it is the first character of
      -- its own
      have hstart : t.start = start := by
        by_contra hne
        have := hquote.outside t ht hquoted (by omega)
        omega
      have hstop := (hstart ▸ h.isQuotation ht hquoted).unique hquote
      exact ⟨t, ht, List.mem_singleton.2 hquoted, hstart, hstop⟩
    · obtain ⟨last, -, hlast, hmark, -⟩ := hquote.closing
      exact absurd hmark (hnone last hlast)

/-! ## Symbols -/

/-- The symbols are the characters outside quotes that belong to no run. -/
theorem stands_symbol_iff (h : Lexed cs tokens) :
    Stands tokens [.symbol] start stop ↔
      stop = start + 1 ∧ ¬InQuotes tokens start ∧
        ∃ c, cs[start]? = some c ∧ isBlank c = false ∧ isWordChar c = false := by
  constructor
  · rintro ⟨t, ht, hmem, rfl, rfl⟩
    obtain ⟨l, hl⟩ := h.marks t ht
    have hsymbol := List.mem_singleton.1 hmem
    have hbounds := h.tiles.bounds ht
    have hspan : t.start ≤ t.start ∧ t.start < t.stop := ⟨Nat.le_refl _, hbounds.2.1⟩
    obtain ⟨c, hchars, hblank, hword⟩ :=
      hl.leads.symbol_cases ((hl.kind_mem_iff (by decide)).1 hmem)
    have hstop := hl.stop_eq
    obtain ⟨d, hd, hget⟩ := hl.exists_getElem? hspan
    rw [hchars] at hd hstop
    obtain rfl := List.mem_singleton.1 hd
    refine ⟨hstop, h.not_inQuotes ht ?_ hspan, d, hget, hblank, hword⟩
    rw [hsymbol]
    exact TokenKind.noConfusion
  · rintro ⟨rfl, houtside, c, hget, hblank, hword⟩
    obtain ⟨t, ht, l, hl, hspan, hmem⟩ := h.exists_marks hget
    have hquoted : l.kind ≠ .quoted := fun hkind =>
      houtside ⟨t, ht, hl.kind_eq_quoted_iff.2 hkind, hspan⟩
    have hkind := hl.leads.kind_eq_symbol hquoted hmem hblank hword
    obtain ⟨d, hchars, -⟩ := hl.leads.symbol_cases hkind
    have hstop := hl.stop_eq
    rw [hchars, List.length_singleton] at hstop
    exact ⟨t, ht, (hl.kind_mem_iff (by decide)).2 hkind, by omega, by omega⟩

/-- A quotation mark outside quotes is the last one, and a symbol. -/
theorem lone_quoteMark (h : Lexed cs tokens) (hk : cs[k]? = some quoteMark)
    (houtside : ¬InQuotes tokens k) :
    Stands tokens [.symbol] k (k + 1) ∧ ∀ j, k < j → cs[j]? ≠ some quoteMark :=
  ⟨h.stands_symbol_iff.2 ⟨rfl, houtside, quoteMark, hk, isBlank_quoteMark, isWordChar_quoteMark⟩,
    (h.inQuotes_or_last hk).resolve_left houtside⟩

end Lexed

end Sentential
