import Sentential.Proofs.Lexing

/-!
# Normalized texts

`normalChars` is normalization as a function on texts: every lexeme is replaced by its normal form,
in which a keyword has become a symbol. The lexemes of a normalized text are the normal forms of the
lexemes of the text it comes from (`lexemes_normalChars`), so normalizing twice is the same as
normalizing once (`normalChars_normalChars`). Two texts that lexemes do not go across are normalized
one by one (`normalChars_append`), and they are in normal form exactly if their concatenation is
(`isNormal_append_iff`). This holds of `Solid` texts with a space between them (`normalChars_join`).
-/

namespace Sentential

open Text

/-- A lexeme after normalization: a keyword has become a symbol. -/
def Lexeme.normal (l : Lexeme) : Lexeme :=
  match l.kind with
  | .word =>
      match wordSymbol? l.chars with
      | some s => ⟨.symbol, [s.glyph]⟩
      | none => l
  | _ => l

/-- The normal forms of the lexemes of a text, put together. -/
def normalChars (cs : List Char) : List Char := (lexemes cs).flatMap fun l => l.normal.chars

/-- Normalization leaves the text as it is. -/
def IsNormal (cs : List Char) : Prop := normalChars cs = cs

/-! ## Normal forms of lexemes -/

/-- A lexeme stays as it is unless it is a keyword, which becomes the symbol it stands for. -/
theorem Lexeme.normal_cases (l : Lexeme) :
    l.normal = l ∨
      l.kind = .word ∧ ∃ s, wordSymbol? l.chars = some s ∧ l.normal = ⟨.symbol, [s.glyph]⟩ := by
  obtain ⟨kind, chars⟩ := l
  cases kind with
  | word =>
      cases hword : wordSymbol? chars with
      | none => simp [normal, hword]
      | some s => simp [normal, hword]
  | quoted => exact Or.inl rfl
  | space => exact Or.inl rfl
  | keyword => exact Or.inl rfl
  | symbol => exact Or.inl rfl

theorem Lexeme.normal_of_ne_word {l : Lexeme} (h : l.kind ≠ .word) : l.normal = l := by
  rcases l.normal_cases with hsame | ⟨hkind, -⟩
  · exact hsame
  · exact absurd hkind h

theorem Lexeme.normal_normal (l : Lexeme) : l.normal.normal = l.normal := by
  rcases l.normal_cases with hsame | ⟨-, s, -, hnormal⟩
  · rw [hsame, hsame]
  · rw [hnormal]
    rfl

theorem Lexeme.value_token (start : Nat) (l : Lexeme) : (l.token start).value = l.normal.chars := by
  obtain ⟨kind, chars⟩ := l
  cases kind with
  | word => cases hword : wordSymbol? chars <;> simp only [token, normal, hword]
  | quoted => rfl
  | space => rfl
  | keyword => rfl
  | symbol => rfl

theorem flatMap_value_tokensFrom (ls : List Lexeme) (start : Nat) :
    (tokensFrom start ls).flatMap Token.value = ls.flatMap fun l => l.normal.chars := by
  induction ls generalizing start with
  | nil => rfl
  | cons l rest ih => rw [tokensFrom, List.flatMap_cons, List.flatMap_cons, l.value_token, ih]

theorem toList_normalizedText (s : String) : (normalizedText s).toList = normalChars s.toList := by
  rw [normalizedText, tokenText, String.toList_ofList, tokensOf, flatMap_value_tokensFrom,
    normalChars]

theorem normalizedText_eq_self_iff {s : String} : normalizedText s = s ↔ IsNormal s.toList := by
  rw [IsNormal, ← toList_normalizedText]
  exact String.toList_inj.symm

/-! ## Normalizing lexeme by lexeme -/

theorem normalChars_nil : normalChars [] = [] := by
  rw [normalChars, lexemes, List.flatMap_nil]

theorem normalChars_of_leads {l : Lexeme} {rest : List Char} (h : Leads l rest) :
    normalChars (l.chars ++ rest) = l.normal.chars ++ normalChars rest := by
  rw [normalChars, lexemes_of_leads h, List.flatMap_cons, normalChars]

theorem isWordChar_glyph (s : Symbol) : isWordChar s.glyph = false := by
  have h : ∀ s ∈ Symbol.all, isWordChar s.glyph = false := by decide +kernel
  exact h s s.mem_all

/-- Normalization brings in glyphs only. -/
theorem mem_normalChars {c : Char} {cs : List Char} (h : c ∈ normalChars cs) :
    c ∈ cs ∨ ∃ s : Symbol, c = s.glyph := by
  obtain ⟨l, hl, hc⟩ := List.mem_flatMap.1 h
  rcases l.normal_cases with hsame | ⟨-, s, -, hnormal⟩
  · rw [hsame] at hc
    refine Or.inl ?_
    rw [← flatten_lexemes cs]
    exact List.mem_flatMap.2 ⟨l, hl, hc⟩
  · rw [hnormal] at hc
    exact Or.inr ⟨s, List.mem_singleton.1 hc⟩

/-- Normalization brings no character of a class to the front of a text, unless a glyph is in the
class. -/
theorem startsOutside_normalChars {p : Char → Bool} (hp : ∀ s : Symbol, p s.glyph = false)
    {cs : List Char} (h : StartsOutside p cs) : StartsOutside p (normalChars cs) := by
  cases cs with
  | nil =>
      rw [normalChars_nil]
      exact h
  | cons c cs =>
      obtain ⟨l, rest, hsplit, hl⟩ := exists_leads c cs
      obtain ⟨d, ds, hchars, -⟩ := firstLexeme_of_leads hl
      rw [hsplit] at h ⊢
      rw [normalChars_of_leads hl]
      rcases l.normal_cases with hsame | ⟨-, s, -, hnormal⟩
      · rw [hsame, hchars]
        rw [hchars] at h
        exact h
      · rw [hnormal]
        exact startsOutside_cons (hp s) _

/-- The normal form of a leading lexeme leads the normalized rest. -/
theorem Leads.normal {l : Lexeme} {rest : List Char} (h : Leads l rest) :
    Leads l.normal (normalChars rest) := by
  rcases l.normal_cases with hsame | ⟨-, s, -, hnormal⟩
  · rw [hsame]
    cases h with
    | quoted h => exact .quoted h
    | loneQuote h =>
        apply Leads.loneQuote
        intro hmem
        rcases mem_normalChars hmem with hrest | ⟨s, hs⟩
        · exact h hrest
        · exact glyph_ne_quoteMark s hs.symm
    | space hcs hrest => exact .space hcs (startsOutside_normalChars isBlank_glyph hrest)
    | word hcs hrest => exact .word hcs (startsOutside_normalChars isWordChar_glyph hrest)
    | symbol hquote hblank hword => exact .symbol hquote hblank hword
  · -- a glyph is a lexeme by itself, whatever follows
    rw [hnormal]
    exact .symbol (glyph_ne_quoteMark s) (isBlank_glyph s) (isWordChar_glyph s)

/-- Normalization changes keywords to symbols and nothing else about the lexemes of a text. -/
theorem lexemes_normalChars (cs : List Char) :
    lexemes (normalChars cs) = (lexemes cs).map Lexeme.normal := by
  induction cs using lexing_induction with
  | nil => rw [normalChars_nil, lexemes, List.map_nil]
  | step l rest hl ih =>
      rw [normalChars_of_leads hl, lexemes_of_leads hl.normal, lexemes_of_leads hl, List.map_cons,
        ih]

theorem normalChars_normalChars (cs : List Char) :
    normalChars (normalChars cs) = normalChars cs := by
  rw [normalChars, lexemes_normalChars, List.flatMap_map]
  simp only [Lexeme.normal_normal]
  rfl

/-- A normalized text is in normal form. -/
theorem isNormal_normalizedText (s : String) : IsNormal (normalizedText s).toList := by
  rw [IsNormal, toList_normalizedText, normalChars_normalChars]

/-! ## Normalizing two texts -/

theorem length_normalChars_le (cs : List Char) : (normalChars cs).length ≤ cs.length := by
  induction cs using lexing_induction with
  | nil => rw [normalChars_nil]
  | step l rest hl ih =>
      have hl' : l.normal.chars.length ≤ l.chars.length := by
        rcases l.normal_cases with hsame | ⟨-, s, -, hnormal⟩
        · rw [hsame]
        · rw [hnormal]
          exact hl.length_pos
      rw [normalChars_of_leads hl, List.length_append, List.length_append]
      exact Nat.add_le_add hl' ih

section Append

variable {as bs : List Char}

theorem normalChars_append (hpaired : QuotesPaired as) (hsep : Separate as bs) :
    normalChars (as ++ bs) = normalChars as ++ normalChars bs := by
  rw [normalChars, lexemes_append hpaired hsep, List.flatMap_append]
  rfl

/-- Both texts are in normal form exactly if their concatenation is, since normalization never makes
a text longer. -/
theorem isNormal_append_iff (hpaired : QuotesPaired as) (hsep : Separate as bs) :
    IsNormal (as ++ bs) ↔ IsNormal as ∧ IsNormal bs := by
  rw [IsNormal, normalChars_append hpaired hsep]
  constructor
  · intro h
    have hlength := congrArg List.length h
    rw [List.length_append, List.length_append] at hlength
    -- neither part has become longer, so neither has become shorter
    have has := length_normalChars_le as
    have hbs := length_normalChars_le bs
    exact List.append_inj h (by omega)
  · rintro ⟨has, hbs⟩
    rw [has, hbs]

end Append

/-- A text of blanks, or of one character that is no word character, is in normal form. -/
theorem isNormal_of_forall_not_word {cs : List Char} (h : ∀ c ∈ cs, isWordChar c = false) :
    IsNormal cs := by
  induction cs using lexing_induction with
  | nil => exact normalChars_nil
  | step l rest hl ih =>
      have hsame : l.normal = l := by
        apply Lexeme.normal_of_ne_word
        intro hkind
        cases hl with
        | @word c cs _ hcs _ =>
            have := h c (List.mem_append_left _ List.mem_cons_self)
            rw [hcs c List.mem_cons_self] at this
            exact Bool.noConfusion this
        | quoted => cases hkind
        | loneQuote => cases hkind
        | space => cases hkind
        | symbol => cases hkind
      rw [IsNormal, normalChars_of_leads hl, hsame, ih fun c hc => h c (List.mem_append_right _ hc)]

/-! ## Texts that keep to themselves -/

/-- A text that joins with no other: its ends are visible and its quotation marks are paired. -/
structure Solid (cs : List Char) : Prop where
  nonempty : cs ≠ []
  trimmed : Trimmed cs
  paired : QuotesPaired cs

theorem solid_singleton {c : Char} (hblank : isBlank c = false) (hquote : c ≠ quoteMark) :
    Solid [c] where
  nonempty := List.cons_ne_nil c []
  trimmed := trimmed_singleton hblank
  paired := quotesPaired_of_not_mem fun h => hquote (List.mem_singleton.1 h).symm

/-- The ends of solid texts with something between them. -/
theorem Solid.between {as bs : List Char} (ha : Solid as) {mid : List Char}
    (hmid : QuotesPaired mid) (hb : Solid bs) : Solid (as ++ mid ++ bs) where
  nonempty h := ha.nonempty (List.append_eq_nil_iff.1 (List.append_eq_nil_iff.1 h).1).1
  trimmed := by
    obtain ⟨first, as', rfl⟩ := List.exists_cons_of_ne_nil ha.nonempty
    refine ⟨ha.trimmed.1, ?_⟩
    intro c hc
    apply hb.trimmed.2 c
    rw [List.getLast?_append, List.getLast?_eq_some_getLast hb.nonempty] at hc
    rw [List.getLast?_eq_some_getLast hb.nonempty]
    exact hc
  paired := (ha.paired.append hmid).append hb.paired

/-- Parentheses make a solid text of a text with paired quotation marks. -/
theorem Solid.parens {cs : List Char} (h : QuotesPaired cs) :
    Solid (openParen :: cs ++ [closeParen]) :=
  (solid_singleton isBlank_openParen (by decide)).between h
    (solid_singleton isBlank_closeParen (by decide))

theorem separate_blanks {pre bs : List Char} (hpre : isAllBlank pre = true)
    (hbs : StartsOutside isBlank bs) : Separate pre bs := by
  intro a ha b hb
  have hblank : isBlank a = true := isAllBlank_iff.1 hpre a (List.mem_of_getLast? ha)
  constructor
  · intro _
    exact hbs b hb
  · intro hword
    rw [isWordChar_of_isBlank hblank] at hword
    exact Bool.noConfusion hword

/-- Whatever begins with a blank is separate from a trimmed text before it. -/
theorem separate_of_blank_head {as bs : List Char} (has : Trimmed as)
    (hbs : ∀ b ∈ bs.head?, isBlank b = true) : Separate as bs := by
  intro a ha b hb
  constructor
  · intro hblank
    rw [has.2 a ha] at hblank
    exact Bool.noConfusion hblank
  · intro _
    exact isWordChar_of_isBlank (hbs b hb)

/-- A character that is a lexeme by itself separates. -/
theorem separate_symbol {c : Char} (hblank : isBlank c = false) (hword : isWordChar c = false)
    (as bs : List Char) : Separate as (c :: bs) := by
  intro a _ b hb
  rw [← Option.some.inj hb]
  exact ⟨fun _ => hblank, fun _ => hword⟩

theorem separate_glyph (s : Symbol) (as bs : List Char) : Separate as (s.glyph :: bs) :=
  separate_symbol (isBlank_glyph s) (isWordChar_glyph s) as bs

theorem quotesPaired_of_isAllBlank {cs : List Char} (h : isAllBlank cs = true) : QuotesPaired cs :=
  quotesPaired_of_not_mem (quoteMark_not_mem_of_blanks (isAllBlank_iff.1 h))

theorem isNormal_of_isAllBlank {cs : List Char} (h : isAllBlank cs = true) : IsNormal cs :=
  isNormal_of_forall_not_word fun c hc => isWordChar_of_isBlank (isAllBlank_iff.1 h c hc)

theorem normalChars_cons {c : Char} (hquote : c ≠ quoteMark) (hblank : isBlank c = false)
    (hword : isWordChar c = false) (cs : List Char) : normalChars (c :: cs) = c :: normalChars cs :=
  normalChars_of_leads (.symbol hquote hblank hword)

theorem normalChars_glyph (s : Symbol) (cs : List Char) :
    normalChars (s.glyph :: cs) = s.glyph :: normalChars cs :=
  normalChars_cons (glyph_ne_quoteMark s) (isBlank_glyph s) (isWordChar_glyph s) cs

theorem isNormal_glyph_iff (s : Symbol) (cs : List Char) :
    IsNormal (s.glyph :: cs) ↔ IsNormal cs := by
  rw [IsNormal, normalChars_glyph, List.cons.injEq]
  exact and_iff_right rfl

theorem normalChars_open (cs : List Char) :
    normalChars (openParen :: cs) = openParen :: normalChars cs :=
  normalChars_cons (by decide) isBlank_openParen (by decide +kernel) cs

/-- A closing parenthesis at the end stays. -/
theorem normalChars_append_close {cs : List Char} (h : QuotesPaired cs) :
    normalChars (cs ++ [closeParen]) = normalChars cs ++ [closeParen] := by
  have hword : isWordChar closeParen = false := by decide +kernel
  rw [normalChars_append h (separate_symbol isBlank_closeParen hword cs []),
    normalChars_cons (by decide) isBlank_closeParen hword, normalChars_nil]

/-- Solid texts with a space between them are normalized one by one. -/
theorem normalChars_join {as bs : List Char} (ha : Solid as) (hb : Trimmed bs) :
    normalChars (as ++ ' ' :: bs) = normalChars as ++ ' ' :: normalChars bs := by
  have hnormal : normalChars [' '] = [' '] := isNormal_of_isAllBlank isAllBlank_space
  have hsep : Separate as (' ' :: bs) := by
    apply separate_of_blank_head ha.trimmed
    intro b hb
    rw [← Option.some.inj hb]
    exact isAllBlank_iff.1 isAllBlank_space ' ' List.mem_cons_self
  rw [normalChars_append ha.paired hsep, show ' ' :: bs = [' '] ++ bs from rfl,
    normalChars_append (quotesPaired_of_isAllBlank isAllBlank_space)
      (separate_blanks isAllBlank_space hb.1), hnormal, List.singleton_append]

theorem isNormal_blank_append_iff {pre bs : List Char} (hpre : isAllBlank pre = true)
    (hbs : StartsOutside isBlank bs) : IsNormal (pre ++ bs) ↔ IsNormal bs := by
  rw [isNormal_append_iff (quotesPaired_of_isAllBlank hpre) (separate_blanks hpre hbs)]
  exact and_iff_right (isNormal_of_isAllBlank hpre)

theorem isNormal_append_blank_iff {as post : List Char} (has : Solid as)
    (hpost : isAllBlank post = true) : IsNormal (as ++ post) ↔ IsNormal as := by
  have hhead : ∀ b ∈ post.head?, isBlank b = true := by
    intro b hb
    exact isAllBlank_iff.1 hpost b (List.mem_of_head? hb)
  rw [isNormal_append_iff has.paired (separate_of_blank_head has.trimmed hhead)]
  exact and_iff_left (isNormal_of_isAllBlank hpost)

end Sentential
