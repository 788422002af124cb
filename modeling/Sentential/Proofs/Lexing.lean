import Sentential.Formula.Token
import Sentential.Proofs.Trimming
import Mathlib.Data.List.TakeWhile

/-!
# Lexemes of texts put together

`Leads l rest` says that the lexeme `l` is the first one of a text that goes on with `rest`. Every
text that is not empty has such a lexeme (`exists_leads`), so that a fact about the lexemes of all
texts is proved lexeme by lexeme (`lexing_induction`). If the quotation marks of a text are paired
and no run goes on across its end, the lexemes of the text stay as they are when another text
follows (`lexemes_append`).
-/

namespace Sentential

open Text

/-- The text does not begin with a character of the class. -/
def StartsOutside (p : Char → Bool) (cs : List Char) : Prop := ∀ c ∈ cs.head?, p c = false

/-- The lexeme is the first one of its text and what follows. -/
inductive Leads : Lexeme → List Char → Prop
  | quoted {inside rest : List Char} (h : quoteMark ∉ inside) :
      Leads ⟨.quoted, quoteMark :: inside ++ [quoteMark]⟩ rest
  | loneQuote {rest : List Char} (h : quoteMark ∉ rest) : Leads ⟨.symbol, [quoteMark]⟩ rest
  | space {c : Char} {cs rest : List Char} (hcs : ∀ d ∈ c :: cs, isBlank d = true)
      (hrest : StartsOutside isBlank rest) : Leads ⟨.space, c :: cs⟩ rest
  | word {c : Char} {cs rest : List Char} (hcs : ∀ d ∈ c :: cs, isWordChar d = true)
      (hrest : StartsOutside isWordChar rest) : Leads ⟨.word, c :: cs⟩ rest
  | symbol {c : Char} {rest : List Char} (hquote : c ≠ quoteMark) (hblank : isBlank c = false)
      (hword : isWordChar c = false) : Leads ⟨.symbol, [c]⟩ rest

/-! ## The first lexeme -/

theorem startsOutside_cons {p : Char → Bool} {c : Char} (hc : p c = false) (cs : List Char) :
    StartsOutside p (c :: cs) := by
  intro d hd
  rw [← Option.some.inj hd]
  exact hc

theorem takeWhile_append_of_startsOutside {p : Char → Bool} {cs rest : List Char}
    (hcs : ∀ c ∈ cs, p c = true) (hrest : StartsOutside p rest) :
    (cs ++ rest).takeWhile p = cs := by
  rw [List.takeWhile_append_of_pos hcs]
  cases rest with
  | nil => exact List.append_nil cs
  | cons c rest =>
      have hc : p c = false := hrest c rfl
      rw [List.takeWhile_cons_of_neg (by simp [hc]), List.append_nil]

theorem exists_takeWhile_append (p : Char → Bool) (cs : List Char) :
    ∃ rest, cs = cs.takeWhile p ++ rest ∧ StartsOutside p rest := by
  refine ⟨cs.dropWhile p, List.takeWhile_append_dropWhile.symm, ?_⟩
  intro c hc
  have := List.head?_dropWhile_not p cs
  rw [hc] at this
  simpa using this

theorem isWordChar_quoteMark : isWordChar quoteMark = false := by decide +kernel

theorem quoteMark_not_mem_of_words {cs : List Char} (h : ∀ c ∈ cs, isWordChar c = true) :
    quoteMark ∉ cs := by
  intro hmem
  have hword := h quoteMark hmem
  rw [isWordChar_quoteMark] at hword
  exact Bool.false_ne_true hword

theorem quoteMark_not_mem_of_blanks {cs : List Char} (h : ∀ c ∈ cs, isBlank c = true) :
    quoteMark ∉ cs := by
  intro hmem
  exact ne_of_isBlank (h quoteMark hmem) isBlank_quoteMark rfl

theorem isWordChar_of_isBlank {c : Char} (h : isBlank c = true) : isWordChar c = false := by
  rw [← Bool.not_eq_true]
  intro hword
  rw [isBlank_of_isWordChar hword] at h
  exact Bool.noConfusion h

theorem firstLexeme_of_leads {l : Lexeme} {rest : List Char} (h : Leads l rest) :
    ∃ c cs, l.chars = c :: cs ∧ firstLexeme c (cs ++ rest) = l := by
  cases h with
  | @quoted inside _ h =>
      refine ⟨quoteMark, inside ++ [quoteMark], rfl, ?_⟩
      have hinside : (inside ++ ([quoteMark] ++ rest)).takeWhile (· ≠ quoteMark) = inside := by
        apply takeWhile_append_of_startsOutside
        · intro c hc
          exact decide_eq_true fun heq => h (heq ▸ hc)
        · exact startsOutside_cons (decide_eq_false fun hne => hne rfl) rest
      rw [List.append_assoc]
      simp only [firstLexeme, if_true, hinside]
      rw [if_pos (by simp)]
  | loneQuote h =>
      refine ⟨quoteMark, [], rfl, ?_⟩
      have hrest : rest.takeWhile (· ≠ quoteMark) = rest :=
        List.takeWhile_eq_self_iff.2 fun c hc => decide_eq_true fun heq => h (heq ▸ hc)
      simp only [firstLexeme, if_true, List.nil_append, hrest]
      rw [if_neg (Nat.lt_irrefl _)]
  | @space c cs _ hcs hrest =>
      have hc := hcs c List.mem_cons_self
      refine ⟨c, cs, rfl, ?_⟩
      rw [firstLexeme, if_neg (ne_of_isBlank hc isBlank_quoteMark), if_pos hc,
        takeWhile_append_of_startsOutside (fun d hd => hcs d (List.mem_cons_of_mem c hd)) hrest]
  | @word c cs _ hcs hrest =>
      have hc := hcs c List.mem_cons_self
      have hquote : c ≠ quoteMark := by
        rintro rfl
        exact quoteMark_not_mem_of_words hcs List.mem_cons_self
      refine ⟨c, cs, rfl, ?_⟩
      rw [firstLexeme, if_neg hquote, isBlank_of_isWordChar hc, if_neg Bool.false_ne_true,
        if_pos hc,
        takeWhile_append_of_startsOutside (fun d hd => hcs d (List.mem_cons_of_mem c hd)) hrest]
  | @symbol c _ hquote hblank hword =>
      refine ⟨c, [], rfl, ?_⟩
      rw [firstLexeme, if_neg hquote, hblank, if_neg Bool.false_ne_true, hword,
        if_neg Bool.false_ne_true]

theorem Leads.length_pos {l : Lexeme} {rest : List Char} (h : Leads l rest) :
    0 < l.chars.length := by
  obtain ⟨c, cs, hchars, -⟩ := firstLexeme_of_leads h
  rw [hchars]
  exact Nat.succ_pos _

/-- A leading lexeme is split off. -/
theorem lexemes_of_leads {l : Lexeme} {rest : List Char} (h : Leads l rest) :
    lexemes (l.chars ++ rest) = l :: lexemes rest := by
  obtain ⟨c, cs, hchars, hfirst⟩ := firstLexeme_of_leads h
  rw [hchars, List.cons_append, lexemes]
  simp only [hfirst]
  rw [hchars, List.length_cons, Nat.add_sub_cancel, List.drop_left]

/-- A text that is not empty begins with a lexeme. -/
theorem exists_leads (c : Char) (rest : List Char) :
    ∃ l after, c :: rest = l.chars ++ after ∧ Leads l after := by
  by_cases hquote : c = quoteMark
  · subst hquote
    -- only with a partner does the quotation mark open a quoted name
    by_cases hmem : quoteMark ∈ rest
    · -- the quoted name ends at the next quotation mark
      obtain ⟨inside, after, rfl, hinside⟩ := List.eq_append_cons_of_mem hmem
      exact ⟨_, after, by simp, .quoted hinside⟩
    · exact ⟨_, rest, rfl, .loneQuote hmem⟩
  · cases hblank : isBlank c with
    | true =>
        obtain ⟨after, hsplit, hafter⟩ := exists_takeWhile_append isBlank rest
        refine ⟨⟨.space, c :: rest.takeWhile isBlank⟩, after, congrArg (c :: ·) hsplit, ?_⟩
        apply Leads.space _ hafter
        intro d hd
        rcases List.mem_cons.1 hd with rfl | hd
        · exact hblank
        · exact List.mem_takeWhile_imp hd
    | false =>
        cases hword : isWordChar c with
        | true =>
            obtain ⟨after, hsplit, hafter⟩ := exists_takeWhile_append isWordChar rest
            refine ⟨⟨.word, c :: rest.takeWhile isWordChar⟩, after, congrArg (c :: ·) hsplit, ?_⟩
            apply Leads.word _ hafter
            intro d hd
            rcases List.mem_cons.1 hd with rfl | hd
            · exact hword
            · exact List.mem_takeWhile_imp hd
        | false => exact ⟨⟨.symbol, [c]⟩, rest, rfl, .symbol hquote hblank hword⟩

/-- What holds of the empty text, and of a lexeme and what follows if it holds of what follows,
holds of every text. The recursion ends because lexemes are not empty. -/
theorem lexing_induction {motive : List Char → Prop} (nil : motive [])
    (step : ∀ l rest, Leads l rest → motive rest → motive (l.chars ++ rest)) (cs : List Char) :
    motive cs := by
  cases cs with
  | nil => exact nil
  | cons c rest =>
      obtain ⟨l, after, hsplit, hl⟩ := exists_leads c rest
      have hpos := hl.length_pos
      rw [hsplit]
      exact step l after hl (lexing_induction nil step after)
termination_by cs.length
decreasing_by rw [hsplit, List.length_append]; omega

/-- A lexeme of a text leads its own characters, which are characters of the text. -/
theorem leads_of_mem_lexemes {l : Lexeme} {cs : List Char} (h : l ∈ lexemes cs) :
    ∃ rest, Leads l rest ∧ ∀ c ∈ l.chars, c ∈ cs := by
  induction cs using lexing_induction with
  | nil =>
      rw [lexemes] at h
      exact absurd h List.not_mem_nil
  | step first rest hfirst ih =>
      rw [lexemes_of_leads hfirst] at h
      rcases List.mem_cons.1 h with rfl | h
      · exact ⟨rest, hfirst, fun c hc => List.mem_append_left _ hc⟩
      · obtain ⟨after, hlead, hmem⟩ := ih h
        exact ⟨after, hlead, fun c hc => List.mem_append_right _ (hmem c hc)⟩

/-! ## Lexemes of two texts -/

/-- The quotation marks of a text can be paired off. -/
def QuotesPaired (cs : List Char) : Prop := cs.count quoteMark % 2 = 0

/-- No run of blanks and no run of word characters goes on from one text to the next. -/
def Separate (as bs : List Char) : Prop :=
  ∀ a ∈ as.getLast?, ∀ b ∈ bs.head?,
    (isBlank a = true → isBlank b = false) ∧ (isWordChar a = true → isWordChar b = false)

theorem QuotesPaired.append {as bs : List Char} (ha : QuotesPaired as) (hb : QuotesPaired bs) :
    QuotesPaired (as ++ bs) := by
  simp only [QuotesPaired, List.count_append] at ha hb ⊢
  omega

theorem quotesPaired_of_not_mem {cs : List Char} (h : quoteMark ∉ cs) : QuotesPaired cs := by
  rw [QuotesPaired, List.count_eq_zero_of_not_mem h]

theorem quotesPaired_quoted {inside : List Char} (h : quoteMark ∉ inside) :
    QuotesPaired (quoteMark :: inside ++ [quoteMark]) := by
  simp [QuotesPaired, List.count_append, List.count_eq_zero_of_not_mem h]

theorem not_quotesPaired_of_lone {rest : List Char} (h : quoteMark ∉ rest) :
    ¬QuotesPaired (quoteMark :: rest) := by
  simp [QuotesPaired, List.count_eq_zero_of_not_mem h]

theorem QuotesPaired.of_append {as bs : List Char} (h : QuotesPaired (as ++ bs))
    (ha : QuotesPaired as) : QuotesPaired bs := by
  simp only [QuotesPaired, List.count_append] at ha h ⊢
  omega

theorem Separate.of_append {as bs cs : List Char} (h : Separate (as ++ bs) cs) :
    Separate bs cs := by
  intro b hb
  refine h b ?_
  rw [List.getLast?_append, Option.mem_def.1 hb]
  rfl

/-- A run that ends where a text ends is not carried on by the next text. -/
theorem startsOutside_append {p : Char → Bool} {as bs : List Char} (ha : StartsOutside p as)
    (hb : as = [] → StartsOutside p bs) : StartsOutside p (as ++ bs) := by
  cases as with
  | nil => exact hb rfl
  | cons a as => exact ha

/-- Paired lexemes stay what they are when a separate text follows. -/
theorem Leads.append {l : Lexeme} {rest bs : List Char} (h : Leads l rest)
    (hpaired : QuotesPaired (l.chars ++ rest)) (hsep : Separate (l.chars ++ rest) bs) :
    Leads l (rest ++ bs) ∧ QuotesPaired l.chars := by
  have hlast {c : Char} {cs : List Char} (hchars : l.chars = c :: cs) (hnil : rest = []) :
      ∃ d ∈ c :: cs, ∀ b ∈ bs.head?,
        (isBlank d = true → isBlank b = false) ∧ (isWordChar d = true → isWordChar b = false) := by
    rw [hnil, List.append_nil, hchars] at hsep
    exact ⟨(c :: cs).getLast (List.cons_ne_nil c cs), List.getLast_mem _,
      hsep _ (List.getLast?_eq_some_getLast (List.cons_ne_nil c cs))⟩
  cases h with
  | quoted h => exact ⟨.quoted h, quotesPaired_quoted h⟩
  -- a quotation mark without a partner could find one in the text that follows
  | loneQuote h => exact absurd hpaired (not_quotesPaired_of_lone h)
  -- a run that reaches the end of the text would go on, were the texts not separate
  | space hcs hrest =>
      refine ⟨.space hcs (startsOutside_append hrest ?_), ?_⟩
      · intro hnil b hb
        obtain ⟨d, hd, hsep⟩ := hlast rfl hnil
        exact (hsep b hb).1 (hcs d hd)
      · exact quotesPaired_of_not_mem (quoteMark_not_mem_of_blanks hcs)
  | word hcs hrest =>
      refine ⟨.word hcs (startsOutside_append hrest ?_), ?_⟩
      · intro hnil b hb
        obtain ⟨d, hd, hsep⟩ := hlast rfl hnil
        exact (hsep b hb).2 (hcs d hd)
      · exact quotesPaired_of_not_mem (quoteMark_not_mem_of_words hcs)
  | symbol hquote hblank hword =>
      refine ⟨.symbol hquote hblank hword, quotesPaired_of_not_mem ?_⟩
      intro hq
      exact hquote (List.mem_singleton.1 hq).symm

/-- The lexemes of a text with paired quotation marks and of a separate text after it. -/
theorem lexemes_append {as bs : List Char} (hpaired : QuotesPaired as) (hsep : Separate as bs) :
    lexemes (as ++ bs) = lexemes as ++ lexemes bs := by
  induction as using lexing_induction with
  | nil => rw [lexemes, List.nil_append, List.nil_append]
  | step l rest hl ih =>
      obtain ⟨hlead, hchars⟩ := hl.append hpaired hsep
      rw [List.append_assoc, lexemes_of_leads hlead, lexemes_of_leads hl,
        ih (hpaired.of_append hchars) hsep.of_append, List.cons_append]

end Sentential
