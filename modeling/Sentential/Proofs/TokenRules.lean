import Sentential.Proofs.Lexing

/-!
# The rules of the lexer

A line is cut by four rules: quoted names, runs of blanks, runs of word characters, and single
characters other than a line feed. At each place the first rule that applies there takes as many
characters as it can (`TokenRule.Takes`), and `Cuts` says into which tokens a text is cut in this
way. At the front of every text some rule applies, since a line feed is a blank (`Leads.takes`), and
the rules leave no choice (`TokenRule.Takes.unique`). The tokens of the lexemes of a text are
therefore the only ones that the rules cut it into (`cuts_iff`).
-/

namespace Sentential

open Text

/-- The rules by which a line is cut. -/
inductive TokenRule where
  | quoted
  | space
  | word
  | symbol
  deriving DecidableEq

namespace TokenRule

/-- The place of a rule in the order in which the rules are tried. -/
def rank : TokenRule → Nat
  | .quoted => 0
  | .space => 1
  | .word => 2
  | .symbol => 3

theorem rank_injective {rule other : TokenRule} : rule.rank = other.rank → rule = other := by
  cases rule <;> cases other <;> decide

/-- The class of the lexemes that a rule cuts off. -/
def kind : TokenRule → TokenKind
  | .quoted => .quoted
  | .space => .space
  | .word => .word
  | .symbol => .symbol

/-- The texts that a rule accepts. -/
def Accepts : TokenRule → List Char → Prop
  | .quoted, cs => ∃ inside, quoteMark ∉ inside ∧ cs = quoteMark :: inside ++ [quoteMark]
  | .space, cs => cs ≠ [] ∧ ∀ c ∈ cs, isBlank c = true
  | .word, cs => cs ≠ [] ∧ ∀ c ∈ cs, isWordChar c = true
  | .symbol, cs => ∃ c, c ≠ '\n' ∧ cs = [c]

/-- The rule takes the text and leaves the rest: it accepts the text, it accepts no longer part of
what stands there, and no rule that is tried before it accepts any. -/
structure Takes (rule : TokenRule) (text rest : List Char) : Prop where
  accepts : rule.Accepts text
  longest : ∀ part, part <+: text ++ rest → rule.Accepts part → part.length ≤ text.length
  first : ∀ earlier : TokenRule, earlier.rank < rule.rank →
    ∀ part, part <+: text ++ rest → ¬earlier.Accepts part

end TokenRule

/-- The rules cut a text, which begins at the position `start`, into the tokens. -/
inductive Cuts : Nat → List Char → List Token → Prop
  | done (start : Nat) : Cuts start [] []
  | step {start : Nat} {rule : TokenRule} {text rest : List Char} {tokens : List Token}
      (h : rule.Takes text rest) (hrest : Cuts (start + text.length) rest tokens) :
      Cuts start (text ++ rest) (Lexeme.token start ⟨rule.kind, text⟩ :: tokens)

/-! ## Some rule applies -/

namespace TokenRule

/-- The characters with which a text that the rule accepts can begin. -/
def Begins : TokenRule → Char → Prop
  | .quoted, c => c = quoteMark
  | .space, c => isBlank c = true
  | .word, c => isWordChar c = true
  | .symbol, c => c ≠ '\n'

/-- A text that a rule accepts is not empty, and its first character is one with which such texts
begin. -/
theorem Accepts.exists_head {rule : TokenRule} {cs : List Char} (h : rule.Accepts cs) :
    ∃ c rest, cs = c :: rest ∧ rule.Begins c := by
  cases rule with
  | quoted =>
      obtain ⟨inside, -, rfl⟩ := h
      exact ⟨quoteMark, inside ++ [quoteMark], rfl, rfl⟩
  | space =>
      obtain ⟨c, rest, rfl⟩ := List.exists_cons_of_ne_nil h.1
      exact ⟨c, rest, rfl, h.2 c List.mem_cons_self⟩
  | word =>
      obtain ⟨c, rest, rfl⟩ := List.exists_cons_of_ne_nil h.1
      exact ⟨c, rest, rfl, h.2 c List.mem_cons_self⟩
  | symbol =>
      obtain ⟨c, hc, rfl⟩ := h
      exact ⟨c, [], rfl, hc⟩

/-- A rule whose texts do not begin with the first character accepts no part of the text. -/
theorem not_accepts_of_not_begins {rule : TokenRule} {c : Char} {cs part : List Char}
    (hc : ¬rule.Begins c) (hpart : part <+: c :: cs) : ¬rule.Accepts part := by
  intro h
  obtain ⟨first, rest, rfl, hfirst⟩ := h.exists_head
  obtain ⟨rfl, -⟩ := List.cons_prefix_cons.1 hpart
  exact hc hfirst

/-- A rule takes what it accepts and cannot extend, if no earlier rule's texts begin with the first
character. -/
theorem Takes.of_begins {rule : TokenRule} {c : Char} {cs rest : List Char}
    (haccepts : rule.Accepts (c :: cs))
    (hlongest : ∀ part, part <+: c :: cs ++ rest → rule.Accepts part →
      part.length ≤ (c :: cs).length)
    (hfirst : ∀ earlier : TokenRule, earlier.rank < rule.rank → ¬earlier.Begins c) :
    rule.Takes (c :: cs) rest :=
  ⟨haccepts, hlongest,
    fun earlier hrank _ hpart => not_accepts_of_not_begins (hfirst earlier hrank) hpart⟩

/-- What the symbol rule accepts cannot be extended. -/
theorem length_le_one_of_symbol {part : List Char} (h : symbol.Accepts part) : part.length ≤ 1 := by
  obtain ⟨c, -, rfl⟩ := h
  exact Nat.le_refl 1

end TokenRule

/-- A run is the longest part of its class. -/
theorem length_le_of_run {p : Char → Bool} {text rest part : List Char}
    (htext : ∀ c ∈ text, p c = true) (hrest : StartsOutside p rest) (hfront : part <+: text ++ rest)
    (hpart : ∀ c ∈ part, p c = true) :
    part.length ≤ text.length := by
  obtain ⟨after, hafter⟩ := hfront
  -- the run at the front of the whole text is `text`, and it begins with `part`
  have hrun : (text ++ rest).takeWhile p = text := takeWhile_append_of_startsOutside htext hrest
  rw [← hafter, List.takeWhile_append_of_pos hpart] at hrun
  rw [← hrun, List.length_append]
  exact Nat.le_add_right _ _

/-- A quoted name ends at the first quotation mark after it. -/
theorem inside_eq_of_quoted {inside part rest : List Char} (hinside : quoteMark ∉ inside)
    (hpart : quoteMark ∉ part)
    (hfront : quoteMark :: part ++ [quoteMark] <+: quoteMark :: inside ++ [quoteMark] ++ rest) :
    part = inside := by
  have hsplit {cs : List Char} (hcs : quoteMark ∉ cs) (after : List Char) :
      (cs ++ quoteMark :: after).takeWhile (· ≠ quoteMark) = cs := by
    apply takeWhile_append_of_startsOutside
    · intro c hc
      exact decide_eq_true fun heq => hcs (heq ▸ hc)
    · exact startsOutside_cons (decide_eq_false fun hne => hne rfl) after
  obtain ⟨after, hafter⟩ := hfront
  have heq : part ++ quoteMark :: after = inside ++ quoteMark :: rest := by simpa using hafter
  rw [← hsplit hpart after, heq, hsplit hinside rest]

/-- A character that is in no run begins neither blanks nor a word. -/
theorem TokenRule.not_begins_run {c : Char} (hblank : isBlank c = false)
    (hword : isWordChar c = false) :
    ¬space.Begins c ∧ ¬word.Begins c := by
  rw [Begins, Begins, hblank, hword]
  exact ⟨Bool.false_ne_true, Bool.false_ne_true⟩

/-- A leading lexeme is what a rule takes, and the rule is that of its class. -/
theorem Leads.takes {l : Lexeme} {rest : List Char} (h : Leads l rest) :
    ∃ rule : TokenRule, rule.kind = l.kind ∧ rule.Takes l.chars rest := by
  cases h with
  | @quoted inside _ h =>
      refine ⟨.quoted, rfl, .of_begins ⟨inside, h, rfl⟩ ?_ ?_⟩
      · rintro part hfront ⟨name, hname, rfl⟩
        rw [inside_eq_of_quoted h hname hfront]
        exact Nat.le_refl _
      · exact fun earlier hrank => absurd hrank (Nat.not_lt_zero _)
  | loneQuote h =>
      refine ⟨.symbol, rfl, ⟨quoteMark, by decide, rfl⟩,
        fun part _ => TokenRule.length_le_one_of_symbol, ?_⟩
      obtain ⟨hspace, hword⟩ := TokenRule.not_begins_run isBlank_quoteMark isWordChar_quoteMark
      intro earlier hrank part hfront
      cases earlier with
      | quoted =>
          -- a quoted name needs another quotation mark
          rintro ⟨inside, -, rfl⟩
          have htail := (List.cons_prefix_cons.1 hfront).2
          exact h (htail.subset (List.mem_append_right inside List.mem_cons_self))
      | space => exact TokenRule.not_accepts_of_not_begins hspace hfront
      | word => exact TokenRule.not_accepts_of_not_begins hword hfront
      | symbol => exact absurd hrank (Nat.lt_irrefl _)
  | @space c cs _ hcs hrest =>
      have hc := hcs c List.mem_cons_self
      refine ⟨.space, rfl, .of_begins ⟨List.cons_ne_nil c cs, hcs⟩ ?_ ?_⟩
      · rintro part hfront ⟨-, hpart⟩
        exact length_le_of_run hcs hrest hfront hpart
      · intro earlier hrank
        cases earlier with
        | quoted => exact ne_of_isBlank hc isBlank_quoteMark
        | space => exact absurd hrank (Nat.lt_irrefl _)
        | word => exact absurd hrank (by decide)
        | symbol => exact absurd hrank (by decide)
  | @word c cs _ hcs hrest =>
      have hc := hcs c List.mem_cons_self
      refine ⟨.word, rfl, .of_begins ⟨List.cons_ne_nil c cs, hcs⟩ ?_ ?_⟩
      · rintro part hfront ⟨-, hpart⟩
        exact length_le_of_run hcs hrest hfront hpart
      · intro earlier hrank
        cases earlier with
        | quoted =>
            rintro rfl
            rw [isWordChar_quoteMark] at hc
            exact Bool.false_ne_true hc
        | space =>
            rw [TokenRule.Begins, isBlank_of_isWordChar hc]
            exact Bool.false_ne_true
        | word => exact absurd hrank (Nat.lt_irrefl _)
        | symbol => exact absurd hrank (by decide)
  | @symbol c _ hquote hblank hword =>
      -- the rule for single characters leaves out line feeds, which are blanks
      have hfeed : c ≠ '\n' := by
        rintro rfl
        exact absurd hblank (by decide)
      obtain ⟨hspace, hrun⟩ := TokenRule.not_begins_run hblank hword
      refine ⟨.symbol, rfl,
        .of_begins ⟨c, hfeed, rfl⟩ (fun part _ => TokenRule.length_le_one_of_symbol) ?_⟩
      intro earlier hrank
      cases earlier with
      | quoted => exact hquote
      | space => exact hspace
      | word => exact hrun
      | symbol => exact absurd hrank (Nat.lt_irrefl _)

/-! ## The rules leave no choice -/

/-- Only one rule takes something from a text, and it takes only one part. -/
theorem TokenRule.Takes.unique {rule other : TokenRule} {text rest text' rest' : List Char}
    (h : rule.Takes text rest) (h' : other.Takes text' rest')
    (heq : text ++ rest = text' ++ rest') :
    rule = other ∧ text = text' := by
  have hpart : text <+: text' ++ rest' := heq ▸ List.prefix_append text rest
  have hpart' : text' <+: text ++ rest := heq ▸ List.prefix_append text' rest'
  obtain rfl : rule = other := by
    apply rank_injective
    rcases Nat.lt_trichotomy rule.rank other.rank with hlt | heq | hgt
    · exact absurd h.accepts (h'.first rule hlt text hpart)
    · exact heq
    · exact absurd h'.accepts (h.first other hgt text' hpart')
  have hlength : text.length = text'.length :=
    Nat.le_antisymm (h'.longest text hpart h.accepts) (h.longest text' hpart' h'.accepts)
  exact ⟨rfl, (List.append_inj heq hlength).1⟩

/-- The rules cut a text into the tokens of its lexemes, and into no others. -/
theorem cuts_iff {start : Nat} {cs : List Char} {tokens : List Token} :
    Cuts start cs tokens ↔ tokens = tokensFrom start (lexemes cs) := by
  constructor
  · intro h
    induction h with
    | done start => rw [lexemes, tokensFrom]
    | @step start rule text rest tokens h _ ih =>
        -- what the rule takes is not empty, so a lexeme leads the text, and a rule takes that
        -- lexeme too
        obtain ⟨c, cs, hcs, -⟩ := h.accepts.exists_head
        obtain ⟨l, after, hsplit, hl⟩ := exists_leads c (cs ++ rest)
        rw [← List.cons_append, ← hcs] at hsplit
        obtain ⟨other, hkind, htakes⟩ := hl.takes
        obtain ⟨rfl, rfl⟩ := h.unique htakes hsplit
        obtain rfl : rest = after := List.append_cancel_left hsplit
        rw [lexemes_of_leads hl, tokensFrom, ← ih, hkind]
  · rintro rfl
    induction cs using lexing_induction generalizing start with
    | nil =>
        rw [lexemes, tokensFrom]
        exact .done start
    | step l rest hl ih =>
        obtain ⟨rule, hkind, htakes⟩ := hl.takes
        have hstep := Cuts.step htakes (@ih (start + l.chars.length))
        rw [hkind] at hstep
        rwa [lexemes_of_leads hl, tokensFrom]

end Sentential
