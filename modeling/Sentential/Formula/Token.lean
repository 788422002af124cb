import Sentential.Log.Traced
import Sentential.Text.Blank
import Sentential.Text.WordChar

/-!
# Tokens and normalization

A raw line is cut into lexemes: quoted names, runs of blanks, runs of word characters and single
other characters. A lexeme extends as far as its class allows, and nothing is skipped, so the
lexemes of a line concatenate to the line (`flatten_lexemes`). A word that spells a keyword,
whatever its case, becomes a keyword token whose value is the glyph of the keyword; every other
token keeps its text. `normalizedText` concatenates the values, and `normalizeLine` also reports how
many keywords it found.
-/

namespace Sentential

open Text

/-- Classes of tokens. -/
inductive TokenKind where
  | quoted
  | space
  | word
  | keyword
  | symbol
  deriving DecidableEq

/-- The name of a token class. -/
def TokenKind.name : TokenKind → String
  | .quoted => "QUOTED"
  | .space => "SPACE"
  | .word => "WORD"
  | .keyword => "KEYWORD"
  | .symbol => "SYMBOL"

/-- A stretch of source text and its class. -/
structure Lexeme where
  kind : TokenKind
  chars : List Char
  deriving DecidableEq

/-- The first lexeme of the text `c :: rest`. A quotation mark opens a quoted name if there is
another one further on, and is a symbol otherwise. -/
def firstLexeme (c : Char) (rest : List Char) : Lexeme :=
  if c = quoteMark then
    let inside := rest.takeWhile (· ≠ quoteMark)
    if inside.length < rest.length then ⟨.quoted, c :: inside ++ [quoteMark]⟩ else ⟨.symbol, [c]⟩
  else if isBlank c then ⟨.space, c :: rest.takeWhile isBlank⟩
  else if isWordChar c then ⟨.word, c :: rest.takeWhile isWordChar⟩
  else ⟨.symbol, [c]⟩

theorem firstLexeme_length_pos (c : Char) (rest : List Char) :
    0 < (firstLexeme c rest).chars.length := by
  simp only [firstLexeme]
  split
  · split <;> simp
  · split
    · simp
    · split <;> simp

/-- The lexemes of a text, from left to right. -/
def lexemes : List Char → List Lexeme
  | [] => []
  | c :: rest =>
      let first := firstLexeme c rest
      first :: lexemes (rest.drop (first.chars.length - 1))
termination_by cs => cs.length
decreasing_by simp only [List.length_drop, List.length_cons]; omega

/-- A lower-case letter for an ASCII capital; other characters stay. A word with a letter outside
ASCII is no keyword once all its letters are lowered either, so this is enough to recognise
keywords. -/
def lowerAscii (c : Char) : Char := if 'A' ≤ c ∧ c ≤ 'Z' then Char.ofNat (c.toNat + 32) else c

/-- The symbol for which a word stands, in any mix of cases. -/
def wordSymbol? (cs : List Char) : Option Symbol := keyword? (String.ofList (cs.map lowerAscii))

/-- A token: its class, its value, and the positions where its source text begins and ends. -/
structure Token where
  kind : TokenKind
  value : List Char
  start : Nat
  stop : Nat
  deriving DecidableEq

/-- The token of a lexeme that begins at `start`. -/
def Lexeme.token (start : Nat) (l : Lexeme) : Token :=
  let stop := start + l.chars.length
  match l.kind with
  | .word =>
      match wordSymbol? l.chars with
      | some s => ⟨.keyword, [s.glyph], start, stop⟩
      | none => ⟨.word, l.chars, start, stop⟩
  | kind => ⟨kind, l.chars, start, stop⟩

/-- The tokens of consecutive lexemes, the first of which begins at `start`. -/
def tokensFrom (start : Nat) : List Lexeme → List Token
  | [] => []
  | l :: rest => l.token start :: tokensFrom (start + l.chars.length) rest

/-- The tokens of a line. -/
def tokensOf (s : String) : List Token := tokensFrom 0 (lexemes s.toList)

/-- The concatenated values of tokens. -/
def tokenText (tokens : List Token) : String := String.ofList (tokens.flatMap Token.value)

/-- A line with every keyword replaced by its glyph. -/
def normalizedText (s : String) : String := tokenText (tokensOf s)

/-- Normalizes a line and reports the number of keywords. -/
def normalizeLine {ε : Type} (s : String) : Traced ε String :=
  let tokens := tokensOf s
  let target := tokenText tokens
  ⟨[.normalized (tokens.countP (·.kind = .keyword)) s target], .ok target⟩

@[simp] theorem result_normalizeLine {ε : Type} (s : String) :
    (normalizeLine s : Traced ε String).result = .ok (normalizedText s) := rfl

private theorem takeWhile_append_closing {rest : List Char} {q : Char}
    (h : (rest.takeWhile (· ≠ q)).length < rest.length) :
    rest.takeWhile (· ≠ q) ++ [q] <+: rest := by
  have hsplit := List.takeWhile_append_dropWhile (p := fun x : Char => decide (x ≠ q)) (l := rest)
  cases hdrop : rest.dropWhile (fun x : Char => decide (x ≠ q)) with
  | nil =>
      rw [hdrop, List.append_nil] at hsplit
      rw [hsplit] at h
      exact absurd h (Nat.lt_irrefl _)
  | cons d after =>
      have hd : d = q := by
        have := List.head?_dropWhile_not (fun x : Char => decide (x ≠ q)) rest
        rw [hdrop] at this
        simpa using this
      rw [hdrop, hd] at hsplit
      exact ⟨after, by simpa using hsplit⟩

/-- The first lexeme is an initial part of the text. -/
theorem firstLexeme_isPrefix (c : Char) (rest : List Char) :
    (firstLexeme c rest).chars <+: c :: rest := by
  simp only [firstLexeme]
  split
  · split
    next h => simpa using takeWhile_append_closing h
    · simp
  · split
    · simpa using List.takeWhile_prefix _
    · split
      · simpa using List.takeWhile_prefix _
      · simp

/-- The lexemes of a text concatenate to the text. -/
theorem flatten_lexemes (cs : List Char) : (lexemes cs).flatMap Lexeme.chars = cs := by
  fun_induction lexemes cs with
  | case1 => rfl
  | case2 c rest first ih =>
      have hpos : 0 < first.chars.length := firstLexeme_length_pos c rest
      obtain ⟨n, hn⟩ : ∃ n, first.chars.length = n + 1 := ⟨first.chars.length - 1, by omega⟩
      have happ : first.chars ++ (c :: rest).drop first.chars.length = c :: rest :=
        List.prefix_iff_eq_append.1 (firstLexeme_isPrefix c rest)
      rw [hn, List.drop_succ_cons] at happ
      rw [List.flatMap_cons, ih, hn, Nat.add_sub_cancel]
      exact happ

end Sentential
