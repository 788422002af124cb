import Sentential.Formula.Token
import Sentential.Text.LowerCase
import Mathlib.Logic.Basic

/-!
# Keywords in any case

A word is compared with the keywords after its ASCII capitals have been lowered. Lowering the whole
word gives the same answer (`Text.Lowered.keyword?_eq`). The keywords consist of ASCII letters other
than k, and what a character beyond ASCII is lowered to lies beyond ASCII as well, with two
exceptions: the Kelvin sign is lowered to k, and the capital I with a dot above brings a combining
dot with its small i.
-/

namespace Sentential

open Text

theorem keyword?_eq_some_iff {word : String} {s : Symbol} :
    keyword? word = some s ↔ (word, s) ∈ keywordTable := by
  constructor
  · intro h
    obtain ⟨before, after, htable, -⟩ := List.lookup_eq_some_iff.1 h
    rw [htable]
    exact List.mem_append_right before List.mem_cons_self
  · intro h
    -- no word is listed twice
    have hself : ∀ entry ∈ keywordTable, keyword? entry.1 = some entry.2 := by decide +kernel
    exact hself (word, s) h

/-- A character that occurs in no keyword: one beyond ASCII, or the letter k. -/
def IsForeign (c : Char) : Prop := 0x80 ≤ c.toNat ∨ c = 'k'

instance (c : Char) : Decidable (IsForeign c) :=
  inferInstanceAs (Decidable (0x80 ≤ c.toNat ∨ c = 'k'))

/-- A text with a foreign character is no keyword. -/
theorem keyword?_of_foreign {cs : List Char} {c : Char} (hc : c ∈ cs) (hforeign : IsForeign c) :
    keyword? (String.ofList cs) = none := by
  have hplain : ∀ entry ∈ keywordTable, entry.1.toList.filter (IsForeign ·) = [] := by
    decide +kernel
  cases h : keyword? (String.ofList cs) with
  | none => rfl
  | some s =>
      have hletters := hplain _ (keyword?_eq_some_iff.1 h)
      rw [String.toList_ofList, List.filter_eq_nil_iff] at hletters
      exact absurd (decide_eq_true hforeign) (hletters c hc)

/-! ## Lowering characters -/

theorem smallLetter_of_ascii {c : Char} (h : c.toNat < 0x80) : smallLetter c = lowerAscii c := by
  have hall : ∀ n, n < 0x80 → smallLetter (Char.ofNat n) = lowerAscii (Char.ofNat n) := by
    decide +kernel
  have := hall c.toNat h
  rwa [Char.ofNat_toNat] at this

theorem lowerAscii_of_not_ascii {c : Char} (h : 0x80 ≤ c.toNat) : lowerAscii c = c := by
  apply if_neg
  rintro ⟨-, hle⟩
  have : c.toNat ≤ 'Z'.toNat := hle
  exact absurd (Nat.le_trans h this) (by decide)

/-- A run of capitals is ASCII, or its small letters are code points beyond ASCII, or it is the
Kelvin sign. -/
theorem run_cases {run : CapitalRun} (h : run ∈ capitalRuns) :
    run.last < 0x80 ∨
      (0x80 ≤ run.small ∧ (run.small + (run.last - run.first) < 0xD800 ∨
        0xDFFF < run.small ∧ run.small + (run.last - run.first) < 0x110000)) ∨
      run.first = run.last ∧ run.small = 'k'.toNat := by
  revert run
  decide +kernel

theorem toNat_ofNat_of_isValidChar {n : Nat} (h : n.isValidChar) : (Char.ofNat n).toNat = n := by
  rw [Char.ofNat, dif_pos h]
  rfl

/-- A character beyond ASCII is lowered to a foreign character. -/
theorem isForeign_smallLetter {c : Char} (h : 0x80 ≤ c.toNat) : IsForeign (smallLetter c) := by
  rw [smallLetter]
  cases hfind : capitalRuns.find? (CapitalRun.has c.toNat) with
  | none => exact Or.inl h
  | some run =>
      have hhas := List.find?_some hfind
      simp only [CapitalRun.has, Bool.and_eq_true, decide_eq_true_eq] at hhas
      rcases run_cases (List.mem_of_find?_eq_some hfind) with hascii | ⟨hsmall, hvalid⟩ | ⟨hone, hk⟩
      · omega
      · have hcode : (Char.ofNat (run.small + (c.toNat - run.first))).toNat =
            run.small + (c.toNat - run.first) := by
          apply toNat_ofNat_of_isValidChar
          simp only [Nat.isValidChar]
          omega
        left
        simp only [hcode]
        omega
      · -- a run of one capital, whose small letter is k
        right
        have hfirst : c.toNat - run.first = 0 := by omega
        simp only [hfirst, hk]
        rfl

/-- Among what a character beyond ASCII is lowered to there is a foreign character. -/
theorem exists_foreign_smallLetters {c : Char} (h : 0x80 ≤ c.toNat) :
    ∃ d ∈ smallLetters c, IsForeign d := by
  rw [smallLetters]
  by_cases hdotted : c = dottedCapital
  · rw [if_pos hdotted]
    exact ⟨'\u0307', List.mem_cons_of_mem _ List.mem_cons_self, by decide⟩
  · rw [if_neg hdotted]
    exact ⟨smallLetter c, List.mem_cons_self, isForeign_smallLetter h⟩

/-! ## Lowering words -/

/-- In ASCII only capitals from A to Z are lowered. -/
theorem Text.Lowered.eq_map {cs lowered : List Char} (h : Lowered cs lowered)
    (hascii : ∀ c ∈ cs, c.toNat < 0x80) : lowered = cs.map lowerAscii := by
  induction h with
  | nil => rfl
  | @cons c cs lowered h ih =>
      have hc := hascii c List.mem_cons_self
      have hdotted : c ≠ dottedCapital := by
        rintro rfl
        exact absurd hc (by decide)
      rw [smallLetters, if_neg hdotted, smallLetter_of_ascii hc, List.map_cons,
        ih fun d hd => hascii d (List.mem_cons_of_mem c hd)]
      rfl
  | sigma h ih => exact absurd (hascii capitalSigma List.mem_cons_self) (by decide)

/-- A character beyond ASCII leaves a foreign character when the text is lowered. -/
theorem Text.Lowered.exists_foreign {cs lowered : List Char} (h : Lowered cs lowered) {c : Char}
    (hc : c ∈ cs) (hbeyond : 0x80 ≤ c.toNat) : ∃ d ∈ lowered, IsForeign d := by
  induction h with
  | nil => exact absurd hc List.not_mem_nil
  | @cons first cs lowered h ih =>
      rcases List.mem_cons.1 hc with rfl | hc
      · obtain ⟨d, hd, hforeign⟩ := exists_foreign_smallLetters hbeyond
        exact ⟨d, List.mem_append_left lowered hd, hforeign⟩
      · obtain ⟨d, hd, hforeign⟩ := ih hc
        exact ⟨d, List.mem_append_right _ hd, hforeign⟩
  | sigma h ih => exact ⟨finalSigma, List.mem_cons_self, by decide⟩

/-- The symbol of a word is the symbol of the keyword that the word is when all its letters are
lowered. -/
theorem Text.Lowered.keyword?_eq {cs lowered : List Char} (h : Lowered cs lowered) :
    keyword? (String.ofList lowered) = wordSymbol? cs := by
  by_cases hascii : ∀ c ∈ cs, c.toNat < 0x80
  · rw [h.eq_map hascii, wordSymbol?]
  · -- with a character beyond ASCII the word is no keyword, whichever letters are lowered
    obtain ⟨c, hc, hbeyond⟩ : ∃ c ∈ cs, 0x80 ≤ c.toNat := by
      simpa only [not_forall, Nat.not_lt, exists_prop] using hascii
    obtain ⟨d, hd, hforeign⟩ := h.exists_foreign hc hbeyond
    have hmem : c ∈ cs.map lowerAscii :=
      List.mem_map.2 ⟨c, hc, lowerAscii_of_not_ascii hbeyond⟩
    rw [keyword?_of_foreign hd hforeign, wordSymbol?, keyword?_of_foreign hmem (Or.inl hbeyond)]

end Sentential
