import Sentential.Proofs.Balance
import Sentential.Text.WordChar
import Mathlib.Tactic.Common

/-!
# Blank ends

A text is a trimmed text between blanks (`exists_trim`), and trimming finds this text
(`trim_append_of_trimmed`). Trimming stops at any character that is not blank (`trim_append_cons`),
and blanks at the ends do not matter for balance (`balanced_trim_iff`). Blanks, word characters,
parentheses, quotation marks and glyphs are different characters.
-/

namespace Sentential.Text

/-- A text whose ends are not blank. -/
def Trimmed (cs : List Char) : Prop :=
  (∀ c ∈ cs.head?, isBlank c = false) ∧ ∀ c ∈ cs.getLast?, isBlank c = false

/-! ## Blank texts -/

theorem isAllBlank_iff {cs : List Char} : isAllBlank cs = true ↔ ∀ c ∈ cs, isBlank c = true :=
  List.all_eq_true

theorem isAllBlank_nil : isAllBlank [] = true := rfl

theorem isAllBlank_append {as bs : List Char} :
    isAllBlank (as ++ bs) = true ↔ isAllBlank as = true ∧ isAllBlank bs = true := by
  rw [isAllBlank, List.all_append, Bool.and_eq_true]
  rfl

theorem isAllBlank_space : isAllBlank [' '] = true := by decide

/-! ## Trimming -/

theorem trimLeft_append {pre : List Char} (h : isAllBlank pre = true) (cs : List Char) :
    trimLeft (pre ++ cs) = trimLeft cs :=
  List.dropWhile_append_of_pos (isAllBlank_iff.1 h)

theorem trimLeft_of_head {cs : List Char} (h : ∀ c ∈ cs.head?, isBlank c = false) :
    trimLeft cs = cs := by
  cases cs with
  | nil => rfl
  | cons c rest =>
      have hc : isBlank c = false := h c rfl
      exact List.dropWhile_cons_of_neg (by simp [hc])

theorem trimRight_append {post : List Char} (h : isAllBlank post = true) (cs : List Char) :
    trimRight (cs ++ post) = trimRight cs := by
  have hrev : ∀ c ∈ post.reverse, isBlank c = true := by
    intro c hc
    exact isAllBlank_iff.1 h c (List.mem_reverse.1 hc)
  rw [trimRight, List.reverse_append, List.dropWhile_append_of_pos hrev]
  rfl

theorem trimRight_of_last {cs : List Char} (h : ∀ c ∈ cs.getLast?, isBlank c = false) :
    trimRight cs = cs := by
  have hrev : trimLeft cs.reverse = cs.reverse :=
    trimLeft_of_head fun c hc => h c (by rwa [List.head?_reverse] at hc)
  have : trimRight cs = (trimLeft cs.reverse).reverse := rfl
  rw [this, hrev, List.reverse_reverse]

/-- A text begins with blanks, and the rest is what trimming at the left leaves. -/
theorem exists_trimLeft (cs : List Char) :
    ∃ pre, isAllBlank pre = true ∧ cs = pre ++ trimLeft cs ∧
      ∀ c ∈ (trimLeft cs).head?, isBlank c = false := by
  refine ⟨cs.takeWhile isBlank, List.all_takeWhile, List.takeWhile_append_dropWhile.symm, ?_⟩
  intro c hc
  have hnot := List.head?_dropWhile_not isBlank cs
  rw [trimLeft] at hc
  rw [Option.mem_def.1 hc] at hnot
  exact hnot

/-- A text ends with blanks, and the rest is what trimming at the right leaves. -/
theorem exists_trimRight (cs : List Char) :
    ∃ post, isAllBlank post = true ∧ cs = trimRight cs ++ post ∧
      ∀ c ∈ (trimRight cs).getLast?, isBlank c = false := by
  obtain ⟨pre, hpre, hsplit, hhead⟩ := exists_trimLeft cs.reverse
  have htrim : trimRight cs = (trimLeft cs.reverse).reverse := rfl
  refine ⟨pre.reverse, ?_, ?_, ?_⟩
  · apply isAllBlank_iff.2
    intro c hc
    exact isAllBlank_iff.1 hpre c (List.mem_reverse.1 hc)
  · rw [htrim, ← List.reverse_append, ← hsplit, List.reverse_reverse]
  · intro c hc
    rw [htrim, List.getLast?_reverse] at hc
    exact hhead c hc

/-- A text is a trimmed text between blanks. -/
theorem exists_trim (cs : List Char) :
    ∃ pre post, isAllBlank pre = true ∧ isAllBlank post = true ∧ cs = pre ++ trim cs ++ post ∧
      Trimmed (trim cs) := by
  obtain ⟨pre, hpre, hleft, hhead⟩ := exists_trimLeft cs
  obtain ⟨post, hpost, hright, hlast⟩ := exists_trimRight (trimLeft cs)
  refine ⟨pre, post, hpre, hpost, ?_, ?_, hlast⟩
  · rw [trim, List.append_assoc, ← hright]
    exact hleft
  · intro c hc
    apply hhead c
    rw [hright, List.head?_append]
    rw [trim] at hc
    rw [Option.mem_def.1 hc]
    rfl

theorem trim_append_left {pre : List Char} (h : isAllBlank pre = true) (cs : List Char) :
    trim (pre ++ cs) = trim cs := by
  rw [trim, trimLeft_append h, trim]

theorem trim_of_trimmed {cs : List Char} (h : Trimmed cs) : trim cs = cs := by
  rw [trim, trimLeft_of_head h.1, trimRight_of_last h.2]

theorem trim_of_isAllBlank {cs : List Char} (h : isAllBlank cs = true) : trim cs = [] := by
  have hnil := trim_append_left h []
  rw [List.append_nil] at hnil
  exact hnil

/-- Trimming recovers a trimmed text from between blanks. -/
theorem trim_append_of_trimmed {pre body post : List Char} (hpre : isAllBlank pre = true)
    (hpost : isAllBlank post = true) (h : Trimmed body) : trim (pre ++ body ++ post) = body := by
  rw [List.append_assoc, trim_append_left hpre]
  cases body with
  | nil => exact trim_of_isAllBlank hpost
  | cons c rest =>
      have hhead : ∀ d ∈ (c :: rest ++ post).head?, isBlank d = false := h.1
      rw [trim, trimLeft_of_head hhead, trimRight_append hpost, trimRight_of_last h.2]

/-- Blanks at the ends do not matter for trimming. -/
theorem trim_append {pre post : List Char} (hpre : isAllBlank pre = true)
    (hpost : isAllBlank post = true) (cs : List Char) : trim (pre ++ cs ++ post) = trim cs := by
  obtain ⟨pre', post', hpre', hpost', hsplit, htrimmed⟩ := exists_trim cs
  have hwhole : pre ++ cs ++ post = pre ++ pre' ++ trim cs ++ (post' ++ post) := by
    conv_lhs => rw [hsplit]
    simp only [List.append_assoc]
  rw [hwhole]
  exact trim_append_of_trimmed (isAllBlank_append.2 ⟨hpre, hpre'⟩)
    (isAllBlank_append.2 ⟨hpost', hpost⟩) htrimmed

theorem trimmed_trim (cs : List Char) : Trimmed (trim cs) := by
  obtain ⟨-, -, -, -, -, htrimmed⟩ := exists_trim cs
  exact htrimmed

theorem trim_trim (cs : List Char) : trim (trim cs) = trim cs :=
  trim_of_trimmed (trimmed_trim cs)

theorem trim_eq_nil_iff {cs : List Char} : trim cs = [] ↔ isAllBlank cs = true := by
  constructor
  · intro h
    obtain ⟨pre, post, hpre, hpost, hsplit, -⟩ := exists_trim cs
    rw [h, List.append_nil] at hsplit
    rw [hsplit]
    exact isAllBlank_append.2 ⟨hpre, hpost⟩
  · exact trim_of_isAllBlank

/-- Trimming stops on both sides of a character that is not blank. -/
theorem trim_append_cons {c : Char} (hc : isBlank c = false) (as bs : List Char) :
    trim (as ++ c :: bs) = trimLeft as ++ c :: trimRight bs := by
  obtain ⟨pre, hpre, hleft, hhead⟩ := exists_trimLeft as
  obtain ⟨post, hpost, hright, hlast⟩ := exists_trimRight bs
  have hwhole : as ++ c :: bs = pre ++ (trimLeft as ++ c :: trimRight bs) ++ post := by
    conv_lhs => rw [hleft, hright]
    simp only [List.append_assoc, List.cons_append]
  rw [hwhole]
  refine trim_append_of_trimmed hpre hpost ⟨?_, ?_⟩
  -- the ends are those of the trimmed parts, or the character itself where a part is empty
  · intro d hd
    cases hl : trimLeft as with
    | nil =>
        rw [hl, List.nil_append, List.head?_cons, Option.mem_some_iff] at hd
        rw [← hd]
        exact hc
    | cons a rest =>
        rw [hl, List.cons_append, List.head?_cons, Option.mem_some_iff] at hd
        apply hhead d
        rw [hl, hd]
        rfl
  · intro d hd
    rw [List.getLast?_append] at hd
    cases hr : trimRight bs with
    | nil =>
        rw [hr, List.getLast?_singleton, Option.some_or, Option.mem_some_iff] at hd
        rw [← hd]
        exact hc
    | cons b rest =>
        rw [hr, List.getLast?_cons_cons, List.getLast?_cons, Option.some_or] at hd
        apply hlast d
        rw [hr, List.getLast?_cons]
        exact hd

theorem trim_trimLeft (cs : List Char) : trim (trimLeft cs) = trim cs := by
  obtain ⟨pre, hpre, hsplit, -⟩ := exists_trimLeft cs
  conv_rhs => rw [hsplit, trim_append_left hpre]

theorem trim_trimRight (cs : List Char) : trim (trimRight cs) = trim cs := by
  obtain ⟨post, hpost, hsplit, -⟩ := exists_trimRight cs
  conv_rhs => rw [hsplit, ← List.nil_append (trimRight cs), trim_append isAllBlank_nil hpost]

theorem trimmed_singleton {c : Char} (hc : isBlank c = false) : Trimmed [c] := by
  constructor
  · rintro d hd
    rw [List.head?_cons, Option.mem_some_iff] at hd
    rwa [← hd]
  · rintro d hd
    rw [List.getLast?_singleton, Option.mem_some_iff] at hd
    rwa [← hd]

/-- A text between two characters that are not blank is trimmed. -/
theorem trimmed_between {first last : Char} (hfirst : isBlank first = false)
    (hlast : isBlank last = false) (cs : List Char) : Trimmed (first :: cs ++ [last]) := by
  constructor
  · rintro d hd
    rw [List.cons_append, List.head?_cons, Option.mem_some_iff] at hd
    rwa [← hd]
  · rintro d hd
    rw [List.getLast?_concat, Option.mem_some_iff] at hd
    rwa [← hd]

theorem trimmed_of_forall_not_blank {cs : List Char} (h : ∀ c ∈ cs, isBlank c = false) :
    Trimmed cs :=
  ⟨fun c hc => h c (List.mem_of_mem_head? hc), fun c hc => h c (List.mem_of_mem_getLast? hc)⟩

/-- The blanks before the first visible character of a text are determined by the text. -/
theorem blank_append_inj {pre pre' : List Char} {c c' : Char} {cs cs' : List Char}
    (hpre : isAllBlank pre = true) (hpre' : isAllBlank pre' = true) (hc : isBlank c = false)
    (hc' : isBlank c' = false) (h : pre ++ c :: cs = pre' ++ c' :: cs') :
    pre = pre' ∧ c :: cs = c' :: cs' := by
  -- trimming drops the blanks on both sides, and what is left can be cancelled
  have htrim := congrArg trimLeft h
  rw [trimLeft_append hpre, trimLeft_append hpre'] at htrim
  have hhead : ∀ d ∈ (c :: cs).head?, isBlank d = false := by
    rintro d hd
    rwa [← Option.mem_some_iff.1 hd]
  have hhead' : ∀ d ∈ (c' :: cs').head?, isBlank d = false := by
    rintro d hd
    rwa [← Option.mem_some_iff.1 hd]
  rw [trimLeft_of_head hhead, trimLeft_of_head hhead'] at htrim
  rw [htrim] at h
  exact ⟨List.append_cancel_right h, htrim⟩

/-- The division of a text into a trimmed text and blanks around it is determined by the text. -/
theorem blank_between_inj {pre body post pre' body' post' : List Char}
    (hpre : isAllBlank pre = true) (hpost : isAllBlank post = true)
    (hpre' : isAllBlank pre' = true) (hpost' : isAllBlank post' = true) (hbody : Trimmed body)
    (hne : body ≠ []) (hbody' : Trimmed body') (hne' : body' ≠ [])
    (h : pre ++ body ++ post = pre' ++ body' ++ post') :
    pre = pre' ∧ body = body' ∧ post = post' := by
  have htrim := congrArg trim h
  rw [trim_append_of_trimmed hpre hpost hbody, trim_append_of_trimmed hpre' hpost' hbody'] at htrim
  subst htrim
  obtain ⟨c, rest, rfl⟩ := List.exists_cons_of_ne_nil hne
  have hc : isBlank c = false := hbody.1 c rfl
  rw [List.append_assoc, List.append_assoc, List.cons_append, List.cons_append] at h
  obtain ⟨hpres, hrest⟩ := blank_append_inj hpre hpre' hc hc h
  exact ⟨hpres, rfl, List.append_cancel_left (List.cons.inj hrest).2⟩

/-! ## Classes of characters -/

/-- No code point of a blank is one of a word character. -/
theorem covers_wordRanges_of_blank :
    ∀ r ∈ blankRanges, ∀ k ≤ r.2 - r.1, covers wordRanges (r.1 + k) = false := by
  decide +kernel

theorem isBlank_of_isWordChar {c : Char} (h : isWordChar c = true) : isBlank c = false := by
  by_contra hb
  rw [Bool.not_eq_false] at hb
  -- the ranges of blanks are short, so each of their code points has been looked up
  obtain ⟨r, hr, hlow, hhigh⟩ := exists_range_of_covers hb
  have hnot := covers_wordRanges_of_blank r hr (c.toNat - r.1) (by omega)
  rw [Nat.add_sub_cancel' hlow] at hnot
  rw [isWordChar, hnot] at h
  exact Bool.false_ne_true h

theorem ne_of_isBlank {c d : Char} (hc : isBlank c = true) (hd : isBlank d = false) : c ≠ d := by
  rintro rfl
  rw [hc] at hd
  exact Bool.noConfusion hd

theorem isBlank_openParen : isBlank openParen = false := by decide

theorem isBlank_closeParen : isBlank closeParen = false := by decide

theorem isBlank_quoteMark : isBlank quoteMark = false := by decide

theorem isBlank_glyph (s : Symbol) : isBlank s.glyph = false := by
  have h : ∀ s ∈ Symbol.all, isBlank s.glyph = false := by decide
  exact h s s.mem_all

theorem isPlain_glyph (s : Symbol) : IsPlain s.glyph := by
  have h : ∀ s ∈ Symbol.all, IsPlain s.glyph := by decide
  exact h s s.mem_all

theorem glyph_ne_quoteMark (s : Symbol) : s.glyph ≠ quoteMark := by
  have h : ∀ s ∈ Symbol.all, s.glyph ≠ quoteMark := by decide
  exact h s s.mem_all

theorem isPlain_of_isBlank {c : Char} (h : isBlank c = true) : IsPlain c :=
  ⟨ne_of_isBlank h isBlank_openParen, ne_of_isBlank h isBlank_closeParen⟩

theorem isPlain_of_isAllBlank {cs : List Char} (h : isAllBlank cs = true) : ∀ c ∈ cs, IsPlain c :=
  fun c hc => isPlain_of_isBlank (isAllBlank_iff.1 h c hc)

theorem balanced_of_isAllBlank {cs : List Char} (h : isAllBlank cs = true) : Balanced cs :=
  balanced_of_forall_plain (isPlain_of_isAllBlank h)

/-- Blanks at the ends do not matter for balance. -/
theorem balanced_blank_append_iff {pre post : List Char} (hpre : isAllBlank pre = true)
    (hpost : isAllBlank post = true) (cs : List Char) :
    Balanced (pre ++ cs ++ post) ↔ Balanced cs := by
  rw [balanced_append_plain_iff (isPlain_of_isAllBlank hpost),
    (balanced_of_isAllBlank hpre).append_iff]

theorem balanced_trim_iff (cs : List Char) : Balanced (trim cs) ↔ Balanced cs := by
  obtain ⟨pre, post, hpre, hpost, hsplit, -⟩ := exists_trim cs
  conv_rhs => rw [hsplit]
  exact (balanced_blank_append_iff hpre hpost (trim cs)).symm

end Sentential.Text
