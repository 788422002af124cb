import Mathlib.Data.List.Basic
import Sentential.Proofs.TableLayout

/-!
# Colours in printed tables

Colours are sequences of characters around the letters of a table. `uncoloured` deletes these
sequences from a text, wherever they occur. It passes over characters that begin no sequence and
takes a sequence away from the front of a text, so that on a line of values it can be followed from
cell to cell (`uncoloured_valueLine`).

`lines_coloured` compares a table in colours with the plain one. The colours are in the lines of
values only, and there around the letter of each value, so that they change neither the headings nor
the place of a letter in its cell.
-/

namespace Sentential

open Text

/-! ## Deleting colours -/

/-- Deletes every occurrence of one of the sequences from a text. The number counts the characters
in front that belong to an occurrence already found. -/
def deleteFrom (sequences : List (List Char)) : Nat → List Char → List Char
  | _, [] => []
  | found + 1, _ :: rest => deleteFrom sequences found rest
  | 0, c :: rest =>
      match sequences.find? fun s => s.isPrefixOf (c :: rest) with
      | some s => deleteFrom sequences (s.length - 1) rest
      | none => c :: deleteFrom sequences 0 rest

/-- The terminal sequences that colours are made of. -/
def colourSequences : List (List Char) := [colourStart true, colourStart false, colourEnd]

/-- A text without the colours in it. -/
def uncoloured (cs : List Char) : List Char := deleteFrom colourSequences 0 cs

theorem uncoloured_colourStart (value : Bool) (rest : List Char) :
    uncoloured (colourStart value ++ rest) = uncoloured rest := by
  cases value <;> rfl

theorem uncoloured_colourEnd (rest : List Char) :
    uncoloured (colourEnd ++ rest) = uncoloured rest := rfl

/-- Every sequence begins with the escape character. -/
theorem isPrefixOf_eq_false {c : Char} (h : c ≠ '\x1b') (rest : List Char) :
    ∀ s ∈ colourSequences, s.isPrefixOf (c :: rest) = false := by
  have hfirst : ('\x1b' == c) = false := beq_false_of_ne h.symm
  simp [colourSequences, colourStart, colourEnd, List.isPrefixOf, hfirst]

theorem uncoloured_cons {c : Char} (h : c ≠ '\x1b') (rest : List Char) :
    uncoloured (c :: rest) = c :: uncoloured rest := by
  have hnone : (colourSequences.find? fun s => s.isPrefixOf (c :: rest)) = none := by
    rw [List.find?_eq_none]
    intro s hs
    rw [isPrefixOf_eq_false h rest s hs]
    exact Bool.false_ne_true
  rw [uncoloured, deleteFrom, hnone]
  rfl

/-- A text without the escape character is kept. -/
theorem uncoloured_append_of_notMem {as : List Char} (h : '\x1b' ∉ as) (rest : List Char) :
    uncoloured (as ++ rest) = as ++ uncoloured rest := by
  induction as with
  | nil => rfl
  | cons c as ih =>
      rw [List.mem_cons, not_or] at h
      rw [List.cons_append, uncoloured_cons (Ne.symm h.1), ih h.2]
      rfl

theorem escape_notMem_blanks (n : Nat) : '\x1b' ∉ List.replicate n ' ' := by
  intro h
  exact absurd (List.mem_replicate.1 h).2 (by decide)

/-- A letter in its colour loses the colour. -/
theorem uncoloured_letter (value : Bool) (rest : List Char) :
    uncoloured (Palette.coloured.letter value ++ rest) =
      Palette.plain.letter value ++ uncoloured rest := by
  have hletter : '\x1b' ∉ [truthLetter value] := by cases value <;> decide
  simp only [Palette.letter, List.append_assoc]
  rw [uncoloured_colourStart, uncoloured_append_of_notMem hletter, uncoloured_colourEnd]

/-- A field in colours becomes the plain field. -/
theorem uncoloured_valueField (field : List Char × Bool) (rest : List Char) :
    uncoloured (valueField .coloured field ++ rest) =
      valueField .plain field ++ uncoloured rest := by
  have hopen : '\x1b' ∉ [' '] := by decide
  have hclose : '\x1b' ∉ [' ', '|'] := by decide
  simp only [valueField_eq, List.append_assoc]
  rw [uncoloured_append_of_notMem hopen, uncoloured_append_of_notMem (escape_notMem_blanks _),
    uncoloured_letter, uncoloured_append_of_notMem (escape_notMem_blanks _),
    uncoloured_append_of_notMem hclose]

section ValueLine

variable {headings : List (List Char)} {values : List Bool}

/-- A line of values in colours becomes the plain line. -/
theorem uncoloured_valueLine (hne : headings ≠ []) (h : headings.length = values.length) :
    uncoloured (valueLine .coloured headings values) = valueLine .plain headings values := by
  have hfields : ∀ fields : List (List Char × Bool),
      uncoloured (fields.flatMap (valueField .coloured)) = fields.flatMap (valueField .plain) := by
    intro fields
    induction fields with
    | nil => rfl
    | cons field rest ih => rw [List.flatMap_cons, List.flatMap_cons, uncoloured_valueField, ih]
  rw [valueLine_eq _ hne h, valueLine_eq _ hne h, uncoloured_cons (by decide), hfields]

/-! ## Letters and their colours -/

/-- Every letter of a truth value that occurs in the text stands in its colour. -/
def LettersColoured (cs : List Char) : Prop :=
  ∀ value before after, cs = before ++ truthLetter value :: after →
    colourStart value <:+ before ∧ colourEnd <+: after

theorem LettersColoured.append {as bs : List Char} (ha : LettersColoured as)
    (hb : LettersColoured bs) :
    LettersColoured (as ++ bs) := by
  intro value before after h
  rcases List.append_eq_append_iff.1 h with ⟨between, rfl, hbs⟩ | ⟨between, rfl, hafter⟩
  case inl =>
    have ⟨hstart, hend⟩ := hb value between after hbs
    exact ⟨hstart.trans (List.suffix_append as between), hend⟩
  case inr =>
    cases between with
    | nil =>
        -- the letter is the first of the second text, which has no room for the colour
        have ⟨hstart, hend⟩ := hb value [] after hafter.symm
        exact ⟨hstart.trans List.nil_suffix, hend⟩
    | cons c rest =>
        obtain ⟨rfl, rfl⟩ := List.cons.inj hafter
        have ⟨hstart, hend⟩ := ha value before rest rfl
        exact ⟨hstart, hend.trans (List.prefix_append rest bs)⟩

theorem lettersColoured_of_notMem {cs : List Char} (h : ∀ value, truthLetter value ∉ cs) :
    LettersColoured cs := by
  rintro value before after rfl
  exact absurd (List.mem_append_right before List.mem_cons_self) (h value)

theorem lettersColoured_blanks (n : Nat) : LettersColoured (List.replicate n ' ') := by
  apply lettersColoured_of_notMem
  intro value h
  exact truthLetter_ne_blank value (List.mem_replicate.1 h).2.symm

theorem truthLetter_injective : Function.Injective truthLetter := by
  unfold Function.Injective
  decide

theorem lettersColoured_letter (value : Bool) :
    LettersColoured (Palette.coloured.letter value) := by
  have hstart : ∀ other, truthLetter other ∉ colourStart value := by cases value <;> decide
  have hend : ∀ other, truthLetter other ∉ colourEnd := by decide
  intro other before after h
  rw [Palette.letter, List.append_assoc, List.singleton_append,
    List.append_cons_inj_of_notMem (hstart other) (hend other)] at h
  obtain ⟨rfl, hletter, rfl⟩ := h
  obtain rfl := truthLetter_injective hletter
  exact ⟨List.suffix_refl _, List.prefix_refl _⟩

theorem lettersColoured_valueField (field : List Char × Bool) :
    LettersColoured (valueField .coloured field) := by
  have hopen : LettersColoured [' '] := lettersColoured_blanks 1
  have hclose : LettersColoured [' ', '|'] := lettersColoured_of_notMem (by decide)
  rw [valueField_eq]
  exact (((hopen.append (lettersColoured_blanks _)).append (lettersColoured_letter field.2)).append
    (lettersColoured_blanks _)).append hclose

/-- A line of values in colours has no letter without its colour. -/
theorem lettersColoured_valueLine (hne : headings ≠ []) (h : headings.length = values.length) :
    LettersColoured (valueLine .coloured headings values) := by
  have hfields : ∀ fields : List (List Char × Bool),
      LettersColoured (fields.flatMap (valueField .coloured)) := by
    intro fields
    induction fields with
    | nil => exact lettersColoured_of_notMem fun _ => List.not_mem_nil
    | cons field rest ih =>
        rw [List.flatMap_cons]
        exact (lettersColoured_valueField field).append ih
  have hbar : LettersColoured ['|'] := lettersColoured_of_notMem (by decide)
  rw [valueLine_eq _ hne h]
  exact hbar.append (hfields _)

theorem count_escape_valueField (field : List Char × Bool) :
    (valueField .coloured field).count '\x1b' = 2 := by
  have hopen : [' '].count '\x1b' = 0 := by decide
  have hclose : [' ', '|'].count '\x1b' = 0 := by decide
  have hletter : ∀ value, (Palette.coloured.letter value).count '\x1b' = 2 := by decide
  have hblanks : ∀ n : Nat, (List.replicate n ' ').count '\x1b' = 0 :=
    fun n => List.count_eq_zero.2 (escape_notMem_blanks n)
  simp only [valueField_eq, List.count_append, hopen, hclose, hblanks, hletter]

/-- The two sequences around each letter are the only ones in a line of values in colours. -/
theorem count_escape_valueLine (hne : headings ≠ []) (h : headings.length = values.length) :
    (valueLine .coloured headings values).count '\x1b' = 2 * values.length := by
  have hfields : ∀ fields : List (List Char × Bool),
      (fields.flatMap (valueField .coloured)).count '\x1b' = 2 * fields.length := by
    intro fields
    induction fields with
    | nil => rfl
    | cons field rest ih =>
        rw [List.flatMap_cons, List.count_append, ih, count_escape_valueField, List.length_cons]
        omega
  rw [valueLine_eq _ hne h, List.count_cons_of_ne (by decide), hfields, List.length_zip, h,
    Nat.min_self]

end ValueLine

/-! ## Tables in colours -/

namespace TruthTable

variable {t : TruthTable} {title? : Option String} {title : String}

/-- A table in colours has the lines of the plain table, whose headings and rules are left alone.
The line of each row becomes the plain line of that row when the colours are deleted, and is found
between the colours: each letter in it stands between the sequence of its colour and the sequence
that ends the colour, and there is one such letter in each cell, in the place that it has in the
plain cell, with no other sequence in the line. -/
theorem lines_coloured (htitle : t.titleText title? = .ok title)
    (hrows : ∀ r ∈ t.rows, r.assignment.Covers t.columns) :
    ∃ (heading rule : List Char) (plain coloured : List (List Char)),
      t.lines title? .plain = .ok ([heading, rule] ++ plain ++ [rule]) ∧
      t.lines title? .coloured = .ok ([heading, rule] ++ coloured ++ [rule]) ∧
      t.render title? .plain =
        .ok (String.ofList (['\n'].intercalate ([heading, rule] ++ plain ++ [rule]))) ∧
      t.render title? .coloured =
        .ok (String.ofList (['\n'].intercalate ([heading, rule] ++ coloured ++ [rule]))) ∧
      plain.length = t.rows.length ∧
      coloured.map uncoloured = plain ∧
      (∀ line ∈ coloured, LettersColoured line ∧ line.count '\x1b' = 2 * (t.columns.length + 1) ∧
        line.length = lineLength ((t.widths title).map (· + 9))) ∧
      (∀ (i : Nat) (line : List Char) (r : Row), coloured[i]? = some line → t.rows[i]? = some r →
        ∀ (column width : Nat) (value : Bool), (t.widths title)[column]? = some width →
          (r.valuesUnder t.columns)[column]? = some value →
          columnText ((t.widths title).map (· + 9)) column line =
            List.replicate ((width - 1) / 2) ' ' ++
              (colourStart value ++ [truthLetter value] ++ colourEnd) ++
              List.replicate (width - 1 - (width - 1) / 2) ' ') := by
  have hplain := lines_eq htitle hrows .plain
  have hcoloured := lines_eq htitle hrows .coloured
  have hne := headings_ne_nil t title
  refine ⟨_, _, _, _, hplain, hcoloured, render_eq hplain, render_eq hcoloured, ?_, ?_, ?_, ?_⟩
  · exact List.length_map _
  · rw [List.map_map]
    apply List.map_congr_left
    intro r _
    exact uncoloured_valueLine hne (length_headings t title r)
  · intro line hline
    obtain ⟨r, -, rfl⟩ := List.mem_map.1 hline
    have hlength := length_headings t title r
    have hcount : (r.valuesUnder t.columns).length = t.columns.length + 1 := by
      rw [Row.valuesUnder, List.length_append, List.length_map, List.length_singleton]
    refine ⟨lettersColoured_valueLine hne hlength, ?_, length_rowLine t .coloured title r⟩
    rw [rowLine, count_escape_valueLine hne hlength, hcount]
  · intro i line r hline hr column width value hwidth hvalue
    rw [rowLine_of_getElem? hline hr]
    exact columnText_rowLine hwidth hvalue .coloured

/-- A title with the letters of both values and a sequence of its own, which is kept. -/
theorem lines_coloured_title_with_colour :
    let t : TruthTable := ⟨.const true, ["a"], [⟨⟨[("a", false)]⟩, true⟩]⟩
    let title := "T\x1b[31mF"
    let row := "| \x1b[31mF\x1b[0m |    \x1b[32mT\x1b[0m    |".toList
    t.titleText (some title) = .ok title ∧ (∀ r ∈ t.rows, r.assignment.Covers t.columns) ∧
      uncoloured row = "| F |    T    |".toList ∧ LettersColoured row ∧
      ∃ heading rule, t.lines (some title) .plain = .ok [heading, rule, uncoloured row, rule] ∧
        t.lines (some title) .coloured = .ok [heading, rule, row, rule] ∧
        heading = "| a | T\x1b[31mF |".toList := by
  intro t title row
  have htitle : t.titleText (some title) = .ok title := rfl
  have hrows : ∀ r ∈ t.rows, r.assignment.Covers t.columns := by decide
  obtain ⟨heading, rule, plain, coloured, hplain, hcoloured, -, -, hlength, hmap, hletters, -⟩ :=
    lines_coloured htitle hrows
  subst hmap
  rw [List.length_map] at hlength
  obtain ⟨line, rfl⟩ := List.length_eq_one_iff.1 hlength
  have hhead : (t.lines (some title) .coloured).map (fun ls => ls[0]?) =
      .ok (some "| a | T\x1b[31mF |".toList) := by decide +kernel
  have hthird : (t.lines (some title) .coloured).map (fun ls => ls[2]?) = .ok (some row) := by
    decide +kernel
  rw [hcoloured] at hhead hthird
  obtain rfl : line = row := Option.some.inj (Except.ok.inj hthird)
  exact ⟨htitle, hrows, by decide +kernel, (hletters row List.mem_cons_self).1, heading, rule,
    hplain, hcoloured, Option.some.inj (Except.ok.inj hhead)⟩

end TruthTable

end Sentential
