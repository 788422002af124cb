import Sentential.Proofs.MatchedPairs

/-!
# Outer pairs and enclosed characters

`Source.Partners` relates an opening parenthesis to the closing one that belongs to it. In a
balanced text a character stands at depth zero exactly if no such pair encloses it
(`Balanced.outside_or_enclosed`), so that the scan for top-level characters selects exactly the
characters that are enclosed by no pair (`Source.Holds.mem_topLevel_iff`), and a balanced window
falls apart into balanced windows wherever it is cut at such characters
(`Source.Holds.balanced_windowsBetween`).

A balanced window that begins and ends with a parenthesis can lose both of them exactly if they are
partners; otherwise the check of its inside stops at the partner of the first one.
`outer_parens_decided` states this with what the scan selects in either case.
-/

namespace Sentential

/-! ## Enclosed characters of a text -/

/-- A character outside of all groups has a balanced text before it, and one inside of a group has
not. -/
theorem Balanced.outside_or_enclosed {cs : List Char} (h : Balanced cs) :
    ∀ {as bs : List Char} {c : Char}, IsPlain c → cs = as ++ c :: bs →
      Balanced as ∨ ∃ xs ys zs ws, as = xs ++ openParen :: ys ∧ bs = zs ++ closeParen :: ws ∧
        Balanced (ys ++ c :: zs) := by
  induction h using Balanced.induction with
  | nil =>
      intro as bs c _ hsplit
      exact absurd hsplit.symm (List.append_ne_nil_of_right_ne_nil as (List.cons_ne_nil c bs))
  | plain d cs hd _ ih =>
      intro as bs c hc hsplit
      cases as with
      | nil => exact Or.inl rfl
      | cons a as =>
          rw [List.cons_append, List.cons.injEq] at hsplit
          obtain ⟨rfl, hsplit⟩ := hsplit
          rcases ih hc hsplit with has | ⟨xs, ys, zs, ws, rfl, rfl, henclosed⟩
          · exact Or.inl ((balanced_cons_iff hd as).2 has)
          · exact Or.inr ⟨d :: xs, ys, zs, ws, rfl, rfl, henclosed⟩
  | group inner rest hinner _ _ ih =>
      intro as bs c hc hsplit
      cases as with
      | nil =>
          rw [List.nil_append, List.cons_append, List.cons.injEq] at hsplit
          exact absurd hsplit.1.symm hc.1
      | cons a as =>
          rw [List.cons_append, List.cons_append, List.cons.injEq] at hsplit
          obtain ⟨rfl, hsplit⟩ := hsplit
          -- the character stands behind the closing parenthesis of the group, or inside of the
          -- group
          rcases List.append_eq_append_iff.1 hsplit with ⟨as', rfl, hrest⟩ | ⟨zs, rfl, hclose⟩
          · cases as' with
            | nil =>
                rw [List.nil_append, List.cons.injEq] at hrest
                exact absurd hrest.1.symm hc.2
            | cons a as' =>
                rw [List.cons_append, List.cons.injEq] at hrest
                obtain ⟨rfl, hrest⟩ := hrest
                rcases ih hc hrest with has | ⟨xs, ys, zs, ws, rfl, rfl, henclosed⟩
                · exact Or.inl (hinner.group_append has)
                · refine Or.inr
                    ⟨openParen :: inner ++ closeParen :: xs, ys, zs, ws, ?_, rfl, henclosed⟩
                  simp only [List.cons_append, List.append_assoc]
          · cases zs with
            | nil =>
                rw [List.nil_append, List.cons.injEq] at hclose
                exact absurd hclose.1 hc.2
            | cons z zs =>
                rw [List.cons_append, List.cons.injEq] at hclose
                obtain ⟨rfl, rfl⟩ := hclose
                exact Or.inr ⟨[], as, zs, rest, rfl, rfl, hinner⟩

/-- An opening parenthesis whose group is not closed yet keeps a text from being balanced. -/
theorem not_balanced_of_enclosed {ys zs : List Char} (h : Balanced (ys ++ zs)) (xs : List Char) :
    ¬Balanced (xs ++ openParen :: ys) := by
  intro hopen
  obtain ⟨d, -, hys⟩ := exists_depthAfter_left hopen
  obtain ⟨e, he, -⟩ := exists_depthAfter_left h
  have hdeep := depthAfter_add he (d + 1)
  rw [depthAfter_open] at hys
  rw [Nat.zero_add, hys, Option.some.injEq] at hdeep
  omega

/-! ## What the scan for top-level characters selects -/

/-- The selected characters are those with a text of depth zero before them. -/
theorem mem_topLevelFrom_iff {position depth i : Nat} {c : Char} {cs : List Char}
    (h : depthAfter depth cs = some 0) :
    (i, c) ∈ topLevelFrom position depth cs ↔
      ∃ as bs, cs = as ++ c :: bs ∧ i = position + as.length ∧ IsPlain c ∧
        depthAfter depth as = some 0 := by
  constructor
  · intro hmem
    -- select this one character only
    have hne : (topLevelFrom position depth cs).filterMap
        (fun mark => if mark = (i, c) then some mark else none) ≠ [] := by
      intro hnil
      have := List.filterMap_eq_nil_iff.1 hnil (i, c) hmem
      rw [if_pos rfl] at this
      cases this
    obtain ⟨b, rest, hfilter⟩ := List.exists_cons_of_ne_nil hne
    obtain ⟨as, d, bs, hsplit, has, hd, -, hb, -, -⟩ := topLevelFrom_filterMap_cons h hfilter
    split at hb
    · next heq =>
        rw [Prod.mk.injEq] at heq
        obtain ⟨rfl, rfl⟩ := heq
        exact ⟨as, bs, hsplit, rfl, hd, has⟩
    · cases hb
  · rintro ⟨as, bs, rfl, rfl, hc, has⟩
    rw [topLevelFrom_append has, topLevelFrom_plain_zero hc]
    exact List.mem_append_right _ List.mem_cons_self

/-- Characters are selected from left to right. -/
theorem pairwise_topLevelFrom (position depth : Nat) (cs : List Char) :
    (topLevelFrom position depth cs).Pairwise fun mark mark' => mark.1 < mark'.1 := by
  induction cs generalizing position depth with
  | nil => exact .nil
  | cons c rest ih =>
      rcases paren_cases c with rfl | rfl | hc
      · rw [topLevelFrom_open]
        exact ih _ _
      · rw [topLevelFrom_close]
        exact ih _ _
      · cases depth with
        | zero =>
            rw [topLevelFrom_plain_zero hc]
            refine List.Pairwise.cons ?_ (ih _ _)
            intro mark hmark
            exact (topLevelFrom_bounds hmark).1
        | succ d =>
            rw [topLevelFrom_plain_succ hc]
            exact ih _ _

/-! ## Texts in outer parentheses -/

section Outer

variable {inner : List Char}

/-- Inside of the outer parentheses of a balanced text no group can stay open. -/
theorem Balanced.inner_eq_zero {depth : Nat} (h : Balanced (openParen :: inner ++ [closeParen]))
    (hinner : depthAfter 0 inner = some depth) : depth = 0 := by
  rw [Balanced, List.cons_append, depthAfter_open, depthAfter_append, depthAfter_add hinner 1,
    Option.bind_some, depthAfter_close_succ] at h
  exact Option.some.inj h

/-- The inside is balanced exactly if more parentheses are opened than closed everywhere between the
outer ones. -/
theorem Balanced.inner_iff (h : Balanced (openParen :: inner ++ [closeParen])) :
    Balanced inner ↔ ∀ k, 0 < k → k < (openParen :: inner ++ [closeParen]).length →
      ((openParen :: inner ++ [closeParen]).take k).count closeParen <
        ((openParen :: inner ++ [closeParen]).take k).count openParen := by
  constructor
  · intro hinner k hpos hlt
    obtain ⟨j, rfl⟩ := Nat.exists_eq_succ_of_ne_zero (Nat.ne_of_gt hpos)
    have hj : j ≤ inner.length := by
      simp only [List.length_append, List.length_cons, List.length_nil] at hlt
      omega
    have hle := count_take_le hinner j
    rw [List.cons_append, List.take_succ_cons, List.take_append_of_le_length hj,
      List.count_cons_self, List.count_cons_of_ne (by decide)]
    omega
  · intro hprefix
    cases hdepth : depthAfter 0 inner with
    | some depth =>
        rw [h.inner_eq_zero hdepth] at hdepth
        exact hdepth
    | none =>
        -- up to the partner of the first parenthesis as many are closed as opened
        obtain ⟨as, bs, rfl, has⟩ := exists_close_of_none hdepth
        have hlt := hprefix (as.length + 2) (Nat.succ_pos _) (by
          simp only [List.length_append, List.length_cons, List.length_nil]
          omega)
        have htake : (openParen :: (as ++ closeParen :: bs) ++ [closeParen]).take (as.length + 2) =
            openParen :: as ++ [closeParen] := by
          rw [List.cons_append, List.take_succ_cons, List.append_assoc, List.take_length_add_append]
          rfl
        rw [htake] at hlt
        exact absurd has.group.count_eq (Nat.ne_of_lt hlt)

end Outer

/-! ## Windows -/

/-- The windows that are left of a range if the characters at some positions are cut out. -/
def windowsBetween (start stop : Nat) : List Nat → List Window
  | [] => [⟨start, stop⟩]
  | p :: rest => ⟨start, p⟩ :: windowsBetween (p + 1) stop rest

namespace Source

/-- An opening and a closing parenthesis that belong together: the parentheses between them
match. -/
structure Partners (text : Source) (l r : Nat) : Prop where
  lt : l < r
  opening : text.chars[l]? = some openParen
  closing : text.chars[r]? = some closeParen
  between : Matched (parentheses (text.slice ⟨l + 1, r⟩))

variable {text : Source} {w : Window} {cs : List Char}

/-- A group in the text of a window has its parentheses as partners. -/
theorem Holds.partners {as inner bs : List Char}
    (h : text.Holds w (as ++ openParen :: (inner ++ closeParen :: bs))) (hinner : Balanced inner) :
    text.Partners (w.start + as.length) (w.start + as.length + 1 + inner.length) := by
  have htail : text.Holds ⟨w.start + as.length + 1, w.stop⟩ (inner ++ closeParen :: bs) := h.tail
  refine ⟨by omega, h.getElem?_middle, htail.getElem?_middle, ?_⟩
  rw [htail.left.slice_eq]
  exact matched_parentheses_iff.2 hinner

/-- A character of a text, with what stands before and after it. -/
theorem exists_append_of_getElem? {i : Nat} {c : Char} (h : cs[i]? = some c) :
    ∃ as bs, cs = as ++ c :: bs ∧ as.length = i := by
  obtain ⟨hi, rfl⟩ := List.getElem?_eq_some_iff.1 h
  refine ⟨cs.take i, cs.drop (i + 1), ?_, List.length_take_of_le (Nat.le_of_lt hi)⟩
  rw [List.getElem_cons_drop, List.take_append_drop]

/-- Partners in a window enclose a group of its text. -/
theorem Partners.exists_group {l r : Nat} (hp : text.Partners l r) (h : text.Holds w cs)
    (hl : w.start ≤ l) (hr : r < w.stop) :
    ∃ as inner bs, cs = as ++ openParen :: (inner ++ closeParen :: bs) ∧ Balanced inner ∧
      l = w.start + as.length ∧ r = l + 1 + inner.length := by
  have hstop := h.stop_eq
  have hlt := hp.lt
  obtain ⟨i, rfl⟩ := Nat.exists_eq_add_of_le hl
  have hopen := hp.opening
  rw [h.getElem?_add (by omega)] at hopen
  obtain ⟨as, rest, rfl, rfl⟩ := exists_append_of_getElem? hopen
  have htail : text.Holds ⟨w.start + as.length + 1, w.stop⟩ rest := h.tail
  obtain ⟨j, rfl⟩ := Nat.exists_eq_add_of_le hlt
  have hclose := hp.closing
  have htailStop := htail.stop_eq
  have hget := htail.getElem?_add (i := j) (by
    simp only at htailStop
    omega)
  rw [hget] at hclose
  obtain ⟨inner, bs, rfl, rfl⟩ := exists_append_of_getElem? hclose
  have hbetween := hp.between
  rw [htail.left.slice_eq] at hbetween
  exact ⟨as, inner, bs, rfl, matched_parentheses_iff.1 hbetween, rfl, rfl⟩

/-- The characters that are selected in a balanced window are those that no pair of the window
encloses. -/
theorem Holds.mem_topLevel_iff (h : text.Holds w cs) (hcs : Balanced cs) {i : Nat} {c : Char} :
    (i, c) ∈ text.topLevel w ↔
      w.start ≤ i ∧ i < w.stop ∧ text.chars[i]? = some c ∧ IsPlain c ∧
        ¬∃ l r, w.start ≤ l ∧ r < w.stop ∧ text.Partners l r ∧ l < i ∧ i < r := by
  have hstop := h.stop_eq
  rw [topLevel, h.slice_eq, mem_topLevelFrom_iff hcs]
  constructor
  · rintro ⟨as, bs, rfl, rfl, hc, has⟩
    refine ⟨Nat.le_add_right _ _, ?_, h.getElem?_middle, hc, ?_⟩
    · rw [hstop, List.length_append, List.length_cons]
      omega
    · -- an enclosing pair would be open before the character
      rintro ⟨l, r, hl, hr, hpartners, hli, hir⟩
      obtain ⟨xs, inner, ws, hsplit, hinner, rfl, rfl⟩ := hpartners.exists_group h hl hr
      obtain ⟨k, hk⟩ : ∃ k, as.length = xs.length + (k + 1) := ⟨as.length - xs.length - 1, by omega⟩
      have hbefore : as = xs ++ openParen :: inner.take k := by
        have htake := congrArg (List.take as.length) hsplit
        rwa [List.take_left, hk, List.take_length_add_append, List.take_succ_cons,
          List.take_append_of_le_length (by omega)] at htake
      rw [hbefore] at has
      rw [← List.take_append_drop k inner] at hinner
      exact not_balanced_of_enclosed hinner xs has
  · rintro ⟨hle, hlt, hget, hc, hnone⟩
    obtain ⟨k, rfl⟩ := Nat.exists_eq_add_of_le hle
    rw [h.getElem?_add (by omega)] at hget
    obtain ⟨as, bs, rfl, rfl⟩ := exists_append_of_getElem? hget
    rcases hcs.outside_or_enclosed hc rfl with has | ⟨xs, ys, zs, ws, rfl, rfl, henclosed⟩
    · exact ⟨as, bs, rfl, rfl, hc, has⟩
    · exfalso
      have hgroup : (xs ++ openParen :: ys) ++ c :: (zs ++ closeParen :: ws) =
          xs ++ openParen :: ((ys ++ c :: zs) ++ closeParen :: ws) := by
        simp only [List.append_assoc, List.cons_append]
      rw [hgroup] at h hstop
      simp only [List.length_append, List.length_cons] at hstop
      refine hnone ⟨_, _, Nat.le_add_right _ _, ?_, h.partners henclosed, ?_, ?_⟩
      all_goals
        simp only [List.length_append, List.length_cons]
        omega

/-- The chosen ones among the positions of some characters. -/
theorem filterMap_chosen (chosen : Nat → Bool) (marks : List (Nat × Char)) :
    marks.filterMap (fun mark => if chosen mark.1 then some mark.1 else none) =
      (marks.map Prod.fst).filter chosen := by
  induction marks with
  | nil => rfl
  | cons mark rest ih =>
      cases hchosen : chosen mark.1 with
      | true => simp [hchosen, ih]
      | false => simp [hchosen, ih]

/-- A balanced window falls apart into balanced windows if it is cut at characters that are selected
in it. By induction on the chosen positions: the first of them divides the window into two. -/
theorem Holds.balanced_windowsBetween (chosen : Nat → Bool) {stop : Nat} {positions : List Nat} :
    ∀ {start : Nat} {cs : List Char}, text.Holds ⟨start, stop⟩ cs → Balanced cs →
      (topLevelFrom start 0 cs).filterMap
        (fun mark => if chosen mark.1 then some mark.1 else none) =
        positions →
      ∀ v ∈ windowsBetween start stop positions, start ≤ v.start ∧ v.stop ≤ stop ∧
        ∃ as, text.Holds v as ∧ Balanced as := by
  induction positions with
  | nil =>
      intro start cs h hcs _ v hv
      rw [List.mem_singleton.1 hv]
      exact ⟨Nat.le_refl _, Nat.le_refl _, cs, h, hcs⟩
  | cons p rest ih =>
      intro start cs h hcs hpositions v hv
      obtain ⟨as, c, bs, rfl, has, -, hbs, hp, -, hrest⟩ :=
        topLevelFrom_filterMap_cons hcs hpositions
      obtain rfl : start + as.length = p := by
        split at hp
        · exact Option.some.inj hp
        · cases hp
      have hstop : stop = start + (as ++ c :: bs).length := h.stop_eq
      rw [List.length_append, List.length_cons] at hstop
      rcases List.mem_cons.1 hv with rfl | hv
      · refine ⟨Nat.le_refl _, ?_, as, h.left, has⟩
        show start + as.length ≤ stop
        omega
      · obtain ⟨hle, hrest'⟩ := ih h.tail hbs hrest v hv
        exact ⟨by omega, hrest'⟩

/-- The check of the inside of a balanced window in outer parentheses accepts it, or stops at the
partner of the first parenthesis. -/
theorem Holds.checkWindow_inside {inner : List Char}
    (h : text.Holds w (openParen :: inner ++ [closeParen]))
    (hbal : Balanced (openParen :: inner ++ [closeParen])) :
    (Balanced inner ∧ text.checkWindow (Source.inside w) = .ok ()) ∨
      ∃ p : Nat, ¬Balanced inner ∧ p < w.stop - 1 ∧ text.Partners w.start p ∧
        text.checkWindow (Source.inside w) = .error (.unmatchedClose p) := by
  rw [checkWindow, h.inside.slice_eq]
  rcases checkPairs_cases ((Source.inside w).start : Int) inner with
    ⟨hinner, hcheck⟩ | ⟨as, bs, rfl, has, hcheck⟩ | ⟨-, -, surplus, -, -, hdepth, hpos, -⟩
  · exact Or.inl ⟨hinner, hcheck⟩
  · have hstop := h.stop_eq
    simp only [List.length_append, List.length_cons, List.length_nil] at hstop
    rw [← Int.natCast_add] at hcheck
    have hgroup : openParen :: (as ++ closeParen :: bs) ++ [closeParen] =
        [] ++ openParen :: (as ++ closeParen :: (bs ++ [closeParen])) := by
      simp only [List.nil_append, List.cons_append, List.append_assoc]
    have hpartners := (hgroup ▸ h : text.Holds w _).partners has
    refine Or.inr ⟨_, ?_, ?_, hpartners, hcheck⟩
    · intro hinner
      rw [(checkPairs_eq_ok_iff _ _).2 hinner] at hcheck
      cases hcheck
    · simp only [List.length_nil]
      omega
  · exact absurd (hbal.inner_eq_zero hdepth) (Nat.ne_of_gt hpos)

/-- The text of a window in outer parentheses. -/
theorem exists_inner_of_hasOuterParens (h : text.hasOuterParens w = true) :
    w.start ≤ w.stop ∧ ∃ inner, text.slice w = openParen :: inner ++ [closeParen] := by
  simp only [hasOuterParens, Bool.and_eq_true, beq_iff_eq] at h
  obtain ⟨inner, hinner⟩ := eq_of_outer_parens h.1 h.2
  have hlength := text.length_slice w
  rw [hinner, List.length_append, List.length_cons] at hlength
  exact ⟨by omega, inner, hinner⟩

/-- The outer parentheses of a window are partners exactly if what they enclose is balanced. -/
theorem Holds.partners_outer_iff {inner : List Char}
    (h : text.Holds w (openParen :: inner ++ [closeParen])) :
    text.Partners w.start (w.stop - 1) ↔ Balanced inner := by
  constructor
  · intro hpartners
    have hbetween : Matched (parentheses (text.slice (Source.inside w))) := hpartners.between
    rw [h.inside.slice_eq] at hbetween
    exact matched_parentheses_iff.1 hbetween
  · intro hinner
    have hstop := h.stop_eq
    simp only [List.length_append, List.length_cons, List.length_nil] at hstop
    have hpartners : text.Partners (w.start + ([] : List Char).length)
        (w.start + ([] : List Char).length + 1 + inner.length) := Holds.partners h hinner
    have hlast : w.stop - 1 = w.start + ([] : List Char).length + 1 + inner.length := by
      simp only [List.length_nil]
      omega
    rwa [hlast]

/-- Between the outer parentheses of a window more parentheses are opened than closed exactly if
they enclose a balanced text. -/
theorem Holds.forall_prefix_iff {inner : List Char}
    (h : text.Holds w (openParen :: inner ++ [closeParen]))
    (hbal : Balanced (openParen :: inner ++ [closeParen])) :
    (∀ n, w.start < n → n < w.stop →
        (text.slice ⟨w.start, n⟩).count closeParen < (text.slice ⟨w.start, n⟩).count openParen) ↔
      Balanced inner := by
  have hstop := h.stop_eq
  rw [hbal.inner_iff]
  constructor
  · intro hall k hpos hlt
    have := hall (w.start + k) (by omega) (by omega)
    rwa [h.slice_take (Nat.le_of_lt hlt)] at this
  · intro hall n hle hlt
    obtain ⟨k, rfl⟩ := Nat.exists_eq_add_of_le (Nat.le_of_lt hle)
    rw [h.slice_take (by omega)]
    exact hall k (by omega) (by omega)

/-- Both outer parentheses of a balanced window can be removed exactly if they are partners, that
is, if more parentheses are opened than closed everywhere between them; otherwise the check of the
inside stops at the partner of the first one, and never for want of a closing parenthesis. This
holds for the check that the parser makes of the inside and for the check of the inside as a range,
which are the same. In either case the scan of the window selects, from left to right, the
characters that no pair of the window encloses, and cutting the window at any set of them leaves
balanced windows only. -/
theorem outer_parens_decided (text : Source) {w : Window} (hstop : w.stop ≤ text.size)
    (hmatched : Matched (parentheses (text.slice w))) (houter : text.hasOuterParens w = true) :
    text.checkRange (inside w).start (inside w).stop =
      (text.checkWindow (inside w)).mapError .imbalance ∧
      (text.checkWindow (inside w) = .ok () ↔ text.Partners w.start (w.stop - 1)) ∧
      (text.checkWindow (inside w) = .ok () ↔ ∀ n, w.start < n → n < w.stop →
        (text.slice ⟨w.start, n⟩).count closeParen < (text.slice ⟨w.start, n⟩).count openParen) ∧
      (text.isGroup w = true ↔ text.checkWindow (inside w) = .ok ()) ∧
      (∀ fault, text.checkWindow (inside w) = .error fault →
        ∃ p : Nat, fault = .unmatchedClose p ∧ p < w.stop - 1 ∧ text.Partners w.start p) ∧
      (∀ i c, (i, c) ∈ text.topLevel w ↔
        w.start ≤ i ∧ i < w.stop ∧ text.chars[i]? = some c ∧ IsPlain c ∧
          ¬∃ l r, w.start ≤ l ∧ r < w.stop ∧ text.Partners l r ∧ l < i ∧ i < r) ∧
      ((text.topLevel w).map Prod.fst).Pairwise (· < ·) ∧
      ∀ chosen : Nat → Bool,
        ∀ v ∈ windowsBetween w.start w.stop (((text.topLevel w).map Prod.fst).filter chosen),
          w.start ≤ v.start ∧ v.start ≤ v.stop ∧ v.stop ≤ w.stop ∧
            Matched (parentheses (text.slice v)) := by
  obtain ⟨hw, inner, hslice⟩ := exists_inner_of_hasOuterParens houter
  have hholds := holds_slice hw hstop
  have hbal : Balanced (text.slice w) := matched_parentheses_iff.1 hmatched
  have houterHolds : text.Holds w (openParen :: inner ++ [closeParen]) := by rwa [← hslice]
  have houterBal : Balanced (openParen :: inner ++ [closeParen]) := by rwa [← hslice]
  have hinside : text.checkWindow (inside w) = .ok () ↔ Balanced inner := by
    rw [checkWindow, houterHolds.inside.slice_eq, checkPairs_eq_ok_iff]
  refine ⟨?_, ?_, ?_, ?_, ?_, ?_, ?_, ?_⟩
  · have hend := houterHolds.stop_eq
    simp only [List.length_append, List.length_cons, List.length_nil] at hend
    apply checkRange_eq
    · show w.start + 1 ≤ w.stop - 1
      omega
    · exact Nat.le_trans (Nat.sub_le _ _) hstop
  · rw [hinside, houterHolds.partners_outer_iff]
  · rw [hinside, houterHolds.forall_prefix_iff houterBal]
  · rw [isGroup, houter, Bool.true_and, checkWindow, isOk_checkPairs_iff, checkPairs_eq_ok_iff]
  · intro fault hfault
    rcases houterHolds.checkWindow_inside houterBal with ⟨-, hcheck⟩ | ⟨p, -, hp, hpartners, hcheck⟩
    · rw [hcheck] at hfault
      cases hfault
    · rw [hcheck] at hfault
      cases hfault
      exact ⟨p, rfl, hp, hpartners⟩
  · intro i c
    exact hholds.mem_topLevel_iff hbal
  · rw [List.pairwise_map]
    exact pairwise_topLevelFrom _ _ _
  · intro chosen v hv
    have hpositions := filterMap_chosen chosen (text.topLevel w)
    rw [topLevel] at hpositions
    obtain ⟨hstart, hend, as, hv, has⟩ := hholds.balanced_windowsBetween chosen hbal hpositions v hv
    refine ⟨hstart, ?_, hend, ?_⟩
    · rw [hv.stop_eq]
      exact Nat.le_add_right _ _
    · rw [hv.slice_eq]
      exact matched_parentheses_iff.2 has

/-- Adjacent groups: the outer parentheses belong to different pairs, the check of the inside stops
at the partner of the first one, and the conjunction and the blanks beside it are enclosed by no
pair. -/
theorem outer_parens_decided_adjacent :
    let text := ofString "(p) ∧ ((q))"
    let w : Window := ⟨0, 11⟩
    w.stop ≤ text.size ∧ Matched (parentheses (text.slice w)) ∧ text.hasOuterParens w = true ∧
      ¬text.Partners 0 10 ∧ text.checkRange 1 10 = .error (.imbalance (.unmatchedClose 2)) ∧
      text.Partners 0 2 ∧ text.topLevel w = [(3, ' '), (4, '∧'), (5, ' ')] ∧
      ¬(∃ l r, text.Partners l r ∧ l < 4 ∧ 4 < r ∧ r < 11) ∧
      ∀ v ∈ windowsBetween 0 11 [4], Matched (parentheses (text.slice v)) := by
  intro text w
  have hstop : w.stop ≤ text.size := by decide
  have hcheck : text.checkWindow w = .ok () := by decide +kernel
  have hmatched := checkWindow_eq_ok_iff.1 hcheck
  have houter : text.hasOuterParens w = true := by decide +kernel
  have hinside : text.checkWindow (inside w) = .error (.unmatchedClose 2) := by decide +kernel
  have htop : text.topLevel w = [(3, ' '), (4, '∧'), (5, ' ')] := by decide +kernel
  obtain ⟨hrange, hpartners, -, -, hfault, hmem, -, hcut⟩ :=
    outer_parens_decided text hstop hmatched houter
  have hfirst : text.Partners 0 2 := by
    obtain ⟨p, hp, -, hpartner⟩ := hfault _ hinside
    cases hp
    exact hpartner
  refine ⟨hstop, hmatched, houter, ?_, ?_, hfirst, htop, ?_, ?_⟩
  · intro hlast
    rw [hpartners.2 hlast] at hinside
    cases hinside
  · rw [hinside] at hrange
    exact hrange
  · rintro ⟨l, r, hlr, hl, hr, hend⟩
    have hselected : (4, '∧') ∈ text.topLevel w := by
      rw [htop]
      decide
    exact ((hmem 4 '∧').1 hselected).2.2.2.2 ⟨l, r, Nat.zero_le l, hend, hlr, hl, hr⟩
  · intro v hv
    have hchosen := hcut (· == 4) v
    rw [htop] at hchosen
    exact (hchosen hv).2.2.2

end Source

end Sentential
