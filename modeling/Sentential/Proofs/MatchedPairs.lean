import Mathlib.Data.List.Basic
import Mathlib.Order.Bounds.Basic
import Sentential.Proofs.Reading

/-!
# Matched parentheses

`Matched` is the grammar of matched parentheses, `S ::= empty | ( S ) S`. The check for balance
counts open parentheses along a text; it accepts a text exactly if the parentheses in it form a word
of this grammar (`matched_parentheses_iff`). This rests on the first closing parenthesis at which a
walk falls back below the depth it began at (`exists_close`), which also divides balanced texts for
an induction (`Balanced.induction`).

`checkPairs_cases` says once what the check of a text can answer, and `Source.checkWindow_cases`
says the same in terms of counts: a closing parenthesis is reported at the least position up to
which more parentheses are closed than opened, and if there is none, the surplus of opening ones is
reported with the position of the last of them. `checkRange_decides` assembles this for every range
of a text.
-/

namespace Sentential

/-! ## The grammar -/

/-- The words of matched parentheses. -/
inductive Matched : List Char → Prop
  | nil : Matched []
  | group {inner rest : List Char} :
      Matched inner → Matched rest → Matched (openParen :: inner ++ closeParen :: rest)

/-- The parentheses of a text, with all other characters erased. -/
def parentheses (cs : List Char) : List Char :=
  cs.filter fun c => c = openParen ∨ c = closeParen

theorem parentheses_open (cs : List Char) :
    parentheses (openParen :: cs) = openParen :: parentheses cs := by
  simp [parentheses]

theorem parentheses_close (cs : List Char) :
    parentheses (closeParen :: cs) = closeParen :: parentheses cs := by
  simp [parentheses]

theorem parentheses_plain {c : Char} (hc : IsPlain c) (cs : List Char) :
    parentheses (c :: cs) = parentheses cs := by
  simp [parentheses, hc.1, hc.2]

theorem parentheses_append (as bs : List Char) :
    parentheses (as ++ bs) = parentheses as ++ parentheses bs :=
  List.filter_append as bs

/-- Only parentheses matter for the depth. -/
theorem depthAfter_parentheses (depth : Nat) (cs : List Char) :
    depthAfter depth (parentheses cs) = depthAfter depth cs := by
  induction cs generalizing depth with
  | nil => rfl
  | cons c rest ih =>
      rcases paren_cases c with rfl | rfl | hc
      · rw [parentheses_open, depthAfter_open, depthAfter_open, ih]
      · rw [parentheses_close]
        cases depth with
        | zero => rw [depthAfter_close_zero, depthAfter_close_zero]
        | succ d => rw [depthAfter_close_succ, depthAfter_close_succ, ih]
      · rw [parentheses_plain hc, depthAfter_plain hc, ih]

/-! ## Partners -/

/-- A walk that begins inside of `depth` groups, with `outer` more around them, and that does not
end inside of all the outer ones, passes a closing parenthesis at which all of the `depth` groups
have been closed. -/
theorem exists_close (outer : Nat) {cs : List Char} : ∀ depth : Nat,
    (∀ d, depthAfter (depth + outer) cs = some d → d < outer) →
    ∃ as bs, cs = as ++ closeParen :: bs ∧ depthAfter depth as = some 0 := by
  induction cs with
  | nil =>
      intro depth h
      have := h (depth + outer) rfl
      omega
  | cons c rest ih =>
      intro depth h
      rcases paren_cases c with rfl | rfl | hc
      · rw [depthAfter_open, Nat.add_right_comm] at h
        obtain ⟨as, bs, rfl, has⟩ := ih _ h
        exact ⟨openParen :: as, bs, rfl, by rwa [depthAfter_open]⟩
      · cases depth with
        | zero => exact ⟨[], rest, rfl, rfl⟩
        | succ d =>
            rw [Nat.add_right_comm, depthAfter_close_succ] at h
            obtain ⟨as, bs, rfl, has⟩ := ih _ h
            exact ⟨closeParen :: as, bs, rfl, by rwa [depthAfter_close_succ]⟩
      · rw [depthAfter_plain hc] at h
        obtain ⟨as, bs, rfl, has⟩ := ih _ h
        exact ⟨c :: as, bs, rfl, by rwa [depthAfter_plain hc]⟩

/-- A walk without a depth has passed a closing parenthesis without a partner. -/
theorem exists_close_of_none {cs : List Char} (h : depthAfter 0 cs = none) :
    ∃ as bs, cs = as ++ closeParen :: bs ∧ Balanced as := by
  apply exists_close 0 0
  intro d hd
  rw [h] at hd
  cases hd

/-- The group that a balanced text begins with, and the text after it. -/
theorem Balanced.exists_group {rest : List Char} (h : Balanced (openParen :: rest)) :
    ∃ inner after, rest = inner ++ closeParen :: after ∧ Balanced inner ∧ Balanced after := by
  rw [Balanced, depthAfter_open] at h
  have hone : ∀ d, depthAfter (0 + 1) rest = some d → d < 1 := by
    intro d hd
    rw [h] at hd
    cases hd
    exact Nat.zero_lt_one
  obtain ⟨inner, after, rfl, hinner⟩ := exists_close 1 0 hone
  refine ⟨inner, after, rfl, hinner, ?_⟩
  rwa [depthAfter_append, Balanced.depthAfter_eq hinner, Option.bind_some,
    depthAfter_close_succ] at h

theorem Balanced.group_append {inner rest : List Char} (hinner : Balanced inner)
    (hrest : Balanced rest) : Balanced (openParen :: inner ++ closeParen :: rest) := by
  have := hinner.group.append hrest
  rwa [List.append_assoc] at this

/-- Induction on balanced texts: nothing, another character first, or a group first. -/
theorem Balanced.induction {motive : (cs : List Char) → Balanced cs → Prop} (nil : motive [] rfl)
    (plain : ∀ (c : Char) (cs : List Char) (hc : IsPlain c) (h : Balanced cs), motive cs h →
      motive (c :: cs) ((balanced_cons_iff hc cs).2 h))
    (group : ∀ (inner rest : List Char) (hinner : Balanced inner) (hrest : Balanced rest),
      motive inner hinner → motive rest hrest →
        motive (openParen :: inner ++ closeParen :: rest) (hinner.group_append hrest))
    {cs : List Char} (h : Balanced cs) : motive cs h := by
  induction hn : cs.length using Nat.strongRecOn generalizing cs with
  | ind n ih =>
      subst hn
      cases cs with
      | nil => exact nil
      | cons c rest =>
          rcases paren_cases c with rfl | rfl | hc
          · obtain ⟨inner, after, rfl, hinner, hafter⟩ := h.exists_group
            refine group inner after hinner hafter (ih _ ?_ hinner rfl) (ih _ ?_ hafter rfl)
            all_goals
              simp only [List.length_cons, List.length_append]
              omega
          · rw [Balanced, depthAfter_close_zero] at h
            cases h
          · exact plain c rest hc ((balanced_cons_iff hc rest).1 h)
              (ih _ (Nat.lt_succ_self _) _ rfl)

/-- A text is balanced exactly if its parentheses form a word of the grammar. -/
theorem matched_parentheses_iff {cs : List Char} : Matched (parentheses cs) ↔ Balanced cs := by
  constructor
  · have hbalanced : ∀ {ps : List Char}, Matched ps → Balanced ps := by
      intro ps h
      induction h with
      | nil => rfl
      | group _ _ ihinner ihrest => exact ihinner.group_append ihrest
    intro h
    have := hbalanced h
    rwa [Balanced, depthAfter_parentheses] at this
  · intro h
    induction h using Balanced.induction with
    | nil => exact .nil
    | plain c cs hc h ih => rwa [parentheses_plain hc]
    | group inner rest _ _ ihinner ihrest =>
        rw [List.cons_append, parentheses_open, parentheses_append, parentheses_close]
        exact .group ihinner ihrest

/-! ## Counts -/

/-- The depth counts the parentheses that have been opened and not closed. -/
theorem depthAfter_count {depth depth' : Nat} {cs : List Char}
    (h : depthAfter depth cs = some depth') :
    depth' + cs.count closeParen = depth + cs.count openParen := by
  induction cs generalizing depth with
  | nil =>
      cases h
      rfl
  | cons c rest ih =>
      rcases paren_cases c with rfl | rfl | hc
      · rw [depthAfter_open] at h
        rw [List.count_cons_self, List.count_cons_of_ne (by decide), ih h]
        omega
      · cases depth with
        | zero => simp [depthAfter_close_zero] at h
        | succ d =>
            rw [depthAfter_close_succ] at h
            rw [List.count_cons_self, List.count_cons_of_ne (by decide)]
            have := ih h
            omega
      · rw [depthAfter_plain hc] at h
        rw [List.count_cons_of_ne hc.1, List.count_cons_of_ne hc.2, ih h]

/-- A text that has a depth has one after each of its beginnings. -/
theorem exists_depthAfter_left {depth depth' : Nat} {as bs : List Char}
    (h : depthAfter depth (as ++ bs) = some depth') :
    ∃ d, depthAfter depth as = some d ∧ depthAfter d bs = some depth' := by
  rw [depthAfter_append] at h
  exact Option.bind_eq_some_iff.1 h

/-- While a text has a depth, no more parentheses have been closed than there were. -/
theorem count_take_le {depth depth' : Nat} {cs : List Char} (h : depthAfter depth cs = some depth')
    (n : Nat) : (cs.take n).count closeParen ≤ depth + (cs.take n).count openParen := by
  rw [← List.take_append_drop n cs] at h
  obtain ⟨d, hd, -⟩ := exists_depthAfter_left h
  have := depthAfter_count hd
  omega

theorem Balanced.count_eq {cs : List Char} (h : Balanced cs) :
    cs.count closeParen = cs.count openParen := by
  have := depthAfter_count h
  omega

/-! ## What the check of a text answers -/

section Scan

variable {position : Int} {groups groups' : OpenParens} {cs : List Char}

theorem scan_open (cs : List Char) :
    scan position groups (openParen :: cs) =
      scan (position + 1) ⟨groups.depth + 1, position⟩ cs := by
  rw [scan, if_pos rfl]

theorem scan_close_zero (h : groups.depth = 0) (cs : List Char) :
    scan position groups (closeParen :: cs) = .error (.unmatchedClose position) := by
  rw [scan, if_neg (by decide), if_pos rfl, h]

theorem scan_close_succ {depth : Nat} {lastOpen : Int} (cs : List Char) :
    scan position ⟨depth + 1, lastOpen⟩ (closeParen :: cs) =
      scan (position + 1) ⟨depth, lastOpen⟩ cs := by
  rw [scan, if_neg (by decide), if_pos rfl]

theorem scan_plain {c : Char} (hc : IsPlain c) (cs : List Char) :
    scan position groups (c :: cs) = scan (position + 1) groups cs := by
  rw [scan, if_neg hc.1, if_neg hc.2]

/-- A scan that has passed the beginning of a text goes on with the rest of it. -/
theorem scan_append {as : List Char} (h : scan position groups as = .ok groups') (bs : List Char) :
    scan position groups (as ++ bs) = scan (position + as.length) groups' bs := by
  induction as generalizing position groups with
  | nil =>
      cases h
      rw [List.nil_append, List.length_nil, Int.natCast_zero, Int.add_zero]
  | cons c rest ih =>
      have hlen : position + ((c :: rest).length : Int) = position + 1 + (rest.length : Int) := by
        rw [List.length_cons]
        omega
      rw [List.cons_append, hlen]
      rcases paren_cases c with rfl | rfl | hc
      · rw [scan_open] at h ⊢
        exact ih h
      · obtain ⟨depth, lastOpen⟩ := groups
        cases depth with
        | zero =>
            rw [scan_close_zero rfl] at h
            cases h
        | succ d =>
            rw [scan_close_succ] at h ⊢
            exact ih h
      · rw [scan_plain hc] at h ⊢
        exact ih h

/-- A text that has a depth is scanned to its end. -/
theorem exists_scan_of_depthAfter {depth : Nat} (groups : OpenParens)
    (h : depthAfter groups.depth cs = some depth) (position : Int) :
    ∃ groups', scan position groups cs = .ok groups' ∧ groups'.depth = depth := by
  rw [← depth_scan position] at h
  cases hscan : scan position groups cs with
  | error fault =>
      rw [hscan] at h
      cases h
  | ok groups' =>
      rw [hscan] at h
      exact ⟨groups', rfl, Option.some.inj h⟩

/-- A scan remembers the last opening parenthesis that it has passed. -/
theorem lastOpen_scan (h : scan position groups cs = .ok groups') :
    openParen ∉ cs ∧ groups'.lastOpen = groups.lastOpen ∨
      ∃ as bs, cs = as ++ openParen :: bs ∧ openParen ∉ bs ∧
        groups'.lastOpen = position + as.length := by
  induction cs generalizing position groups with
  | nil =>
      cases h
      exact Or.inl ⟨List.not_mem_nil, rfl⟩
  | cons c rest ih =>
      -- a character before the last opening parenthesis of the rest
      have extend (as bs : List Char) (hrest : rest = as ++ openParen :: bs) (hbs : openParen ∉ bs)
          (hlast : groups'.lastOpen = position + 1 + as.length) :
          ∃ as bs, c :: rest = as ++ openParen :: bs ∧ openParen ∉ bs ∧
            groups'.lastOpen = position + as.length := by
        refine ⟨c :: as, bs, by rw [hrest, List.cons_append], hbs, ?_⟩
        rw [hlast, List.length_cons]
        omega
      rcases paren_cases c with rfl | rfl | hc
      · rw [scan_open] at h
        rcases ih h with ⟨hnone, hlast⟩ | ⟨as, bs, hrest, hbs, hlast⟩
        · exact Or.inr ⟨[], rest, rfl, hnone, by simpa using hlast⟩
        · exact Or.inr (extend as bs hrest hbs hlast)
      · obtain ⟨depth, lastOpen⟩ := groups
        cases depth with
        | zero =>
            rw [scan_close_zero rfl] at h
            cases h
        | succ d =>
            rw [scan_close_succ] at h
            rcases ih h with ⟨hnone, hlast⟩ | ⟨as, bs, hrest, hbs, hlast⟩
            · exact Or.inl ⟨List.not_mem_cons_of_ne_of_not_mem (by decide) hnone, hlast⟩
            · exact Or.inr (extend as bs hrest hbs hlast)
      · rw [scan_plain hc] at h
        rcases ih h with ⟨hnone, hlast⟩ | ⟨as, bs, hrest, hbs, hlast⟩
        · exact Or.inl ⟨List.not_mem_cons_of_ne_of_not_mem hc.1.symm hnone, hlast⟩
        · exact Or.inr (extend as bs hrest hbs hlast)

end Scan

/-- The check of a text accepts it, stops at the first closing parenthesis without a partner, or
reports how many groups are open at the end and where the last opening parenthesis stands. -/
theorem checkPairs_cases (start : Int) (cs : List Char) :
    (Balanced cs ∧ checkPairs start cs = .ok ()) ∨
      (∃ as bs, cs = as ++ closeParen :: bs ∧ Balanced as ∧
        checkPairs start cs = .error (.unmatchedClose (start + as.length))) ∨
      ∃ as bs surplus, cs = as ++ openParen :: bs ∧ openParen ∉ bs ∧
        depthAfter 0 cs = some surplus ∧ 0 < surplus ∧
        checkPairs start cs = .error (.unmatchedOpen surplus (start + as.length)) := by
  cases hdepth : depthAfter 0 cs with
  | none =>
      obtain ⟨as, bs, rfl, has⟩ := exists_close_of_none hdepth
      obtain ⟨groups, hscan, hzero⟩ := exists_scan_of_depthAfter ⟨0, start⟩ has start
      refine Or.inr (Or.inl ⟨as, bs, rfl, has, ?_⟩)
      rw [checkPairs, scan_append hscan, scan_close_zero hzero]
      rfl
  | some surplus =>
      cases surplus with
      | zero => exact Or.inl ⟨hdepth, (checkPairs_eq_ok_iff start cs).2 hdepth⟩
      | succ n =>
          obtain ⟨groups, hscan, hdepth'⟩ :=
            exists_scan_of_depthAfter ⟨0, start⟩ hdepth start
          rcases lastOpen_scan hscan with ⟨hnone, -⟩ | ⟨as, bs, hsplit, hbs, hlast⟩
          · -- without opening parentheses none could be open
            have hcount := depthAfter_count hdepth
            rw [List.count_eq_zero.2 hnone] at hcount
            omega
          · refine Or.inr (Or.inr ⟨as, bs, n + 1, hsplit, hbs, rfl, Nat.succ_pos n, ?_⟩)
            rw [checkPairs, hscan, ← hlast, ← hdepth']
            show groups.close = _
            rw [OpenParens.close, if_neg (by omega)]

/-! ## Windows -/

namespace Source

/-- The positions of a window up to which more parentheses are closed than opened. -/
def overclosed (text : Source) (w : Window) : Set Nat :=
  {p | w.start ≤ p ∧ p < w.stop ∧
    (text.slice ⟨w.start, p + 1⟩).count openParen < (text.slice ⟨w.start, p + 1⟩).count closeParen}

/-- The positions of the opening parentheses of a window. -/
def openings (text : Source) (w : Window) : Set Nat :=
  {p | w.start ≤ p ∧ p < w.stop ∧ text.chars[p]? = some openParen}

variable {text : Source} {w : Window} {cs : List Char}

/-- The beginning of a window holds the beginning of its text. -/
theorem Holds.slice_take (h : text.Holds w cs) {n : Nat} (hn : n ≤ cs.length) :
    text.slice ⟨w.start, w.start + n⟩ = cs.take n := by
  have hsplit : text.Holds ⟨w.start, w.stop⟩ (cs.take n ++ cs.drop n) := by
    rwa [List.take_append_drop]
  have := hsplit.left.slice_eq
  rwa [List.length_take_of_le hn] at this

theorem Holds.getElem?_add (h : text.Holds w cs) {i : Nat} (hi : i < cs.length) :
    text.chars[w.start + i]? = cs[i]? := by
  obtain ⟨before, after, hchars, hbefore⟩ := h.context
  rw [← Array.getElem?_toList, hchars, ← hbefore, List.append_assoc,
    List.getElem?_append_right (Nat.le_add_right _ _), Nat.add_sub_cancel_left,
    List.getElem?_append_left hi]

/-- The character behind the beginning of the text of a window. -/
theorem Holds.getElem?_middle {as bs : List Char} {c : Char} (h : text.Holds w (as ++ c :: bs)) :
    text.chars[w.start + as.length]? = some c := by
  rw [h.getElem?_add (by simp), List.getElem?_append_right (Nat.le_refl _), Nat.sub_self]
  rfl

theorem Holds.mem_overclosed_iff (h : text.Holds w cs) {i : Nat} :
    w.start + i ∈ text.overclosed w ↔
      i < cs.length ∧ (cs.take (i + 1)).count openParen < (cs.take (i + 1)).count closeParen := by
  have hlt : w.start + i < w.stop ↔ i < cs.length := by
    rw [h.stop_eq]
    omega
  rw [overclosed, Set.mem_ofPred_eq, hlt]
  constructor
  · rintro ⟨-, hi, hcount⟩
    rw [Nat.add_assoc, h.slice_take hi] at hcount
    exact ⟨hi, hcount⟩
  · rintro ⟨hi, hcount⟩
    rw [Nat.add_assoc, h.slice_take hi]
    exact ⟨Nat.le_add_right _ _, hi, hcount⟩

/-- Up to a closing parenthesis without a partner, and not before, more parentheses are closed than
opened. -/
theorem Holds.isLeast_overclosed {as bs : List Char} (h : text.Holds w (as ++ closeParen :: bs))
    (has : Balanced as) : IsLeast (text.overclosed w) (w.start + as.length) := by
  constructor
  · rw [h.mem_overclosed_iff, List.take_length_add_append]
    refine ⟨by simp, ?_⟩
    have := has.count_eq
    simp only [List.take_succ_cons, List.take_zero, List.count_append, List.count_singleton_self]
    rw [List.count_cons_of_ne (by decide), List.count_nil]
    omega
  · rintro p hp
    obtain ⟨i, rfl⟩ := Nat.exists_eq_add_of_le hp.1
    rw [h.mem_overclosed_iff] at hp
    by_contra hlt
    have hle : i + 1 ≤ as.length := by omega
    have := count_take_le has (i + 1)
    rw [List.take_append_of_le_length hle] at hp
    omega

theorem Holds.overclosed_eq_empty (h : text.Holds w cs) {depth : Nat}
    (hdepth : depthAfter 0 cs = some depth) : text.overclosed w = ∅ := by
  rw [Set.eq_empty_iff_forall_notMem]
  intro p hp
  obtain ⟨i, rfl⟩ := Nat.exists_eq_add_of_le hp.1
  rw [h.mem_overclosed_iff] at hp
  have := count_take_le hdepth (i + 1)
  omega

theorem Holds.isGreatest_openings {as bs : List Char} (h : text.Holds w (as ++ openParen :: bs))
    (hbs : openParen ∉ bs) : IsGreatest (text.openings w) (w.start + as.length) := by
  have hstop := h.stop_eq
  rw [List.length_append, List.length_cons] at hstop
  constructor
  · exact ⟨Nat.le_add_right _ _, by omega, h.getElem?_middle⟩
  · rintro p ⟨hle, hlt, hp⟩
    obtain ⟨i, rfl⟩ := Nat.exists_eq_add_of_le hle
    by_contra hgt
    -- a later opening parenthesis would stand in the rest
    obtain ⟨k, rfl⟩ : ∃ k, i = as.length + 1 + k := ⟨i - as.length - 1, by omega⟩
    rw [h.getElem?_add (by simp only [List.length_append, List.length_cons]; omega),
      List.getElem?_append_right (by omega)] at hp
    have hindex : as.length + 1 + k - as.length = k + 1 := by omega
    rw [hindex, List.getElem?_cons_succ] at hp
    exact hbs (List.mem_of_getElem? hp)

/-- What the check of a window answers, in terms of counts. -/
theorem checkWindow_cases (hw : w.start ≤ w.stop) (hstop : w.stop ≤ text.size) :
    (Matched (parentheses (text.slice w)) ∧ text.checkWindow w = .ok ()) ∨
      (∃ p : Nat, IsLeast (text.overclosed w) p ∧
        text.checkWindow w = .error (.unmatchedClose p)) ∨
      ∃ (p : Nat) (surplus : Nat), text.overclosed w = ∅ ∧ IsGreatest (text.openings w) p ∧
        0 < surplus ∧
        (text.slice w).count openParen = (text.slice w).count closeParen + surplus ∧
        text.checkWindow w = .error (.unmatchedOpen surplus p) := by
  have hholds := holds_slice hw hstop
  rw [checkWindow]
  rcases checkPairs_cases w.start (text.slice w) with
    ⟨hbal, hcheck⟩ | ⟨as, bs, hsplit, has, hcheck⟩ |
      ⟨as, bs, surplus, hsplit, hbs, hdepth, hpos, hcheck⟩
  · exact Or.inl ⟨matched_parentheses_iff.2 hbal, hcheck⟩
  · rw [← Int.natCast_add] at hcheck
    have hleast := (hsplit ▸ hholds : text.Holds w _).isLeast_overclosed has
    exact Or.inr (Or.inl ⟨_, hleast, hcheck⟩)
  · rw [← Int.natCast_add] at hcheck
    have hgreatest := (hsplit ▸ hholds : text.Holds w _).isGreatest_openings hbs
    have hcount := depthAfter_count hdepth
    exact Or.inr
      (Or.inr ⟨_, surplus, hholds.overclosed_eq_empty hdepth, hgreatest, hpos, by omega, hcheck⟩)

theorem checkWindow_eq_ok_iff :
    text.checkWindow w = .ok () ↔ Matched (parentheses (text.slice w)) := by
  rw [checkWindow, checkPairs_eq_ok_iff, matched_parentheses_iff]

/-- Nothing is wrong with a window whose parentheses match. -/
theorem overclosed_of_matched (hw : w.start ≤ w.stop) (hstop : w.stop ≤ text.size)
    (h : Matched (parentheses (text.slice w))) :
    text.overclosed w = ∅ ∧ (text.slice w).count closeParen = (text.slice w).count openParen := by
  have hbal := matched_parentheses_iff.1 h
  exact ⟨(holds_slice hw hstop).overclosed_eq_empty hbal, hbal.count_eq⟩

/-- A closing parenthesis is reported at the least position up to which more parentheses are closed
than opened. -/
theorem checkWindow_unmatchedClose_iff (hw : w.start ≤ w.stop) (hstop : w.stop ≤ text.size)
    {position : Int} :
    text.checkWindow w = .error (.unmatchedClose position) ↔
      ∃ p : Nat, position = p ∧ IsLeast (text.overclosed w) p := by
  rcases checkWindow_cases hw hstop with
    ⟨hmatched, hcheck⟩ | ⟨p, hleast, hcheck⟩ | ⟨p, n, hnone, -, -, -, hcheck⟩
  all_goals rw [hcheck]
  · refine iff_of_false (fun h => by cases h) ?_
    rintro ⟨q, -, hq⟩
    rw [(overclosed_of_matched hw hstop hmatched).1] at hq
    exact hq.1
  · constructor
    · intro h
      cases h
      exact ⟨p, rfl, hleast⟩
    · rintro ⟨q, rfl, hq⟩
      rw [hq.unique hleast]
  · refine iff_of_false (fun h => by cases h) ?_
    rintro ⟨q, -, hq⟩
    rw [hnone] at hq
    exact hq.1

/-- Open groups are reported with the surplus of opening parentheses and the position of the last of
them. -/
theorem checkWindow_unmatchedOpen (hw : w.start ≤ w.stop) (hstop : w.stop ≤ text.size)
    {surplus : Nat} {position : Int}
    (h : text.checkWindow w = .error (.unmatchedOpen surplus position)) :
    text.overclosed w = ∅ ∧ 0 < surplus ∧
      (text.slice w).count openParen = (text.slice w).count closeParen + surplus ∧
      ∃ p : Nat, position = p ∧ IsGreatest (text.openings w) p := by
  rcases checkWindow_cases hw hstop with
    ⟨-, hcheck⟩ | ⟨p, -, hcheck⟩ | ⟨p, n, hnone, hgreatest, hpos, hcount, hcheck⟩
  all_goals
    rw [hcheck] at h
    cases h
  exact ⟨hnone, hpos, hcount, p, rfl, hgreatest⟩

/-- Open groups are reported if nothing is closed too early and more parentheses are opened than
closed. -/
theorem exists_checkWindow_unmatchedOpen (hw : w.start ≤ w.stop) (hstop : w.stop ≤ text.size)
    (hnone : text.overclosed w = ∅)
    (hlt : (text.slice w).count closeParen < (text.slice w).count openParen) :
    ∃ surplus position, text.checkWindow w = .error (.unmatchedOpen surplus position) := by
  rcases checkWindow_cases hw hstop with ⟨hmatched, -⟩ | ⟨p, hleast, -⟩ | ⟨p, n, -, -, -, -, hcheck⟩
  · exact absurd (overclosed_of_matched hw hstop hmatched).2 (Nat.ne_of_lt hlt)
  · rw [hnone] at hleast
    exact absurd hleast.1 (Set.notMem_empty p)
  · exact ⟨n, p, hcheck⟩

/-! ## Ranges -/

/-- Reading all positions of a list in order gives the list. -/
theorem filterMap_range_getElem? (cs : List Char) :
    (List.range cs.length).filterMap (fun k => cs[k]?) = cs := by
  induction cs with
  | nil => rfl
  | cons c rest ih =>
      rw [List.length_cons, List.range_succ_eq_map, List.filterMap_cons, List.filterMap_map]
      simpa [Function.comp_def] using ih

/-- A range inside the text is checked like the window that it is, and no position is out of
range. -/
theorem checkRange_eq (hw : w.start ≤ w.stop) (hstop : w.stop ≤ text.size) :
    text.checkRange w.start w.stop = (text.checkWindow w).mapError .imbalance := by
  have hholds := holds_slice hw hstop
  have hlen := hholds.stop_eq
  have hspan : (min (w.stop : Int) text.size - w.start).toNat = (text.slice w).length := by omega
  have hchars :
      ((List.range (text.slice w).length).map fun (k : Nat) =>
        (w.start : Int) + (k : Int)).filterMap text.charAt? = text.slice w := by
    conv_rhs => rw [← filterMap_range_getElem? (text.slice w)]
    rw [List.filterMap_map]
    apply List.filterMap_congr
    intro k hk
    have hnonneg : (0 : Int) ≤ (w.start : Int) + k := by omega
    have hnat : ((w.start : Int) + k).toNat = w.start + k := by omega
    rw [Function.comp_apply, charAt?, if_pos hnonneg, hnat,
      hholds.getElem?_add (List.mem_range.1 hk)]
  rw [checkRange, hspan, hchars]
  by_cases hempty : (w.stop : Int) ≤ w.start
  · rw [if_pos hempty]
    have hnil : text.slice w = [] := List.length_eq_zero_iff.1 (by omega)
    rw [checkWindow, hnil]
    rfl
  · rw [if_neg hempty, if_neg (by omega), checkWindow, checkPairs]
    cases scan w.start ⟨0, w.start⟩ (text.slice w) with
    | error fault => rfl
    | ok groups =>
        -- the end of the range is not beyond the end of the text
        have hinside : ¬ (text.size : Int) < w.stop := by omega
        refine (if_neg hinside).trans ?_
        show _ = groups.close.mapError RangeFault.imbalance
        cases groups.close <;> rfl

theorem checkRange_eq_error_iff (hw : w.start ≤ w.stop) (hstop : w.stop ≤ text.size)
    {fault : Imbalance} :
    text.checkRange w.start w.stop = .error (.imbalance fault) ↔
      text.checkWindow w = .error fault := by
  rw [checkRange_eq hw hstop, Except.mapError_eq_error_iff]
  constructor
  · rintro ⟨e, he, hfault⟩
    cases hfault
    exact he
  · intro h
    exact ⟨fault, h, rfl⟩

/-- The check of a range inside a text accepts it exactly if its parentheses match. A closing
parenthesis is reported exactly if it is the first one up to which more parentheses are closed than
opened. Open groups are reported exactly if there is no such parenthesis and more are opened than
closed, and then the report counts the surplus and names the last opening parenthesis. The check
that the parser makes of a window is the same. -/
theorem checkRange_decides (text : Source) {w : Window} (hw : w.start ≤ w.stop)
    (hstop : w.stop ≤ text.size) :
    (text.checkRange w.start w.stop = .ok () ↔ Matched (parentheses (text.slice w))) ∧
      (∀ position : Int,
        text.checkRange w.start w.stop = .error (.imbalance (.unmatchedClose position)) ↔
          ∃ p : Nat, position = p ∧ IsLeast (text.overclosed w) p) ∧
      ((∃ surplus position,
          text.checkRange w.start w.stop = .error (.imbalance (.unmatchedOpen surplus position))) ↔
        text.overclosed w = ∅ ∧ (text.slice w).count closeParen < (text.slice w).count openParen) ∧
      (∀ (surplus : Nat) (position : Int),
        text.checkRange w.start w.stop = .error (.imbalance (.unmatchedOpen surplus position)) →
          (text.slice w).count openParen = (text.slice w).count closeParen + surplus ∧
          (∃ p : Nat, position = p ∧ IsGreatest (text.openings w) p) ∧
          (RangeFault.imbalance (.unmatchedOpen surplus position)).message =
            s!"{surplus} unclosed '(' (last opened at position {position})") ∧
      text.checkRange w.start w.stop = (text.checkWindow w).mapError .imbalance := by
  refine ⟨?_, ?_, ?_, ?_, checkRange_eq hw hstop⟩
  · rw [checkRange_eq hw hstop, Except.mapError_eq_ok_iff, checkWindow_eq_ok_iff]
  · intro position
    rw [checkRange_eq_error_iff hw hstop, checkWindow_unmatchedClose_iff hw hstop]
  · simp only [checkRange_eq_error_iff hw hstop]
    constructor
    · rintro ⟨surplus, position, h⟩
      obtain ⟨hnone, hpos, hcount, -⟩ := checkWindow_unmatchedOpen hw hstop h
      exact ⟨hnone, by omega⟩
    · rintro ⟨hnone, hlt⟩
      exact exists_checkWindow_unmatchedOpen hw hstop hnone hlt
  · intro surplus position h
    rw [checkRange_eq_error_iff hw hstop] at h
    obtain ⟨-, -, hcount, hlast⟩ := checkWindow_unmatchedOpen hw hstop h
    exact ⟨hcount, hlast, rfl⟩

/-- A text in which a closing parenthesis has no partner and another group stays open: the whole is
rejected for the former, the part behind it for the latter, and the innermost part is balanced. -/
theorem checkRange_decides_parts :
    let text := ofString "p)∧((q)"
    text.size = 7 ∧
      text.checkRange 0 7 = .error (.imbalance (.unmatchedClose 1)) ∧
      IsLeast (text.overclosed ⟨0, 7⟩) 1 ∧
      text.checkRange 2 7 = .error (.imbalance (.unmatchedOpen 1 4)) ∧
      text.overclosed ⟨2, 7⟩ = ∅ ∧ IsGreatest (text.openings ⟨2, 7⟩) 4 ∧
      Matched (parentheses (text.slice ⟨4, 7⟩)) := by
  intro text
  have hsize : text.size = 7 := by decide
  have hwhole : text.checkRange 0 7 = .error (.imbalance (.unmatchedClose 1)) := rfl
  have hrest : text.checkRange 2 7 = .error (.imbalance (.unmatchedOpen 1 4)) := rfl
  have hinner : text.checkRange 4 7 = .ok () := rfl
  obtain ⟨p, hp, hleast⟩ :=
    ((checkRange_decides text (w := ⟨0, 7⟩) (by decide) (by decide)).2.1 1).1 hwhole
  obtain ⟨-, -, hopen, hlast, -⟩ :=
    checkRange_decides text (w := ⟨2, 7⟩) (by decide) (by decide)
  obtain ⟨-, ⟨q, hq, hgreatest⟩, -⟩ := hlast 1 4 hrest
  obtain rfl : 1 = p := Int.ofNat.inj hp
  obtain rfl : 4 = q := Int.ofNat.inj hq
  have hmatched := (checkRange_decides text (w := ⟨4, 7⟩) (by decide) (by decide)).1.1 hinner
  exact ⟨hsize, hwhole, hleast, hrest, (hopen.1 ⟨1, 4, hrest⟩).1, hgreatest, hmatched⟩

end Source

end Sentential
