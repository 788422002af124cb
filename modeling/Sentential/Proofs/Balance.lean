import Sentential.Formula.Shape

/-!
# Depth, balance and the surface of a text

`depthAfter` counts the open parentheses along a text. It splits over concatenation
(`depthAfter_append`), and a text is `Balanced` exactly if the check of the parser accepts it
(`checkPairs_eq_ok_iff`).

The `surface` of a text are its characters outside all parentheses. A balanced text contributes its
own surface to any text it begins (`surface_append`), and a group contributes nothing
(`surface_group`). A character that the scan for top-level positions selects cuts a balanced text
into two balanced texts, and the positions selected to the right of it are those of the second text
(`topLevelFrom_filterMap_cons`).
-/

namespace Sentential

/-- The number of open parentheses after a text that begins inside `depth` of them; there is none if
a closing parenthesis of the text has no partner. -/
def depthAfter (depth : Nat) : List Char → Option Nat
  | [] => some depth
  | c :: rest =>
      if c = openParen then depthAfter (depth + 1) rest
      else if c = closeParen then if depth = 0 then none else depthAfter (depth - 1) rest
      else depthAfter depth rest

/-- The parentheses of a text pair up. -/
def Balanced (cs : List Char) : Prop := depthAfter 0 cs = some 0

instance (cs : List Char) : Decidable (Balanced cs) :=
  inferInstanceAs (Decidable (depthAfter 0 cs = some 0))

/-- A character that is no parenthesis. -/
def IsPlain (c : Char) : Prop := c ≠ openParen ∧ c ≠ closeParen

instance (c : Char) : Decidable (IsPlain c) :=
  inferInstanceAs (Decidable (c ≠ openParen ∧ c ≠ closeParen))

/-! ## Depth -/

theorem depthAfter_open (depth : Nat) (cs : List Char) :
    depthAfter depth (openParen :: cs) = depthAfter (depth + 1) cs := by
  rw [depthAfter, if_pos rfl]

theorem depthAfter_close_zero (cs : List Char) : depthAfter 0 (closeParen :: cs) = none := by
  rw [depthAfter, if_neg (by decide), if_pos rfl, if_pos rfl]

theorem depthAfter_close_succ (depth : Nat) (cs : List Char) :
    depthAfter (depth + 1) (closeParen :: cs) = depthAfter depth cs := by
  rw [depthAfter, if_neg (by decide), if_pos rfl, if_neg (Nat.succ_ne_zero depth),
    Nat.add_sub_cancel]

theorem depthAfter_plain {c : Char} (hc : IsPlain c) (depth : Nat) (cs : List Char) :
    depthAfter depth (c :: cs) = depthAfter depth cs := by
  rw [depthAfter, if_neg hc.1, if_neg hc.2]

/-- The three kinds of characters that a scan of parentheses tells apart. -/
theorem paren_cases (c : Char) : c = openParen ∨ c = closeParen ∨ IsPlain c := by
  by_cases ho : c = openParen
  · exact Or.inl ho
  · by_cases hc : c = closeParen
    · exact Or.inr (Or.inl hc)
    · exact Or.inr (Or.inr ⟨ho, hc⟩)

theorem depthAfter_append (depth : Nat) (as bs : List Char) :
    depthAfter depth (as ++ bs) = (depthAfter depth as).bind fun d => depthAfter d bs := by
  induction as generalizing depth with
  | nil => rfl
  | cons c rest ih =>
      rw [List.cons_append]
      -- one case for each kind of character; an unmatched parenthesis ends both walks
      rcases paren_cases c with rfl | rfl | hc
      · rw [depthAfter_open, depthAfter_open, ih]
      · cases depth with
        | zero => rw [depthAfter_close_zero, depthAfter_close_zero]; rfl
        | succ d => rw [depthAfter_close_succ, depthAfter_close_succ, ih]
      · rw [depthAfter_plain hc, depthAfter_plain hc, ih]

/-- More parentheses around a text stay open throughout it. -/
theorem depthAfter_add {depth depth' : Nat} {cs : List Char} (h : depthAfter depth cs = some depth')
    (k : Nat) : depthAfter (depth + k) cs = some (depth' + k) := by
  induction cs generalizing depth with
  | nil =>
      simp only [depthAfter, Option.some.injEq] at h ⊢
      omega
  | cons c rest ih =>
      rcases paren_cases c with rfl | rfl | hc
      · rw [depthAfter_open] at h ⊢
        have := ih h
        rwa [Nat.add_right_comm] at this
      · cases depth with
        -- at depth zero the walk would have ended here
        | zero => simp [depthAfter_close_zero] at h
        | succ d =>
            rw [depthAfter_close_succ] at h
            rw [Nat.add_right_comm, depthAfter_close_succ]
            exact ih h
      · rw [depthAfter_plain hc] at h ⊢
        exact ih h

/-- A text without parentheses leaves the depth as it is. -/
theorem depthAfter_of_forall_plain {cs : List Char} (h : ∀ c ∈ cs, IsPlain c) (depth : Nat) :
    depthAfter depth cs = some depth := by
  induction cs with
  | nil => rfl
  | cons c rest ih =>
      rw [depthAfter_plain (h c List.mem_cons_self)]
      apply ih
      intro d hd
      exact h d (List.mem_cons_of_mem c hd)

/-! ## Balance -/

theorem balanced_of_forall_plain {cs : List Char} (h : ∀ c ∈ cs, IsPlain c) : Balanced cs :=
  depthAfter_of_forall_plain h 0

/-- A balanced beginning of a text can be removed. -/
theorem Balanced.append_iff {as : List Char} (h : Balanced as) (bs : List Char) :
    Balanced (as ++ bs) ↔ Balanced bs := by
  simp only [Balanced] at h ⊢
  rw [depthAfter_append, h, Option.bind_some]

theorem Balanced.append {as bs : List Char} (ha : Balanced as) (hb : Balanced bs) :
    Balanced (as ++ bs) :=
  (ha.append_iff bs).2 hb

theorem balanced_cons_iff {c : Char} (hc : IsPlain c) (cs : List Char) :
    Balanced (c :: cs) ↔ Balanced cs := by
  simp only [Balanced, depthAfter_plain hc]

/-- A balanced text leaves any depth as it is. -/
theorem Balanced.depthAfter_eq {cs : List Char} (h : Balanced cs) (depth : Nat) :
    depthAfter depth cs = some depth := by
  simpa using depthAfter_add h depth

theorem Balanced.group {cs : List Char} (h : Balanced cs) :
    Balanced (openParen :: cs ++ [closeParen]) := by
  rw [Balanced, List.cons_append, depthAfter_open, depthAfter_append, h.depthAfter_eq]
  rfl

/-- A text without parentheses can be removed from the end. -/
theorem balanced_append_plain_iff {post : List Char} (h : ∀ c ∈ post, IsPlain c) (cs : List Char) :
    Balanced (cs ++ post) ↔ Balanced cs := by
  simp only [Balanced, depthAfter_append]
  cases depthAfter 0 cs with
  | none => simp
  | some d => simp [depthAfter_of_forall_plain h]

/-- The scan of the parser computes the depth. -/
theorem depth_scan (position : Int) (groups : OpenParens) (cs : List Char) :
    (scan position groups cs).toOption.map OpenParens.depth = depthAfter groups.depth cs := by
  induction cs generalizing position groups with
  | nil => rfl
  | cons c rest ih =>
      rcases paren_cases c with rfl | rfl | hc
      · rw [scan, if_pos rfl, ih, depthAfter_open]
      · rw [scan, if_neg (by decide), if_pos rfl]
        obtain ⟨depth, lastOpen⟩ := groups
        cases depth with
        | zero => rw [depthAfter_close_zero]; rfl
        | succ d => rw [depthAfter_close_succ, ih]
      · rw [scan, if_neg hc.1, if_neg hc.2, ih, depthAfter_plain hc]

/-- The check of the parser accepts exactly the balanced texts. -/
theorem checkPairs_eq_ok_iff (start : Int) (cs : List Char) :
    checkPairs start cs = .ok () ↔ Balanced cs := by
  -- the scan and the depth fail together, and what is left is the depth at the end
  have hscan := depth_scan start ⟨0, start⟩ cs
  rw [checkPairs, Balanced, ← hscan]
  cases scan start ⟨0, start⟩ cs with
  | error fault => simp [Except.toOption, bind, Except.bind]
  | ok groups =>
      show groups.close = .ok () ↔ some groups.depth = some 0
      rw [OpenParens.close]
      split
      · next h => simp [h]
      · next h => simp [h]

theorem isOk_checkPairs_iff (start : Int) (cs : List Char) :
    (checkPairs start cs).isOk = true ↔ Balanced cs := by
  rw [← checkPairs_eq_ok_iff start]
  cases checkPairs start cs with
  | error fault => simp [Except.isOk, Except.toBool]
  | ok u => simp [Except.isOk, Except.toBool]

/-! ## Top-level characters -/

theorem topLevelFrom_open (position depth : Nat) (cs : List Char) :
    topLevelFrom position depth (openParen :: cs) = topLevelFrom (position + 1) (depth + 1) cs := by
  rw [topLevelFrom, if_pos rfl]

theorem topLevelFrom_close (position depth : Nat) (cs : List Char) :
    topLevelFrom position depth (closeParen :: cs) =
      topLevelFrom (position + 1) (depth - 1) cs := by
  rw [topLevelFrom, if_neg (by decide), if_pos rfl]

theorem topLevelFrom_plain_zero {c : Char} (hc : IsPlain c) (position : Nat) (cs : List Char) :
    topLevelFrom position 0 (c :: cs) = (position, c) :: topLevelFrom (position + 1) 0 cs := by
  rw [topLevelFrom, if_neg hc.1, if_neg hc.2, if_pos rfl]

theorem topLevelFrom_plain_succ {c : Char} (hc : IsPlain c) (position depth : Nat)
    (cs : List Char) :
    topLevelFrom position (depth + 1) (c :: cs) = topLevelFrom (position + 1) (depth + 1) cs := by
  rw [topLevelFrom, if_neg hc.1, if_neg hc.2, if_neg (Nat.succ_ne_zero depth)]

theorem topLevelFrom_append {position depth depth' : Nat} {as : List Char}
    (h : depthAfter depth as = some depth') (bs : List Char) :
    topLevelFrom position depth (as ++ bs) =
      topLevelFrom position depth as ++ topLevelFrom (position + as.length) depth' bs := by
  induction as generalizing position depth with
  | nil =>
      simp only [depthAfter, Option.some.injEq] at h
      subst h
      rfl
  | cons c rest ih =>
      have hlen : position + (c :: rest).length = position + 1 + rest.length := by
        rw [List.length_cons]
        omega
      rw [List.cons_append, hlen]
      rcases paren_cases c with rfl | rfl | hc
      · rw [depthAfter_open] at h
        rw [topLevelFrom_open, topLevelFrom_open, ih h]
      · cases depth with
        | zero => simp [depthAfter_close_zero] at h
        | succ d =>
            rw [depthAfter_close_succ] at h
            rw [topLevelFrom_close, topLevelFrom_close, Nat.add_sub_cancel, ih h]
      · rw [depthAfter_plain hc] at h
        cases depth with
        -- the character is selected exactly if it stands outside all parentheses
        | zero =>
            rw [topLevelFrom_plain_zero hc, topLevelFrom_plain_zero hc, ih h, List.cons_append]
        | succ d => rw [topLevelFrom_plain_succ hc, topLevelFrom_plain_succ hc, ih h]

/-- Inside a parenthesis that stays open, nothing is at the top level. -/
theorem topLevelFrom_enclosed {position depth depth' : Nat} {cs : List Char}
    (h : depthAfter depth cs = some depth') : topLevelFrom position (depth + 1) cs = [] := by
  induction cs generalizing position depth with
  | nil => rfl
  | cons c rest ih =>
      rcases paren_cases c with rfl | rfl | hc
      · rw [depthAfter_open] at h
        rw [topLevelFrom_open]
        exact ih h
      · cases depth with
        | zero => simp [depthAfter_close_zero] at h
        | succ d =>
            rw [depthAfter_close_succ] at h
            rw [topLevelFrom_close]
            exact ih h
      · rw [depthAfter_plain hc] at h
        rw [topLevelFrom_plain_succ hc]
        exact ih h

theorem topLevelFrom_group {cs : List Char} (h : Balanced cs) (position : Nat) :
    topLevelFrom position 0 (openParen :: cs ++ [closeParen]) = [] := by
  rw [List.cons_append, topLevelFrom_open, topLevelFrom_append (h.depthAfter_eq 1),
    topLevelFrom_enclosed h]
  rfl

theorem topLevelFrom_of_forall_plain {cs : List Char} (h : ∀ c ∈ cs, IsPlain c) (position : Nat) :
    (topLevelFrom position 0 cs).map Prod.snd = cs := by
  induction cs generalizing position with
  | nil => rfl
  | cons c rest ih =>
      rw [topLevelFrom_plain_zero (h c List.mem_cons_self), List.map_cons,
        ih fun d hd => h d (List.mem_cons_of_mem c hd)]

/-- A selected character cuts a balanced text. The text before it is balanced and has nothing to
select, and what is selected after it is selected in the text after it. -/
theorem topLevelFrom_filterMap_cons {β : Type} {f : Nat × Char → Option β} {position depth : Nat}
    {cs : List Char} {b : β} {bs : List β} (hcs : depthAfter depth cs = some 0)
    (h : (topLevelFrom position depth cs).filterMap f = b :: bs) :
    ∃ as c rest, cs = as ++ c :: rest ∧ depthAfter depth as = some 0 ∧ IsPlain c ∧ Balanced rest ∧
      f (position + as.length, c) = some b ∧
      (topLevelFrom position depth as).filterMap f = [] ∧
      (topLevelFrom (position + as.length + 1) 0 rest).filterMap f = bs := by
  induction cs generalizing position depth with
  | nil => simp [topLevelFrom] at h
  | cons c rest ih =>
      -- what the induction hypothesis gives for `rest`, with `c` put back in front
      have extend {depth' : Nat} (hrest : depthAfter depth' rest = some 0)
          (hs : (topLevelFrom (position + 1) depth' rest).filterMap f = b :: bs)
          (hdepth : ∀ as, depthAfter depth' as = some 0 → depthAfter depth (c :: as) = some 0)
          (htop : ∀ as, (topLevelFrom (position + 1) depth' as).filterMap f = [] →
            (topLevelFrom position depth (c :: as)).filterMap f = []) :
          ∃ as c' rest', c :: rest = as ++ c' :: rest' ∧ depthAfter depth as = some 0 ∧
            IsPlain c' ∧ Balanced rest' ∧ f (position + as.length, c') = some b ∧
            (topLevelFrom position depth as).filterMap f = [] ∧
            (topLevelFrom (position + as.length + 1) 0 rest').filterMap f = bs := by
        obtain ⟨as, c', rest', hsplit, has, hc', hbal, hf, hnone, hbs⟩ := ih hrest hs
        have hlen : position + (c :: as).length = position + 1 + as.length := by
          rw [List.length_cons]
          omega
        refine ⟨c :: as, c', rest', ?_, hdepth as has, hc', hbal, ?_, htop as hnone, ?_⟩
        · rw [hsplit, List.cons_append]
        · rw [hlen]
          exact hf
        · rw [hlen]
          exact hbs
      rcases paren_cases c with rfl | rfl | hc
      · rw [depthAfter_open] at hcs
        rw [topLevelFrom_open] at h
        apply extend hcs h
        · intro as has
          rwa [depthAfter_open]
        · intro as has
          rwa [topLevelFrom_open]
      · cases depth with
        | zero => simp [depthAfter_close_zero] at hcs
        | succ d =>
            rw [depthAfter_close_succ] at hcs
            rw [topLevelFrom_close] at h
            apply extend hcs h
            · intro as has
              rwa [depthAfter_close_succ]
            · intro as has
              rwa [topLevelFrom_close]
      · rw [depthAfter_plain hc] at hcs
        cases depth with
        | succ d =>
            rw [topLevelFrom_plain_succ hc] at h
            apply extend hcs h
            · intro as has
              rwa [depthAfter_plain hc]
            · intro as has
              rwa [topLevelFrom_plain_succ hc]
        | zero =>
            -- at the top level the character itself may be the one that is selected
            rw [topLevelFrom_plain_zero hc] at h
            cases hf : f (position, c) with
            | some b' =>
                rw [List.filterMap_cons_some hf, List.cons.injEq] at h
                exact ⟨[], c, rest, rfl, rfl, hc, hcs, by simpa [h.1] using hf, rfl, h.2⟩
            | none =>
                rw [List.filterMap_cons_none hf] at h
                apply extend hcs h
                · intro as has
                  rwa [depthAfter_plain hc]
                · intro as has
                  rwa [topLevelFrom_plain_zero hc, List.filterMap_cons_none hf]

/-! ## The surface -/

/-- The characters of a text outside all parentheses. -/
def surface (cs : List Char) : List Char := (topLevelFrom 0 0 cs).map Prod.snd

/-- Positions do not matter for the surface. -/
theorem map_snd_topLevelFrom (position position' depth : Nat) (cs : List Char) :
    (topLevelFrom position depth cs).map Prod.snd =
      (topLevelFrom position' depth cs).map Prod.snd := by
  induction cs generalizing position position' depth with
  | nil => rfl
  | cons c rest ih =>
      rcases paren_cases c with rfl | rfl | hc
      · rw [topLevelFrom_open, topLevelFrom_open]
        exact ih _ _ _
      · rw [topLevelFrom_close, topLevelFrom_close]
        exact ih _ _ _
      · cases depth with
        | zero =>
            rw [topLevelFrom_plain_zero hc, topLevelFrom_plain_zero hc, List.map_cons,
              List.map_cons, ih]
        | succ d =>
            rw [topLevelFrom_plain_succ hc, topLevelFrom_plain_succ hc]
            exact ih _ _ _

theorem mem_surface_iff {c : Char} {cs : List Char} (position : Nat) :
    c ∈ surface cs ↔ ∃ n, (n, c) ∈ topLevelFrom position 0 cs := by
  rw [surface, map_snd_topLevelFrom 0 position, List.mem_map]
  constructor
  · rintro ⟨⟨n, d⟩, hmem, rfl⟩
    exact ⟨n, hmem⟩
  · rintro ⟨n, hmem⟩
    exact ⟨(n, c), hmem, rfl⟩

theorem surface_append {as : List Char} (h : Balanced as) (bs : List Char) :
    surface (as ++ bs) = surface as ++ surface bs := by
  rw [surface, topLevelFrom_append h, List.map_append,
    map_snd_topLevelFrom (0 + as.length) 0 0 bs]
  rfl

theorem surface_cons {c : Char} (hc : IsPlain c) (cs : List Char) :
    surface (c :: cs) = c :: surface cs := by
  rw [surface, topLevelFrom_plain_zero hc, List.map_cons, map_snd_topLevelFrom (0 + 1) 0 0 cs]
  rfl

theorem surface_group {cs : List Char} (h : Balanced cs) :
    surface (openParen :: cs ++ [closeParen]) = [] := by
  rw [surface, topLevelFrom_group h]
  rfl

theorem surface_of_forall_plain {cs : List Char} (h : ∀ c ∈ cs, IsPlain c) : surface cs = cs :=
  topLevelFrom_of_forall_plain h 0

end Sentential
