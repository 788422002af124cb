import Sentential.Formula.Parser

/-!
# Reading with less room

With less room a reading runs out of it, or it is the same reading: the same events and the same
result. `Traced.Settles` is this relation between two computations, and it composes along the parts
of a computation (`Traced.Settles.bind`, `Traced.Settles.mapM`). Room is a budget together with the
cost of a record. `Budget.FitsInto` compares the room of two readings: what fits into the first
fits into the second. A window that is read in both settles (`parseWindowAt_settles`), by induction
on its size.
-/

namespace Sentential

/-! ## Computations that may fail for want of room -/

namespace Traced

variable {ε δ α β : Type} {P : ε → Prop} {Q : δ → Prop} {x y : Traced ε α}

/-- The first computation fails with one of the faults, or the two computations are the same. -/
def Settles (P : ε → Prop) (x y : Traced ε α) : Prop :=
  (∃ fault, P fault ∧ x.result = .error fault) ∨ x = y

theorem Settles.refl (x : Traced ε α) : Settles P x x := Or.inr rfl

theorem bind_of_ok {a : α} (h : x.result = .ok a) (k : α → Traced ε β) :
    x >>= k = ⟨x.events ++ (k a).events, (k a).result⟩ := by
  obtain ⟨events, result⟩ := x
  subst h
  rfl

theorem bind_of_error {fault : ε} (h : x.result = .error fault) (k : α → Traced ε β) :
    x >>= k = ⟨x.events, .error fault⟩ := by
  obtain ⟨events, result⟩ := x
  subst h
  rfl

theorem Settles.bind {k k' : α → Traced ε β} (h : Settles P x y)
    (hk : ∀ a, Settles P (k a) (k' a)) : Settles P (x >>= k) (y >>= k') := by
  rcases h with ⟨fault, hfault, hx⟩ | rfl
  · refine Or.inl ⟨fault, hfault, ?_⟩
    rw [bind_of_error hx]
  · cases hx : x.result with
    | error fault =>
        -- neither continuation is reached
        right
        rw [bind_of_error hx, bind_of_error hx]
    | ok a =>
        rw [bind_of_ok hx, bind_of_ok hx]
        rcases hk a with ⟨fault, hfault, hka⟩ | heq
        · exact Or.inl ⟨fault, hfault, hka⟩
        · right
          rw [heq]

theorem Settles.mapFault (h : Settles P x y) {f : ε → δ} (hf : ∀ fault, P fault → Q (f fault)) :
    Settles Q (x.mapFault f) (y.mapFault f) := by
  rcases h with ⟨fault, hfault, hx⟩ | rfl
  · refine Or.inl ⟨f fault, hf fault hfault, ?_⟩
    rw [result_mapFault, hx]
    rfl
  · exact Settles.refl _

theorem Settles.mapM {f g : α → Traced ε β} {l : List α} (h : ∀ a ∈ l, Settles P (f a) (g a)) :
    Settles P (l.mapM f) (l.mapM g) := by
  induction l with
  | nil => exact Settles.refl _
  | cons a rest ih =>
      have hrest := ih fun b hb => h b (List.mem_cons_of_mem a hb)
      rw [List.mapM_cons, List.mapM_cons]
      apply (h a List.mem_cons_self).bind
      intro b
      apply hrest.bind
      intro bs
      exact Settles.refl _

/-- A computation that does not fail for want of room is the one with more room. -/
theorem Settles.eq_of_not (h : Settles P x y) (hnot : ∀ fault, P fault → x.result ≠ .error fault) :
    x = y := by
  rcases h with ⟨fault, hfault, hx⟩ | heq
  · exact absurd hx (hnot fault hfault)
  · exact heq

end Traced

/-! ## Comparing the room of two readings -/

/-- What fits into the first budget fits into the second, be it nesting or a record. A record costs
`cost` in the first and `cost'` in the second. -/
def Budget.FitsInto (cost cost' : Nat) : Budget → Budget → Prop
  | _, none => True
  | none, some _ => False
  | some m, some n => m ≤ n ∧ m + cost' ≤ n + cost

variable {cost cost' : Nat} {budget budget' : Budget} {length : Nat}

namespace Budget.FitsInto

/-- A part is entered in the second reading if it is in the first, and the room inside compares as
the room outside does. -/
theorem spend {left : Budget} {price : Nat} (h : budget.FitsInto cost cost' budget')
    (hspend : budget.spend? price = some left) :
    ∃ left', budget'.spend? price = some left' ∧ left.FitsInto cost cost' left' := by
  cases budget' with
  | none => exact ⟨none, rfl, trivial⟩
  | some n =>
      cases budget with
      | none => exact absurd h not_false
      | some m =>
          obtain ⟨hle, hrecord⟩ := h
          rw [Budget.spend?] at hspend
          split at hspend
          next hprice =>
            cases hspend
            refine ⟨some (n - price), if_pos (Nat.le_trans hprice hle), ?_, ?_⟩ <;> omega
          next => cases hspend

/-- A record is written in the second reading if it is in the first. -/
theorem record {left : Budget} (h : budget.FitsInto cost cost' budget')
    (hspend : budget.spend? cost = some left) : ∃ left', budget'.spend? cost' = some left' := by
  cases budget' with
  | none => exact ⟨none, rfl⟩
  | some n =>
      cases budget with
      | none => exact absurd h not_false
      | some m =>
          obtain ⟨-, hrecord⟩ := h
          rw [Budget.spend?] at hspend
          split at hspend
          next hcost => exact ⟨some (n - cost'), if_pos (by omega)⟩
          next => cases hspend

end Budget.FitsInto

/-! ## Reading in both -/

theorem report_settles (h : budget.FitsInto cost cost' budget') (es : List Event) :
    (report length budget cost es).Settles (· = .tooDeep length)
      (report length budget' cost' es) := by
  cases es with
  | nil => exact Traced.Settles.refl _
  | cons e es =>
      cases hspend : budget.spend? cost with
      | none =>
          left
          simp only [report, hspend]
          exact ⟨_, rfl, rfl⟩
      | some left =>
          obtain ⟨left', hspend'⟩ := h.record hspend
          simp only [report, hspend, hspend']
          exact Traced.Settles.refl _

theorem descend_settles {read read' : Budget → Traced ParseFault Formula}
    (h : budget.FitsInto cost cost' budget')
    (hread : ∀ left left', left.FitsInto cost cost' left' →
      (read left).Settles (· = .tooDeep length) (read' left')) (price : Nat) :
    (descend length budget price read).Settles (· = .tooDeep length)
      (descend length budget' price read') := by
  rw [descend]
  cases hspend : budget.spend? price with
  | none => exact Or.inl ⟨_, rfl, rfl⟩
  | some left =>
      obtain ⟨left', hspend', hleft⟩ := h.spend hspend
      rw [descend, hspend']
      exact hread left left' hleft

/-- An operand settles if its window does: exhausted nesting is attributed to no operator. -/
theorem readOperandAt_settles {text : Source} {o : Operand} (h : budget.FitsInto cost cost' budget')
    (hread : ∀ left left', left.FitsInto cost cost' left' →
      (parseWindowAt cost text left o.window).Settles (· = .tooDeep text.size)
        (parseWindowAt cost' text left' o.window)) (price : Nat) :
    (readOperandAt cost text budget price o).Settles (· = .tooDeep text.size)
      (readOperandAt cost' text budget' price o) := by
  apply (descend_settles h hread price).mapFault
  rintro fault rfl
  rfl

/-- With less room a window is nested too deeply, or it is read in the same way. By induction on the
size of the window. -/
theorem parseWindowAt_settles (text : Source) (w : Window) :
    ∀ {budget budget' : Budget}, budget.FitsInto cost cost' budget' →
      (parseWindowAt cost text budget w).Settles (· = .tooDeep text.size)
        (parseWindowAt cost' text budget' w) := by
  induction hn : w.size using Nat.strongRecOn generalizing w with
  | ind n ih =>
      subst hn
      intro budget budget' hfits
      have hoperand (price : Nat) {o : Operand} (ho : o.window.size < w.size) :=
        readOperandAt_settles (o := o) hfits (fun left left' => ih _ ho o.window rfl) price
      have hreport (es : List Event) : (report text.size budget cost es).Settles
          (· = .tooDeep text.size) (report text.size budget' cost' es) := report_settles hfits es
      rw [parseWindowAt_eq, parseWindowAt_eq]
      cases hshape : text.shape w with
      | unbalanced fault => exact Traced.Settles.refl _
      | blank => exact Traced.Settles.refl _
      | group inner =>
          have hsize := Source.shape_group_size_lt hshape
          exact descend_settles hfits (fun left left' => ih _ hsize inner rfl) groupCost
      | chain core first rest =>
          obtain ⟨hlefts, hright⟩ := Source.shape_chain_size_lt hshape
          apply (hreport _).bind
          intro _
          apply (hreport _).bind
          intro _
          apply Traced.Settles.bind
          · apply Traced.Settles.mapM
            intro p hp
            apply (hoperand chainCost (hlefts p hp)).bind
            intro f
            exact Traced.Settles.refl _
          intro lefts
          apply (hoperand chainCost hright).bind
          intro last
          exact Traced.Settles.refl _
      | negation core =>
          apply (hreport _).bind
          intro _
          apply (hoperand negationCost (Source.shape_negation_size_lt hshape)).bind
          intro f
          exact Traced.Settles.refl _
      | buriedNegation core => exact (hreport _).bind fun _ => Traced.Settles.refl _
      | leaf core => exact (hreport _).bind fun _ => Traced.Settles.refl _

end Sentential
