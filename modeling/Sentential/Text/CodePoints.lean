/-!
# Sets of code points as ascending ranges

A class of characters is stored as a list of closed ranges of code points in ascending order.
`covers` searches such a list and stops at the first range that begins beyond the code point.
-/

namespace Sentential.Text

/-- A closed range of code points, given by its first and its last member. -/
abbrev CodeRange := Nat × Nat

/-- Whether a code point lies in one of the ranges of an ascending list. -/
def covers : List CodeRange → Nat → Bool
  | [], _ => false
  | (first, last) :: rest, n =>
      if n < first then false else if n ≤ last then true else covers rest n

/-- What the search finds is a member of one of the ranges. -/
theorem exists_range_of_covers {ranges : List CodeRange} {n : Nat} (h : covers ranges n = true) :
    ∃ r ∈ ranges, r.1 ≤ n ∧ n ≤ r.2 := by
  induction ranges with
  | nil => simp [covers] at h
  | cons r rest ih =>
      rw [covers] at h
      split at h
      · simp at h
      · split at h
        next hlow hhigh => exact ⟨r, List.mem_cons_self, Nat.le_of_not_lt hlow, hhigh⟩
        · obtain ⟨s, hs, hbounds⟩ := ih h
          exact ⟨s, List.mem_cons_of_mem r hs, hbounds⟩

end Sentential.Text
