import Sentential.Proofs.Enumeration

/-!
# Formulas with very many names

`wide d` is a conjunction of `2 ^ d` distinct names in the form of a full binary tree, so that its
height grows with `d` alone (`height_wide`) and the number of its names with the power
(`length_distinctNames_wide`).
-/

namespace Sentential

/-- A conjunction of `2 ^ d` names in the form of a full binary tree. -/
def fullTree : Nat → (Nat → String) → Formula
  | 0, name => .var (name 0)
  | d + 1, name => .binary .and (fullTree d name) (fullTree d fun i => name (2 ^ d + i))

/-- A name of hyphens. -/
def hyphens (n : Nat) : String := String.ofList (List.replicate (n + 1) '-')

/-- A conjunction of `2 ^ d` distinct names. -/
def wide (d : Nat) : Formula := fullTree d hyphens

/-- The names of a full tree from left to right. -/
theorem names_fullTree (d : Nat) (name : Nat → String) :
    (fullTree d name).names = (List.range (2 ^ d)).map name := by
  induction d generalizing name with
  | zero => rfl
  | succ d ih =>
      rw [fullTree, Formula.names, ih, ih, Nat.pow_succ, Nat.mul_two, List.range_add,
        List.map_append, List.map_map]
      rfl

theorem height_fullTree (d : Nat) (name : Nat → String) : (fullTree d name).height = d := by
  induction d generalizing name with
  | zero => rfl
  | succ d ih => rw [fullTree, Formula.height, ih, ih, Nat.max_self]

theorem height_wide (d : Nat) : (wide d).height = d := height_fullTree d hyphens

theorem height_wide_le {d : Nat} (h : d ≤ walkLimit) : (wide d).height ≤ walkLimit := by
  rw [height_wide]
  exact h

theorem hyphens_injective : Function.Injective hyphens := by
  intro m n h
  have hlen := congrArg (fun s => s.toList.length) h
  simp only [hyphens, String.toList_ofList, List.length_replicate] at hlen
  omega

/-- All names of a wide formula are different. -/
theorem length_distinctNames_wide (d : Nat) : (wide d).distinctNames.length = 2 ^ d := by
  have hnames : (wide d).names.Nodup := by
    rw [wide, names_fullTree]
    exact List.nodup_range.map hyphens_injective
  have hperm : (wide d).distinctNames.Perm (wide d).names := by
    apply (List.perm_ext_iff_of_nodup (nodup_eraseDups _) hnames).2
    intro name
    exact List.mem_eraseDups
  rw [hperm.length_eq, wide, names_fullTree, List.length_map, List.length_range]

end Sentential
