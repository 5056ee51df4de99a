import Mathlib.Algebra.Group.Nat.Defs
import Mathlib.Data.Nat.Log
import SqlEngine.Proofs.BinaryTree.Build
import SqlEngine.Proofs.SearchTree.Bindings

/-!
# Balance

A tree is halved when at every node the left side has as many nodes as the right side, or one more (`SearchTree.Halved`). The balanced
tree of a list is halved (`halved_balanced`). Halved trees are as low as trees of their size can be (`Halved.height_le`), which is
what the logarithm of the size says (`Halved.height_eq`).
-/

namespace SqlEngine

namespace SearchTree

variable {κ ν : Type}

/-- At every node the left side has as many nodes as the right side, or one more. -/
def Halved : SearchTree κ ν → Prop
  | leaf => True
  | node left _ _ right => (left.size = right.size ∨ left.size = right.size + 1) ∧ left.Halved ∧ right.Halved

@[simp] theorem size_balanced (bindings : List (κ × ν)) : (balanced bindings).size = bindings.length := by
  rw [size_eq_length, toList_balanced]

/-- The balanced tree of a list is halved. -/
theorem halved_balanced (bindings : List (κ × ν)) : (balanced bindings).Halved := by
  induction hlength : bindings.length using Nat.strongRecOn generalizing bindings with
  | ind length ih =>
    cases hdrop : bindings.drop (bindings.length / 2) with
    | nil =>
      rw [BinaryTree.balanced_of_drop_nil hdrop]
      trivial
    | cons binding after =>
      obtain ⟨key, payload⟩ := binding
      have hafter := congrArg List.length hdrop
      rw [List.length_drop, List.length_cons] at hafter
      have hbefore : (bindings.take (bindings.length / 2)).length = bindings.length / 2 := by
        rw [List.length_take]
        omega
      rw [BinaryTree.balanced_of_drop_cons hdrop]
      refine ⟨?_, ih _ (by omega) _ rfl, ih _ (by omega) _ rfl⟩
      rw [size_balanced, size_balanced, hbefore]
      omega

/-- A tree has fewer nodes than two to the power of its height. -/
theorem size_lt_two_pow_height (tree : SearchTree κ ν) : tree.size < 2 ^ tree.height := by
  induction tree with
  | leaf => exact Nat.one_pos
  | node left key payload right ihLeft ihRight =>
    have hleft := Nat.lt_of_lt_of_le ihLeft (Nat.pow_le_pow_right Nat.two_pos (Nat.le_max_left left.height right.height))
    have hright := Nat.lt_of_lt_of_le ihRight (Nat.pow_le_pow_right Nat.two_pos (Nat.le_max_right left.height right.height))
    rw [size, height, Nat.pow_succ]
    omega

namespace Halved

variable {tree : SearchTree κ ν} (h : tree.Halved)

include h

/-- A halved tree with nodes has at least half as many as two to the power of its height. -/
theorem two_pow_height_le (hne : tree ≠ leaf) : 2 ^ tree.height ≤ 2 * tree.size := by
  induction tree with
  | leaf => exact absurd rfl hne
  | node left key payload right ihLeft ihRight =>
    obtain ⟨hsizes, hleft, hright⟩ := h
    rw [size, height, Nat.pow_succ]
    cases left with
    | leaf =>
      -- The right side has no more nodes than the left one, so it has none.
      cases right with
      | leaf => exact Nat.le_refl 2
      | node inner own value outer => simp only [size] at hsizes; omega
    | node inner own value outer =>
      have hlow := ihLeft hleft (by simp)
      have hpos := Nat.two_pow_pos (node inner own value outer).height
      have hother : 2 ^ right.height ≤ 2 * (node inner own value outer).size := by
        cases right with
        | leaf => rw [height, Nat.pow_zero]; omega
        | node _ _ _ _ => exact Nat.le_trans (ihRight hright (by simp)) (by omega)
      rcases Nat.le_total (node inner own value outer).height right.height with hle | hle
      · rw [Nat.max_eq_right hle]
        omega
      · rw [Nat.max_eq_left hle]
        omega

/-- No tree of as many nodes is lower. -/
theorem height_le {other : SearchTree κ ν} (hsize : other.size = tree.size) : tree.height ≤ other.height := by
  by_cases hne : tree = leaf
  · rw [hne]
    exact Nat.zero_le _
  · have hlow := h.two_pow_height_le hne
    have hmost := size_lt_two_pow_height other
    refine Nat.le_of_lt_succ ((Nat.pow_lt_pow_iff_right Nat.one_lt_two).mp ?_)
    rw [Nat.succ_eq_add_one, Nat.pow_succ]
    omega

/-- The height of a halved tree is the number of binary digits of its size. -/
theorem height_eq : tree.height = if tree.size = 0 then 0 else Nat.log 2 tree.size + 1 := by
  cases tree with
  | leaf => rfl
  | node left key payload right =>
    have hlow := h.two_pow_height_le (by simp)
    have hmost := size_lt_two_pow_height (node left key payload right)
    have hpos : (node left key payload right).size ≠ 0 := by
      rw [size]
      omega
    rw [height, Nat.pow_succ] at hlow
    rw [if_neg hpos, Nat.log_eq_of_pow_le_of_lt_pow (show 2 ^ max left.height right.height ≤ _ by omega) hmost, height]

end Halved

end SearchTree

end SqlEngine
