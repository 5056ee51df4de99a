import Mathlib.Data.List.Sort

/-!
# Stable sorting

Sorting does not change the order of members of which each may stand before the other (`filter_mergeSort`). So a list that was in a
strict order beforehand is sorted afterwards, and that order still decides between such members (`pairwise_mergeSort_of_pairwise`).
-/

namespace SqlEngine

namespace SortingAux

/-- Of two keys one or the other does not lie above. -/
theorem isLE_total {κ : Type} [Ord κ] [Std.TransOrd κ] (k l : κ) : ((compare k l).isLE || (compare l k).isLE) = true := by
  rw [Std.OrientedOrd.eq_swap (a := l)]
  cases compare k l <;> rfl

variable {α : Type} {le : α → α → Bool} (htrans : ∀ a b c, le a b = true → le b c = true → le a c = true)
  (htotal : ∀ a b, (le a b || le b a) = true)

include htrans htotal

/-- Sorting does not change the order of the members of a class in which each may stand before every other. -/
theorem filter_mergeSort {p : α → Bool} (hclass : ∀ a b, p a = true → p b = true → le a b = true) (list : List α) :
    (list.mergeSort le).filter p = list.filter p := by
  have hequal : (list.filter p).Pairwise fun a b => le a b = true := by
    refine List.pairwise_of_forall_mem_list fun a ha b hb => ?_
    exact hclass a b (List.mem_filter.mp ha).2 (List.mem_filter.mp hb).2
  have hsublist := (List.sublist_mergeSort htrans htotal hequal List.filter_sublist).filter p
  rw [List.filter_filter] at hsublist
  simp only [Bool.and_self] at hsublist
  exact (hsublist.eq_of_length ((List.mergeSort_perm list le).filter p).length_eq.symm).symm

/-- Of two members of a sorted list the first may stand before the second; if the second may stand before the first too, they are in
the order in which they were given. -/
theorem pairwise_mergeSort_of_pairwise {given : α → α → Prop} {list : List α} (hgiven : list.Pairwise given) :
    (list.mergeSort le).Pairwise fun a b => le a b = true ∧ (le b a = true → given a b) := by
  refine (List.pairwise_mergeSort htrans htotal list).and (List.pairwise_iff_forall_sublist.mpr fun {a b} hsublist hba => ?_)
  have hab : le a b = true := by
    have hsorted := (List.pairwise_mergeSort htrans htotal list).sublist hsublist
    exact List.rel_of_pairwise_cons hsorted List.mem_cons_self
  have hrefl : le a a = true := htrans a b a hab hba
  have hclass : ∀ c d, (le a c && le c a) = true → (le a d && le d a) = true → le c d = true := by
    intro c d hc hd
    rw [Bool.and_eq_true] at hc hd
    exact htrans c a d hc.2 hd.1
  -- Both members are in the class of the first, and nothing in this class has moved.
  have hpair : ([a, b].filter fun c => le a c && le c a).Sublist (list.filter fun c => le a c && le c a) := by
    rw [← filter_mergeSort htrans htotal hclass list]
    exact hsublist.filter _
  simp only [hrefl, hab, hba, Bool.and_self, List.filter_cons_of_pos, List.filter_nil] at hpair
  exact List.pairwise_iff_forall_sublist.mp hgiven (hpair.trans List.filter_sublist)

end SortingAux

end SqlEngine
