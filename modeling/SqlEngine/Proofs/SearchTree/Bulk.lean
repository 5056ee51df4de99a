import SqlEngine.Proofs.SearchTree.Bindings
import SqlEngine.Proofs.Sorting

/-!
# Building a tree at a stroke

Pairs may be given in any order and with keys that repeat. Sorting keeps pairs of one key in the order in which they were given,
so of such pairs the one that was given last is kept (`lastGiven_lastOfEach`), and the tree that is built binds every key to the
payload given last for it (`mem_toList_ofPairs`), in order (`ordered_ofPairs`).
-/

namespace SqlEngine

namespace SearchTree

variable {κ ν : Type} [Ord κ]

/-- The payload given last for a key. -/
def lastGiven (key : κ) : List (κ × ν) → Option ν
  | [] => none
  | pair :: rest => (lastGiven key rest).or (if compare pair.1 key = .eq then some pair.2 else none)

theorem lastGiven_cons (key : κ) (pair : κ × ν) (rest : List (κ × ν)) : lastGiven key (pair :: rest) =
    (lastGiven key rest).or (if compare pair.1 key = .eq then some pair.2 else none) := rfl

theorem lastGiven_append (key : κ) (pairs others : List (κ × ν)) :
    lastGiven key (pairs ++ others) = (lastGiven key others).or (lastGiven key pairs) := by
  induction pairs with
  | nil => simp [lastGiven]
  | cons pair rest ih => rw [List.cons_append, lastGiven, ih, lastGiven, Option.or_assoc]

/-- Pairs of other keys do not matter. -/
theorem lastGiven_filter (key : κ) (pairs : List (κ × ν)) :
    lastGiven key (pairs.filter fun pair => compare pair.1 key = .eq) = lastGiven key pairs := by
  induction pairs with
  | nil => rfl
  | cons pair rest ih =>
    by_cases heq : compare pair.1 key = .eq
    · rw [List.filter_cons_of_pos (by simpa using heq), lastGiven, ih, lastGiven]
    · rw [List.filter_cons_of_neg (by simpa using heq), ih, lastGiven, if_neg heq, Option.or_none]

/-- Nothing was given for a key that no pair has. -/
theorem lastGiven_eq_none {key : κ} {pairs : List (κ × ν)} (h : ∀ pair ∈ pairs, compare pair.1 key ≠ .eq) :
    lastGiven key pairs = none := by
  rw [← lastGiven_filter, List.filter_eq_nil_iff.mpr]
  · rfl
  · intro pair hpair
    simpa using h pair hpair

/-- The key of the first pair does not lie above that of the second. -/
def keyLE (a b : κ × ν) : Bool := (compare a.1 b.1).isLE

/-- The pairs do not descend. -/
def Sorted (pairs : List (κ × ν)) : Prop := pairs.Pairwise fun a b => keyLE a b = true

/-- The pairs in the order of their keys. -/
def sorted (pairs : List (κ × ν)) : List (κ × ν) := pairs.mergeSort keyLE

theorem lastOfEach_sublist (pairs : List (κ × ν)) : (lastOfEach pairs).Sublist pairs := by
  fun_induction lastOfEach pairs with
  | case1 => exact List.Sublist.refl []
  | case2 binding => exact List.Sublist.refl [binding]
  | case3 binding next rest _ ih => exact ih.cons binding
  | case4 binding next rest _ ih => exact ih.cons_cons binding

variable [Std.TransOrd κ]

theorem keyLE_trans (a b c : κ × ν) (hab : keyLE a b = true) (hbc : keyLE b c = true) : keyLE a c = true :=
  Std.TransOrd.isLE_trans hab hbc

theorem keyLE_total (a b : κ × ν) : (keyLE a b || keyLE b a) = true := SortingAux.isLE_total a.1 b.1

theorem sorted_sorted (pairs : List (κ × ν)) : Sorted (sorted pairs) :=
  List.pairwise_mergeSort keyLE_trans keyLE_total pairs

/-- Sorting does not change the order of the pairs of one key. -/
theorem filter_sorted (key : κ) (pairs : List (κ × ν)) :
    (sorted pairs).filter (fun pair => compare pair.1 key = .eq) = pairs.filter fun pair => compare pair.1 key = .eq := by
  refine SortingAux.filter_mergeSort keyLE_trans keyLE_total (fun a b ha hb => ?_) pairs
  have hakey : compare a.1 key = .eq := by simpa using ha
  have hbkey : compare b.1 key = .eq := by simpa using hb
  rw [keyLE, Std.TransCmp.congr_left hakey, Std.OrientedCmp.eq_symm hbkey]
  rfl

/-- The last payloads of sorted pairs are filed under ascending keys. -/
theorem ascending_lastOfEach {pairs : List (κ × ν)} (h : Sorted pairs) :
    (lastOfEach pairs).Pairwise fun a b => compare a.1 b.1 = .lt := by
  fun_induction lastOfEach pairs with
  | case1 => exact List.Pairwise.nil
  | case2 binding => exact List.pairwise_singleton _ binding
  | case3 binding next rest _ ih => exact ih (List.pairwise_cons.mp h).2
  | case4 binding next rest hne ih =>
    obtain ⟨hbelow, hrest⟩ := List.pairwise_cons.mp h
    refine List.pairwise_cons.mpr ⟨?_, ih hrest⟩
    intro other hother
    have hnext : compare binding.1 next.1 = .lt := by
      have hle := hbelow next List.mem_cons_self
      rw [keyLE] at hle
      cases hcompare : compare binding.1 next.1 with
      | lt => rfl
      | eq => exact absurd hcompare hne
      | gt => simp [hcompare] at hle
    have hmem := (lastOfEach_sublist (next :: rest)).subset hother
    rcases List.mem_cons.mp hmem with rfl | hlater
    · exact hnext
    · exact Std.TransCmp.lt_of_lt_of_isLE hnext ((List.pairwise_cons.mp hrest).1 other hlater)

/-- The tree of pairs is in order. -/
theorem ordered_ofPairs (pairs : List (κ × ν)) : (ofPairs pairs).Ordered := by
  rw [Ordered, ofPairs, toList_balanced]
  exact ascending_lastOfEach (sorted_sorted pairs)

/-- Of neighbours with one key only the last one matters. -/
theorem lastGiven_lastOfEach (key : κ) (pairs : List (κ × ν)) : lastGiven key (lastOfEach pairs) = lastGiven key pairs := by
  fun_induction lastOfEach pairs with
  | case1 => rfl
  | case2 binding => rfl
  | case3 binding next rest heq ih =>
    rw [ih, lastGiven_cons key binding]
    by_cases hkey : compare binding.1 key = .eq
    · have hnext : compare next.1 key = .eq := Std.TransCmp.eq_trans (Std.OrientedCmp.eq_symm heq) hkey
      rw [lastGiven_cons, if_pos hnext]
      cases lastGiven key rest <;> simp
    · rw [if_neg hkey, Option.or_none]
  | case4 binding next rest _ ih => rw [lastGiven_cons, ih, ← lastGiven_cons]

variable [Std.LawfulEqOrd κ]

/-- Of pairs under ascending keys, each was given last for its key. -/
theorem mem_iff_lastGiven {pairs : List (κ × ν)} (h : pairs.Pairwise fun a b => compare a.1 b.1 = .lt) {key : κ}
    {payload : ν} : (key, payload) ∈ pairs ↔ lastGiven key pairs = some payload := by
  induction pairs with
  | nil => simp [lastGiven]
  | cons pair rest ih =>
    obtain ⟨habove, hrest⟩ := List.pairwise_cons.mp h
    rw [List.mem_cons, ih hrest, lastGiven_cons]
    by_cases hkey : compare pair.1 key = .eq
    · have hnone : lastGiven key rest = none := by
        refine lastGiven_eq_none fun other hother heq => ?_
        have hlt := habove other hother
        rw [Std.TransCmp.congr_left hkey, Std.OrientedCmp.eq_symm heq] at hlt
        exact nomatch hlt
      obtain rfl := Std.LawfulEqOrd.eq_of_compare hkey
      simp [hnone, Prod.ext_iff, eq_comm]
    · have hother : (key, payload) ≠ pair := by
        rintro rfl
        exact hkey Std.ReflOrd.compare_self
      rw [if_neg hkey, Option.or_none, or_iff_right hother]

/-- The tree of pairs binds every key to the payload given last for it. -/
theorem mem_toList_ofPairs {pairs : List (κ × ν)} {key : κ} {payload : ν} :
    (key, payload) ∈ (ofPairs pairs).toList ↔ lastGiven key pairs = some payload := by
  have hsame : lastGiven key (sorted pairs) = lastGiven key pairs := by
    rw [← lastGiven_filter, filter_sorted, lastGiven_filter]
  rw [mem_iff_lastGiven (ordered_ofPairs pairs), ofPairs, toList_balanced, lastGiven_lastOfEach]
  rw [← hsame]
  rfl

/-- The tree of pairs has for every key the payload given last for it. -/
theorem find?_ofPairs (pairs : List (κ × ν)) (key : κ) : (ofPairs pairs).find? key = lastGiven key pairs := by
  refine Option.ext fun value => ?_
  rw [find?_eq_some_iff (ordered_ofPairs pairs), mem_toList_ofPairs]

end SearchTree

end SqlEngine
