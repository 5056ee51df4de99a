import SqlEngine.Proofs.BinaryTree.FiniteMap
import SqlEngine.Proofs.SearchTree.Balance

/-!
# Filling a tree at a stroke

To fill a tree puts the balanced tree of the pairs in place of whatever is there. It has the bindings that inserting the pairs one
after the other into an empty tree leads to (`toList_eq_of_find?_eq`, `find?_foldl_insert`), one for each of the keys
(`size_ofPairs`), and no tree with as many nodes is lower (`fill_as_inserted_and_balanced`).
-/

namespace SqlEngine

variable {κ ν : Type} [Ord κ] [Std.LawfulEqOrd κ]

/-- Something was given for a key where a pair has it. -/
theorem SearchTree.lastGiven_ne_none_iff {key : κ} {pairs : List (κ × ν)} :
    lastGiven key pairs ≠ none ↔ key ∈ pairs.map Prod.fst := by
  induction pairs with
  | nil => simp [lastGiven]
  | cons pair rest ih =>
    rw [lastGiven_cons, List.map_cons, List.mem_cons, ← ih]
    by_cases heq : key = pair.1
    · rw [heq, if_pos Std.ReflOrd.compare_self]
      cases lastGiven pair.1 rest <;> simp
    · have hne : compare pair.1 key ≠ .eq := fun h => heq (Std.LawfulEqOrd.eq_of_compare h).symm
      rw [if_neg hne, Option.or_none, or_iff_right heq]

namespace BinaryTree

variable [Std.TransOrd κ]

/-- Trees with the same payload for every key have the same bindings in the same order. -/
theorem toList_eq_of_find?_eq {tree other : BinaryTree κ ν} (h : tree.Sound) (hother : other.Sound)
    (hfind : ∀ key, tree.find? key = other.find? key) : tree.toList = other.toList := by
  have hirrefl : Std.Irrefl fun a b : κ × ν => compare a.1 b.1 = .lt := ⟨fun a hlt => SearchTree.ne_of_compare_lt hlt rfl⟩
  have hantisymm : Std.Antisymm fun a b : κ × ν => compare a.1 b.1 = .lt := by
    refine ⟨fun a b hlt hgt => ?_⟩
    exact absurd (Std.TransCmp.lt_trans hlt hgt) (hirrefl.irrefl a)
  refine List.Pairwise.eq_of_mem_iff h.ordered hother.ordered ?_
  rintro ⟨key, payload⟩
  exact (find?_eq_some_iff h).symm.trans (hfind key ▸ find?_eq_some_iff hother)

/-- Of pairs that are filled in there is one node for each key. -/
theorem size_ofPairs [DecidableEq κ] (pairs : List (κ × ν)) : (ofPairs pairs).size = (pairs.map Prod.fst).toFinset.card := by
  obtain ⟨hsound, hshape⟩ := ofPairs_eq pairs
  have hnodup : ((ofPairs pairs).toList.map Prod.fst).Nodup :=
    List.pairwise_map.mpr (hsound.ordered.imp SearchTree.ne_of_compare_lt)
  have hkeys : ((ofPairs pairs).toList.map Prod.fst).toFinset = (pairs.map Prod.fst).toFinset := by
    ext key
    have hgiven : key ∈ pairs.map Prod.fst ↔ (ofPairs pairs).find? key ≠ none := by
      rw [hsound.find?_eq, hshape, SearchTree.find?_ofPairs]
      exact SearchTree.lastGiven_ne_none_iff.symm
    rw [List.mem_toFinset, List.mem_toFinset, hgiven, Option.ne_none_iff_exists', List.mem_map]
    constructor
    · rintro ⟨⟨own, payload⟩, hmem, rfl⟩
      exact ⟨payload, (find?_eq_some_iff hsound).mpr hmem⟩
    · rintro ⟨payload, hfind⟩
      exact ⟨(key, payload), (find?_eq_some_iff hsound).mp hfind, rfl⟩
  rw [hsound.size_eq, ← hkeys, List.toFinset_card_of_nodup hnodup, List.length_map]

variable [DecidableEq κ]

/-- After insertions of pairs one after the other a key has the payload given last for it, or else the one that it had. -/
theorem find?_foldl_insert (pairs : List (κ × ν)) : ∀ {tree : BinaryTree κ ν}, tree.Sound →
    (pairs.foldl (fun grown pair => grown.insert pair.1 pair.2) tree).Sound ∧
      ∀ key, (pairs.foldl (fun grown pair => grown.insert pair.1 pair.2) tree).find? key =
        (SearchTree.lastGiven key pairs).or (tree.find? key) := by
  induction pairs with
  | nil => exact fun h => ⟨h, fun _ => rfl⟩
  | cons pair rest ih =>
    intro tree h
    obtain ⟨hsound, hfind⟩ := ih (h.insert pair.1 pair.2)
    refine ⟨hsound, fun key => ?_⟩
    rw [List.foldl_cons, hfind, find?_insert h, SearchTree.lastGiven_cons, Option.or_assoc]
    by_cases heq : key = pair.1
    · rw [if_pos heq, heq, if_pos Std.ReflOrd.compare_self, Option.some_or]
    · have hne : compare pair.1 key ≠ .eq := fun h => heq (Std.LawfulEqOrd.eq_of_compare h).symm
      rw [if_neg heq, if_neg hne, Option.none_or]

/-- Whatever a tree held, after it was filled with pairs it is a search tree with the bindings that inserting the pairs one after the
other into an empty tree leads to, so that the last payload of every key counts. At every node the left side has as many nodes as the
right side, or one more. There is one node for each key, the height is the number of binary digits of their number, and no tree with
as many nodes is lower. -/
theorem fill_as_inserted_and_balanced (tree : BinaryTree κ ν) (pairs : List (κ × ν)) :
    let filled := (tree.updated (.fill pairs)).2
    let grown := pairs.foldl (fun grown pair => grown.insert pair.1 pair.2) (empty : BinaryTree κ ν)
    let count := (pairs.map Prod.fst).toFinset.card
    filled.Sound ∧ filled.toList = grown.toList ∧
    (∀ key, filled.find? key = grown.find? key ∧ filled.find? key = SearchTree.lastGiven key pairs) ∧
    filled.shape.Halved ∧ filled.size = count ∧
    filled.height = (if count = 0 then 0 else Nat.log 2 count + 1) ∧
    ∀ other : SearchTree κ ν, other.size = count → filled.height ≤ other.height := by
  intro filled grown count
  obtain ⟨hsound, hshape⟩ := ofPairs_eq pairs
  obtain ⟨hgrown, hlast⟩ := find?_foldl_insert pairs (sound_empty (κ := κ) (ν := ν))
  obtain ⟨layout, hlaid⟩ := hsound.laid
  have hfilled (key : κ) : filled.find? key = SearchTree.lastGiven key pairs := by
    rw [← SearchTree.find?_ofPairs, ← hshape]
    exact hsound.find?_eq key
  have hsame (key : κ) : filled.find? key = grown.find? key := by
    rw [hfilled, hlast]
    exact (Option.or_none).symm
  have hhalved : filled.shape.Halved := by
    rw [show filled.shape = SearchTree.ofPairs pairs from hshape]
    exact SearchTree.halved_balanced _
  have hsize : filled.size = count := size_ofPairs pairs
  have hheight : filled.height = filled.shape.height := hlaid.height_eq.trans (congrArg SearchTree.height hlaid.shape_eq.symm)
  have hnodes : filled.shape.size = count :=
    (congrArg SearchTree.size hlaid.shape_eq).trans (hlaid.size_eq.symm.trans hsize)
  refine ⟨hsound, toList_eq_of_find?_eq hsound hgrown hsame, fun key => ⟨hsame key, hfilled key⟩, hhalved, hsize, ?_, ?_⟩
  · rw [hheight, hhalved.height_eq, hnodes]
  · intro other hother
    rw [hheight]
    exact hhalved.height_le (hother.trans hnodes.symm)

/-- Filling a tree that holds something with pairs of four keys in no order, one of them given three times. -/
theorem fill_as_inserted_and_balanced_repeated :
    Std.TransOrd Value ∧ Std.LawfulEqOrd Value ∧
    let filled := (((empty : BinaryTree Value String).insert (.int 9) "z").updated
      (.fill [(.text "x", "a"), (.int 3, "b"), (.text "x", "c"), (.int (-1), "d"), (.int 2, "e"), (.text "x", "f")])).2
    filled.find? (.text "x") = some "f" ∧ filled.find? (.int 9) = none ∧ filled.height = 3 := by
  have h := fill_as_inserted_and_balanced ((empty : BinaryTree Value String).insert (.int 9) "z")
    [(.text "x", "a"), (.int 3, "b"), (.text "x", "c"), (.int (-1), "d"), (.int 2, "e"), (.text "x", "f")]
  refine ⟨inferInstance, inferInstance, (h.2.2.1 (.text "x")).2.trans (by decide), (h.2.2.1 (.int 9)).2.trans (by decide),
    h.2.2.2.2.2.1.trans (by decide)⟩

end BinaryTree

end SqlEngine
