import SqlEngine.Proofs.BinaryTree.FiniteMap
import SqlEngine.Proofs.SearchTree.Around

/-!
# Where a tree changes

Trees that updates lead to are sound (`sound_updatedInTurn`). An insertion or a removal changes the search tree that the nodes form
at the place of the key, and nothing around it, wherever nodes may move in the array (`changes_at_place`).
-/

namespace SqlEngine

namespace BinaryTree

variable {κ ν : Type} [Ord κ]

/-- To remove a key that is not there changes nothing, not even where nodes lie. -/
theorem Sound.remove_of_find?_eq_none {tree : BinaryTree κ ν} (h : tree.Sound) {key : κ} (hfind : tree.find? key = none) :
    tree.remove key = (none, tree) := by
  obtain ⟨layout, hlaid⟩ := h.laid
  obtain ⟨hole, place, rfl, hway, hmeets, hsearch⟩ := hlaid.search_eq key
  rw [hlaid.find?_eq, hway.find?_fill] at hfind
  cases place with
  | leaf => simp only [BinaryTree.remove, hsearch, Layout.root?]
  | node left position own payload right =>
    have hcompare : compare key own = .eq := hmeets
    simp only [Layout.shape, SearchTree.find?, hcompare, reduceCtorEq] at hfind

variable [Std.TransOrd κ] [Std.LawfulEqOrd κ]

/-! ## Updates keep a tree sound -/

theorem Sound.updated {tree : BinaryTree κ ν} (h : tree.Sound) (update : Update κ ν) : (tree.updated update).2.Sound := by
  cases update with
  | insert key payload => exact h.insert key payload
  | remove key => exact h.erase key
  | fill pairs => exact (ofPairs_eq pairs).1
  | replace key payload => exact (h.modify_eq key fun _ => payload).1

theorem Sound.updatedInTurn (updates : List (Update κ ν)) : ∀ {tree : BinaryTree κ ν}, tree.Sound →
    (BinaryTree.updatedInTurn BinaryTree.updated tree updates).2.Sound := by
  induction updates with
  | nil => exact id
  | cons update rest ih => exact fun h => ih (h.updated update)

/-- Any updates from nothing lead to a sound tree. -/
theorem sound_updatedInTurn (updates : List (Update κ ν)) :
    (updatedInTurn updated (empty : BinaryTree κ ν) updates).2.Sound := sound_empty.updatedInTurn updates

/-! ## Changes at a place -/

/-- What an insertion and a removal make of what lies at the place of a key. -/
theorem Sound.shape_at_place {tree : BinaryTree κ ν} (h : tree.Sound) (key : κ) :
    ∃ (around : SearchTree.Around κ ν) (place : SearchTree κ ν), around.Sends key ∧ place.Meets key ∧
      tree.shape = around.fill place ∧ tree.find? key = place.find? key ∧
      (∀ payload, (tree.insert key payload).shape = around.fill (place.insert key payload)) ∧
      (tree.remove key).2.shape = around.fill (place.erase key) := by
  obtain ⟨around, place, hfill, hsends, hmeets⟩ := SearchTree.exists_around key tree.shape
  refine ⟨around, place, hsends, hmeets, hfill, ?_, fun payload => ?_, ?_⟩
  · rw [h.find?_eq, hfill, hsends.find?_fill]
  · rw [h.shape_insert, hfill]
    exact hsends.fill (goesTo_insert key payload) place
  · rw [(h.remove_eq key).2.2, hfill]
    exact hsends.fill (goesTo_erase key) place

/-- Whatever updates led to a tree, to remove a key gives the payload that the key has, and nothing if it has none. A key that is not
there is inserted as one leaf, at the place to which all nodes above it send the key, and to remove it changes nothing. Of a key that
is there an insertion changes the payload alone, and a removal puts in the place of its node the only side that holds anything, or
else the left side under the leftmost binding of the right side, in whose place the right side of the leftmost node moves. All that
is around the place stays as it is. -/
theorem changes_at_place (updates : List (Update κ ν)) (key : κ) :
    let tree := (updatedInTurn updated (empty : BinaryTree κ ν) updates).2
    (∀ payload, (tree.remove key).1 = some payload ↔ (key, payload) ∈ tree.toList) ∧
    ((∀ payload, (key, payload) ∉ tree.toList) → tree.remove key = (none, tree) ∧
      ∃ around : SearchTree.Around κ ν, around.Sends key ∧ tree.shape = around.fill .leaf ∧
        ∀ payload, (tree.insert key payload).shape = around.fill (.node .leaf key payload .leaf)) ∧
    ∀ old, (key, old) ∈ tree.toList → ∃ (around : SearchTree.Around κ ν) (left right rest : SearchTree κ ν),
      around.Sends key ∧ tree.shape = around.fill (.node left key old right) ∧
      (∀ payload, (tree.insert key payload).shape = around.fill (.node left key payload right)) ∧
      SearchTree.Closes left right rest ∧ (tree.remove key).2.shape = around.fill rest := by
  intro tree
  have h : tree.Sound := sound_updatedInTurn updates
  refine ⟨fun payload => ?_, fun habsent => ?_, fun old hold => ?_⟩
  · rw [(h.remove_eq key).1, find?_eq_some_iff h]
  · have hnone : tree.find? key = none := by
      refine Option.eq_none_iff_forall_ne_some.mpr fun payload hfind => ?_
      exact habsent payload ((find?_eq_some_iff h).mp hfind)
    obtain ⟨around, place, hsends, hmeets, hfill, hfind, hinsert, _⟩ := h.shape_at_place key
    cases place with
    | leaf => exact ⟨h.remove_of_find?_eq_none hnone, around, hsends, hfill, hinsert⟩
    | node left own payload right =>
      have hcompare : compare key own = .eq := hmeets
      simp only [hnone, SearchTree.find?, hcompare, reduceCtorEq] at hfind
  · obtain ⟨around, place, hsends, hmeets, hfill, hfind, hinsert, herase⟩ := h.shape_at_place key
    rw [(find?_eq_some_iff h).mpr hold] at hfind
    cases place with
    | leaf => simp only [SearchTree.find?, reduceCtorEq] at hfind
    | node left own payload right =>
      obtain rfl : key = own := Std.LawfulEqOrd.eq_of_compare hmeets
      have hcompare : compare key key = .eq := Std.ReflOrd.compare_self
      simp only [SearchTree.find?, hcompare, Option.some.injEq] at hfind
      simp only [SearchTree.insert, SearchTree.erase, hcompare] at hinsert herase
      exact ⟨around, left, right, _, hsends, hfind ▸ hfill, hinsert, SearchTree.closes_glue left right, herase⟩

/-- Removing a key whose node has two sides, where the leftmost node of the right side has a right side of its own. -/
theorem changes_at_place_successor :
    Std.TransOrd Value ∧ Std.LawfulEqOrd Value ∧
    let tree := (updatedInTurn updated (empty : BinaryTree Value String)
      [.insert (.int 4) "d", .insert (.int 2) "b", .insert (.int 8) "h", .insert (.int 6) "f", .insert (.int 7) "g"]).2
    (Value.int 4, "d") ∈ tree.toList ∧
    ∃ (around : SearchTree.Around Value String) (left right rest : SearchTree Value String),
      around.Sends (.int 4) ∧ tree.shape = around.fill (.node left (.int 4) "d" right) ∧
      (∀ payload, (tree.insert (.int 4) payload).shape = around.fill (.node left (.int 4) payload right)) ∧
      SearchTree.Closes left right rest ∧ (tree.remove (.int 4)).2.shape = around.fill rest :=
  ⟨inferInstance, inferInstance, by decide, (changes_at_place _ _).2.2 "d" (by decide)⟩

end BinaryTree

end SqlEngine
