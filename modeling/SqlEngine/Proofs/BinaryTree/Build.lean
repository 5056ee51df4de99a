import SqlEngine.Proofs.BinaryTree.Change

/-!
# Building an array at a stroke

Building puts the nodes of a balanced search tree one behind the other in the array (`build_eq`), so a tree that is built from
pairs is laid out as the search tree that is (`laid_ofPairs`).
-/

namespace SqlEngine

namespace BinaryTree

variable {κ ν : Type}

/-! ## Splitting the list -/

section

variable {bindings after : List (κ × ν)} {key : κ} {payload : ν}

theorem balanced_of_drop_nil (h : bindings.drop (bindings.length / 2) = []) : SearchTree.balanced bindings = .leaf := by
  rw [SearchTree.balanced]
  split
  · rfl
  next hdrop => exact absurd (hdrop.symm.trans h) (List.cons_ne_nil _ _)

theorem balanced_of_drop_cons (h : bindings.drop (bindings.length / 2) = (key, payload) :: after) :
    SearchTree.balanced bindings = .node (SearchTree.balanced (bindings.take (bindings.length / 2))) key payload
      (SearchTree.balanced after) := by
  rw [SearchTree.balanced]
  split
  next hdrop => exact absurd (h.symm.trans hdrop) (List.cons_ne_nil _ _)
  next hdrop =>
    obtain ⟨hbinding, rfl⟩ := List.cons_eq_cons.mp (hdrop.symm.trans h)
    obtain ⟨rfl, rfl⟩ := Prod.mk.inj hbinding
    rfl

theorem build_of_drop_nil (h : bindings.drop (bindings.length / 2) = []) (nodes : Array (Node κ ν)) :
    build bindings nodes = (none, nodes) := by
  rw [build]
  split
  · rfl
  next hdrop => exact absurd (hdrop.symm.trans h) (List.cons_ne_nil _ _)

theorem build_of_drop_cons (h : bindings.drop (bindings.length / 2) = (key, payload) :: after) (nodes : Array (Node κ ν)) :
    build bindings nodes =
      let withLeft := build (bindings.take (bindings.length / 2)) (nodes.push { key, payload, left := none, right := none })
      let withRight := build after withLeft.2
      (some nodes.size, withRight.2.modify nodes.size fun node => { node with left := withLeft.1, right := withRight.1 }) := by
  rw [build]
  split
  next hdrop => exact absurd (h.symm.trans hdrop) (List.cons_ne_nil _ _)
  next hdrop =>
    obtain ⟨hbinding, rfl⟩ := List.cons_eq_cons.mp (hdrop.symm.trans h)
    obtain ⟨rfl, rfl⟩ := Prod.mk.inj hbinding
    rfl

end

/-! ## What is built -/

/-- Nodes built behind others, from the position of the first of them on. -/
structure Built (before : Array (Node κ ν)) (bindings : List (κ × ν)) (root : Option Nat) (nodes : Array (Node κ ν))
    (layout : Layout κ ν) : Prop where
  root : root = layout.root?
  stored : Stores nodes layout.records
  shape : layout.shape = SearchTree.balanced bindings
  positions : layout.positions.Perm (List.range' before.size bindings.length)
  size : nodes.size = before.size + bindings.length
  kept : ∀ position < before.size, nodes[position]? = before[position]?

namespace Built

variable {before middle nodes : Array (Node κ ν)} {bindings first later : List (κ × ν)} {leftRoot rightRoot : Option Nat}
  {left right layout : Layout κ ν} {key : κ} {payload : ν}

theorem position_bounds (h : Built before bindings leftRoot nodes layout) {position : Nat} (hmem : position ∈ layout.positions) :
    before.size ≤ position ∧ position < nodes.size := by
  rw [h.positions.mem_iff, List.mem_range'_1, ← h.size] at hmem
  exact hmem

/-- A node is put behind the others, then its sides behind it, and then it is made to refer to them. -/
theorem node (hleft : Built (before.push { key, payload, left := none, right := none }) first leftRoot middle left)
    (hright : Built middle later rightRoot nodes right)
    (hshape : SearchTree.balanced bindings = .node (SearchTree.balanced first) key payload (SearchTree.balanced later))
    (hlength : bindings.length = first.length + 1 + later.length) :
    Built before bindings (some before.size)
      (nodes.modify before.size fun node => { node with left := leftRoot, right := rightRoot })
      (.node left before.size key payload right) := by
  have hmiddle : middle.size = before.size + 1 + first.length := by rw [hleft.size, Array.size_push]
  have hown : nodes[before.size]? = some { key, payload, left := none, right := none } := by
    rw [hright.kept _ (by omega), hleft.kept _ (by rw [Array.size_push]; exact Nat.lt_succ_self _)]
    exact Array.getElem?_push_size
  have hkeptLeft : Stores nodes left.records := by
    refine hleft.stored.congr fun position hmem => hright.kept position ?_
    rw [left.map_fst_records] at hmem
    exact (hleft.position_bounds hmem).2
  have hfresh : before.size ∉ (left.records ++ right.records).map Prod.fst := by
    rw [List.map_append, left.map_fst_records, right.map_fst_records, List.mem_append]
    rintro (hmem | hmem)
    · have hbounds := (hleft.position_bounds hmem).1
      rw [Array.size_push] at hbounds
      omega
    · have hbounds := (hright.position_bounds hmem).1
      omega
  refine ⟨rfl, ?_, ?_, ?_, ?_, ?_⟩
  · have hstored := Stores.modify (stores_cons.mpr ⟨hown, stores_append.mpr ⟨hkeptLeft, hright.stored⟩⟩) hfresh
      fun node => { node with left := leftRoot, right := rightRoot }
    rw [hleft.root, hright.root] at hstored ⊢
    exact hstored
  · rw [hshape, Layout.shape, hleft.shape, hright.shape]
  · have hpositions := (hleft.positions.append hright.positions).cons before.size
    rw [hmiddle, Array.size_push, List.range'_append_1] at hpositions
    rw [hlength, show first.length + 1 + later.length = (first.length + later.length) + 1 by omega, List.range'_succ]
    exact hpositions
  · rw [Array.size_modify, hright.size]
    omega
  · intro position hposition
    rw [Array.getElem?_modify, if_neg (by omega), hright.kept _ (by omega),
      hleft.kept _ (by rw [Array.size_push]; omega), Array.getElem?_push, if_neg (by omega)]

end Built

/-- The nodes of the balanced search tree of a list are put behind those that are there. -/
theorem build_eq (bindings : List (κ × ν)) (nodes : Array (Node κ ν)) :
    ∃ layout, Built nodes bindings (build bindings nodes).1 (build bindings nodes).2 layout := by
  induction hlength : bindings.length using Nat.strongRecOn generalizing bindings nodes with
  | ind length ih =>
    have hsplit := congrArg List.length (List.take_append_drop (bindings.length / 2) bindings)
    rw [List.length_append] at hsplit
    cases hdrop : bindings.drop (bindings.length / 2) with
    | nil =>
      have hhalf := congrArg List.length hdrop
      rw [List.length_drop, List.length_nil] at hhalf
      have hnil : bindings.length = 0 := by omega
      rw [build_of_drop_nil hdrop]
      refine ⟨.leaf, rfl, stores_nil, (balanced_of_drop_nil hdrop).symm, ?_, by rw [hnil]; rfl, fun _ _ => rfl⟩
      rw [hnil]
      exact .nil
    | cons binding after =>
      obtain ⟨key, payload⟩ := binding
      rw [hdrop, List.length_cons] at hsplit
      rw [build_of_drop_cons hdrop]
      obtain ⟨left, hleft⟩ := ih _ (by omega) (bindings.take (bindings.length / 2))
        (nodes.push { key, payload, left := none, right := none }) rfl
      obtain ⟨right, hright⟩ := ih _ (by omega) after (build (bindings.take (bindings.length / 2))
        (nodes.push { key, payload, left := none, right := none })).2 rfl
      exact ⟨_, hleft.node hright (balanced_of_drop_cons hdrop) (by omega)⟩

/-- A tree of pairs is laid out as the search tree of the pairs. -/
theorem laid_ofPairs [Ord κ] (pairs : List (κ × ν)) :
    ∃ layout, (ofPairs pairs).Laid layout ∧ layout.shape = SearchTree.ofPairs pairs := by
  obtain ⟨layout, h⟩ :=
    build_eq (SearchTree.lastOfEach (pairs.mergeSort fun a b => (compare a.1 b.1).isLE)) (#[] : Array (Node κ ν))
  refine ⟨layout, ⟨h.root, h.stored, ?_⟩, h.shape⟩
  have hsize : (ofPairs pairs).size = _ := h.size
  rw [hsize, List.range_eq_range']
  exact (Nat.zero_add _).symm ▸ h.positions

end BinaryTree

end SqlEngine
