import SqlEngine.Proofs.BinaryTree.Build
import SqlEngine.Proofs.BinaryTree.Removal
import SqlEngine.Proofs.BinaryTree.Walk
import SqlEngine.Proofs.SearchTree.Bulk

/-!
# The search tree that an array forms

A tree is sound when its array holds the nodes of a layout and no others, and the search tree that they form is in order
(`BinaryTree.Sound`). Every operation on a sound tree is the operation of its name on that search tree, which is the shape of the
tree, and leaves a sound tree. So what an operation does to the bindings is known from search trees.
-/

namespace SqlEngine

namespace BinaryTree

variable {κ ν : Type}

theorem shapeUnder_eq {tree : BinaryTree κ ν} {layout : Layout κ ν} (h : Stores tree.nodes layout.records) :
    ∀ {fuel : Nat}, layout.shape.size ≤ fuel → tree.shapeUnder fuel layout.root? = layout.shape := by
  induction layout with
  | leaf =>
    intro fuel _
    cases fuel <;> rfl
  | node left position key payload right ihLeft ihRight =>
    intro fuel hfuel
    obtain ⟨hown, hsides⟩ := stores_cons.mp h
    obtain ⟨hleft, hright⟩ := stores_append.mp hsides
    rw [Layout.shape, SearchTree.size] at hfuel
    obtain ⟨fuel, rfl⟩ : ∃ less, fuel = less + 1 := ⟨fuel - 1, by omega⟩
    simp only [shapeUnder, Layout.root?_node, hown, Layout.shape, ihLeft hleft (show _ ≤ fuel by omega),
      ihRight hright (show _ ≤ fuel by omega)]

/-- A tree that is laid out as a layout has the shape of the layout. -/
theorem Laid.shape_eq {tree : BinaryTree κ ν} {layout : Layout κ ν} (h : tree.Laid layout) : tree.shape = layout.shape := by
  rw [shape, h.root]
  exact shapeUnder_eq h.stored (Nat.le_of_eq h.size_eq.symm)

variable [Ord κ]

/-- The array holds the nodes of a layout and no others, and they form a search tree in order. -/
structure Sound (tree : BinaryTree κ ν) : Prop where
  laid : ∃ layout, tree.Laid layout
  ordered : tree.shape.Ordered

/-- A tree is sound and has a shape in order if it is laid out as a layout of the shape. -/
theorem sound_of_laid {tree : BinaryTree κ ν} {shape : SearchTree κ ν} (h : ∃ layout, tree.Laid layout ∧ layout.shape = shape)
    (hordered : shape.Ordered) : tree.Sound ∧ tree.shape = shape := by
  obtain ⟨layout, hlaid, rfl⟩ := h
  exact ⟨⟨⟨layout, hlaid⟩, hlaid.shape_eq ▸ hordered⟩, hlaid.shape_eq⟩

theorem sound_empty : (empty : BinaryTree κ ν).Sound := ⟨⟨.leaf, .empty⟩, SearchTree.ordered_leaf⟩

/-! ## Operations on the shape -/

namespace Sound

variable {tree : BinaryTree κ ν} (h : tree.Sound)

include h

theorem find?_eq (key : κ) : tree.find? key = tree.shape.find? key := by
  obtain ⟨layout, hlaid⟩ := h.laid
  rw [hlaid.shape_eq, hlaid.find?_eq]

/-- There are as many nodes as bindings. -/
theorem size_eq : tree.size = tree.toList.length := by
  obtain ⟨layout, hlaid⟩ := h.laid
  rw [toList, hlaid.shape_eq, hlaid.size_eq, SearchTree.size_eq_length]

theorem modify_eq (key : κ) (change : ν → ν) :
    (tree.modify key change).Sound ∧ (tree.modify key change).shape = tree.shape.modify key change := by
  obtain ⟨layout, hlaid⟩ := h.laid
  exact sound_of_laid (hlaid.shape_eq ▸ hlaid.modify key change) (SearchTree.ordered_modify h.ordered key change)

section

variable [Std.TransOrd κ]

/-- What a removal gives and leaves. -/
theorem remove_eq (key : κ) : (tree.remove key).1 = tree.find? key ∧
    (tree.remove key).2.Sound ∧ (tree.remove key).2.shape = tree.shape.erase key := by
  obtain ⟨layout, hlaid⟩ := h.laid
  have hordered := h.ordered
  rw [hlaid.find?_eq]
  rw [hlaid.shape_eq] at hordered ⊢
  obtain ⟨after, hafter, hshape, htaken⟩ := hlaid.remove hordered key
  exact ⟨htaken, sound_of_laid ⟨after, hafter, hshape⟩ (SearchTree.ordered_erase hordered key)⟩

theorem erase (key : κ) : (tree.erase key).Sound := (h.remove_eq key).2.1

theorem shape_erase (key : κ) : (tree.erase key).shape = tree.shape.erase key := (h.remove_eq key).2.2

end

variable [Std.TransOrd κ] [Std.LawfulEqOrd κ]

theorem insert_eq (key : κ) (payload : ν) :
    (tree.insert key payload).Sound ∧ (tree.insert key payload).shape = tree.shape.insert key payload := by
  obtain ⟨layout, hlaid⟩ := h.laid
  exact sound_of_laid (hlaid.shape_eq ▸ hlaid.insert key payload) (SearchTree.ordered_insert h.ordered key payload)

theorem insert (key : κ) (payload : ν) : (tree.insert key payload).Sound := (h.insert_eq key payload).1

theorem shape_insert (key : κ) (payload : ν) : (tree.insert key payload).shape = tree.shape.insert key payload :=
  (h.insert_eq key payload).2

end Sound

/-- A tree of pairs is sound, and its shape is the search tree of the pairs. -/
theorem ofPairs_eq [Std.TransOrd κ] (pairs : List (κ × ν)) :
    (ofPairs pairs).Sound ∧ (ofPairs pairs).shape = SearchTree.ofPairs pairs :=
  sound_of_laid (laid_ofPairs pairs) (SearchTree.ordered_ofPairs pairs)

/-! ## Bindings -/

section

variable [Std.TransOrd κ] [Std.LawfulEqOrd κ] {tree : BinaryTree κ ν} (h : tree.Sound)

include h

/-- A key is found with a payload exactly when the two are a binding. -/
theorem find?_eq_some_iff {key : κ} {value : ν} : tree.find? key = some value ↔ (key, value) ∈ tree.toList := by
  rw [h.find?_eq]
  exact SearchTree.find?_eq_some_iff h.ordered

/-- Inserting a binding puts it in place of the one of its key. -/
theorem mem_toList_insert {key : κ} {value : ν} {binding : κ × ν} :
    binding ∈ (tree.insert key value).toList ↔ binding = (key, value) ∨ binding.1 ≠ key ∧ binding ∈ tree.toList := by
  rw [toList, h.shape_insert]
  exact SearchTree.mem_toList_insert h.ordered

/-- Erasing a key takes its binding away and no other. -/
theorem mem_toList_erase {key : κ} {binding : κ × ν} :
    binding ∈ (tree.erase key).toList ↔ binding.1 ≠ key ∧ binding ∈ tree.toList := by
  rw [toList, h.shape_erase]
  exact SearchTree.mem_toList_erase h.ordered

/-- The payloads below a bound are those of the bindings whose key lies there. -/
theorem mem_payloadsBelow_iff {bound : κ} {included : Bool} {value : ν} : value ∈ tree.payloadsBelow bound included ↔
    ∃ key, (key, value) ∈ tree.toList ∧ SearchTree.IsBelow bound included key := by
  obtain ⟨layout, hlaid⟩ := h.laid
  have hsize := Nat.le_of_eq hlaid.size_eq.symm
  rw [payloadsBelow, hlaid.root, mem_payloadsBelowFrom_iff hlaid.stored hsize hsize, ← hlaid.shape_eq]
  exact SearchTree.mem_payloadsBelow_iff h.ordered

/-- The payloads above a bound are those of the bindings whose key lies there. -/
theorem mem_payloadsAbove_iff {bound : κ} {included : Bool} {value : ν} : value ∈ tree.payloadsAbove bound included ↔
    ∃ key, (key, value) ∈ tree.toList ∧ SearchTree.IsAbove bound included key := by
  obtain ⟨layout, hlaid⟩ := h.laid
  have hsize := Nat.le_of_eq hlaid.size_eq.symm
  rw [payloadsAbove, hlaid.root, mem_payloadsAboveFrom_iff hlaid.stored hsize hsize, ← hlaid.shape_eq]
  exact SearchTree.mem_payloadsAbove_iff h.ordered

end

/-- The tree of pairs that ascend strictly holds the pairs, and nothing else. -/
theorem toList_ofPairs_of_ascending [Std.TransOrd κ] {pairs : List (κ × ν)}
    (h : pairs.Pairwise fun a b => compare a.1 b.1 = .lt) : (ofPairs pairs).toList = pairs := by
  rw [toList, (ofPairs_eq pairs).2]
  exact SearchTree.toList_ofPairs_of_ascending h

end BinaryTree

end SqlEngine
