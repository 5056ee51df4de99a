import SqlEngine.Proofs.BinaryTree.Search

/-!
# Changing an array as the search tree changes

Insertions and changes of payloads make of a tree that is laid out as a layout one that is laid out as another layout, whose
search tree is that of the first one changed in the same way (`Laid.insert`, `Laid.modify`). The first step of every removal is to
make what refers to a node refer to one of its sides; the tree is then laid out but for the one position to which nothing refers
any more (`Laid.setLink`).
-/

namespace SqlEngine

namespace BinaryTree

variable {κ ν : Type}

/-- The tree is laid out as the layout says, and every position but one holds a node of it. -/
structure LaidBut (tree : BinaryTree κ ν) (layout : Layout κ ν) (gap : Nat) : Prop where
  root : tree.root = layout.root?
  stored : Stores tree.nodes layout.records
  positions : (gap :: layout.positions).Perm (List.range tree.size)

@[simp] theorem size_setLink (tree : BinaryTree κ ν) (link : Link) (target : Option Nat) :
    (tree.setLink link target).size = tree.size := by
  unfold setLink
  split
  · rfl
  · exact Array.size_modify
  · exact Array.size_modify

namespace Laid

variable {tree : BinaryTree κ ν}

/-- What refers to a place lies around it, so to change the link leaves the nodes at the place alone. -/
theorem getElem?_setLink {hole : Hole κ ν} {place : Layout κ ν} (h : tree.Laid (hole.fill place)) (target : Option Nat)
    {position : Nat} (hmem : position ∈ place.positions) :
    (tree.setLink hole.link target).nodes[position]? = tree.nodes[position]? := by
  obtain ⟨_, hnodup, hdisjoint⟩ := Hole.nodup_fill h.nodup
  have haround := (stores_fill.mp h.stored).2
  obtain ⟨_, _, hothers⟩ := stores_setLink (h.root.trans (hole.root?_fill place)) haround hnodup target
  exact hothers position (hdisjoint position hmem)

/-- What refers to a place may be made to refer to a part of it that leaves one position out. -/
theorem setLink {hole : Hole κ ν} {before after : Layout κ ν} {gap : Nat} (h : tree.Laid (hole.fill before))
    (hpart : after.records ⊆ before.records) (hgap : before.positions.Perm (gap :: after.positions)) :
    (tree.setLink hole.link after.root?).LaidBut (hole.fill after) gap := by
  obtain ⟨_, hnodup, _⟩ := Hole.nodup_fill h.nodup
  obtain ⟨hplace, haround⟩ := stores_fill.mp h.stored
  obtain ⟨hroot, hstored, _⟩ := stores_setLink (h.root.trans (hole.root?_fill before)) haround hnodup after.root?
  refine ⟨by rw [hroot, Hole.root?_fill], stores_fill.mpr ⟨?_, hstored⟩, ?_⟩
  · refine (hplace.subset hpart).congr fun position hmem => h.getElem?_setLink _ ?_
    rw [Layout.map_fst_records] at hmem
    exact hgap.symm.subset (List.mem_cons_of_mem gap hmem)
  · rw [size_setLink]
    refine List.Perm.trans ?_ h.positions
    refine (((hole.positions_fill after).cons gap).trans ?_).trans (hole.positions_fill before).symm
    exact hgap.symm.append_right hole.positions

/-- The binding at a node may be changed. -/
theorem modifyNode {hole : Hole κ ν} {left right : Layout κ ν} {position : Nat} {key : κ} {payload : ν}
    (h : tree.Laid (hole.fill (.node left position key payload right))) (newKey : κ) (newPayload : ν) {change : Node κ ν → Node κ ν}
    (hchange : change { key, payload, left := left.root?, right := right.root? } =
      { key := newKey, payload := newPayload, left := left.root?, right := right.root? }) :
    Laid { tree with nodes := tree.nodes.modify position change }
      (hole.fill (.node left position newKey newPayload right)) := by
  obtain ⟨hown, _, hdisjoint⟩ := Hole.nodup_fill h.nodup
  obtain ⟨hplace, haround⟩ := stores_fill.mp h.stored
  refine ⟨?_, ?_, ?_⟩
  · exact h.root.trans ((hole.root?_fill _).trans (hole.root?_fill (.node left position newKey newPayload right)).symm)
  · have hfresh : position ∉ ((left.records ++ right.records) ++ hole.records (some position)).map Prod.fst := by
      simp only [List.map_append, Layout.map_fst_records, Hole.map_fst_records, List.mem_append, not_or]
      obtain ⟨hfresh, -⟩ := List.nodup_cons.mp hown
      rw [List.mem_append, not_or] at hfresh
      exact ⟨hfresh, hdisjoint position List.mem_cons_self⟩
    have hstored := Stores.modify (stores_append.mpr ⟨hplace, haround⟩) hfresh change
    rw [hchange] at hstored
    exact stores_fill.mpr (stores_append.mp hstored)
  · rw [show ({ tree with nodes := tree.nodes.modify position change } : BinaryTree κ ν).size = tree.size from
      Array.size_modify]
    have hsame := (hole.positions_fill (.node left position newKey newPayload right)).trans
      (hole.positions_fill (.node left position key payload right)).symm
    exact hsame.trans h.positions

/-- A new node may be put at a place that is empty. -/
theorem alloc {hole : Hole κ ν} (h : tree.Laid (hole.fill .leaf)) (key : κ) (payload : ν) :
    ((tree.alloc key payload).setLink hole.link (some tree.size)).Laid
      (hole.fill (.node .leaf tree.size key payload .leaf)) := by
  have hpositions : hole.positions.Perm (List.range tree.size) := (hole.positions_fill .leaf).symm.trans h.positions
  have hfresh : tree.size ∉ hole.positions := by
    rw [hpositions.mem_iff, List.mem_range]
    exact Nat.lt_irrefl tree.size
  have haround : Stores (tree.alloc key payload).nodes (hole.records none) := by
    refine (stores_fill.mp h.stored).2.congr fun position hmem => ?_
    rw [Hole.map_fst_records] at hmem
    refine Array.getElem?_push.trans (if_neg ?_)
    rintro rfl
    exact hfresh hmem
  have hroot : (tree.alloc key payload).root = hole.root? none := h.root.trans (hole.root?_fill .leaf)
  obtain ⟨_, hnodup, _⟩ := Hole.nodup_fill h.nodup
  obtain ⟨hroot, hstored, hothers⟩ := stores_setLink hroot haround hnodup (some tree.size)
  refine ⟨by rw [hroot, Hole.root?_fill]; rfl, stores_fill.mpr ⟨?_, hstored⟩, ?_⟩
  · refine stores_cons.mpr ⟨?_, stores_nil⟩
    rw [hothers tree.size hfresh]
    exact Array.getElem?_push_size
  · rw [size_setLink, show (tree.alloc key payload).size = tree.size + 1 from Array.size_push _, List.range_succ]
    refine (hole.positions_fill _).trans (List.Perm.trans ?_ List.perm_append_comm)
    exact hpositions.cons tree.size

variable [Ord κ] {layout : Layout κ ν}

/-- A payload is inserted for a key as in a search tree. -/
theorem insert (h : tree.Laid layout) (key : κ) (payload : ν) :
    ∃ after, (tree.insert key payload).Laid after ∧ after.shape = layout.shape.insert key payload := by
  obtain ⟨hole, place, rfl, hway, hmeets, hsearch⟩ := h.search_eq key
  unfold BinaryTree.insert
  rw [hsearch]
  cases place with
  | leaf => exact ⟨_, h.alloc key payload, (hway.shape_fill (goesTo_insert key payload) rfl).symm⟩
  | node left position own value right =>
    have hcompare : compare key own = .eq := hmeets
    refine ⟨_, h.modifyNode own payload rfl, (hway.shape_fill (goesTo_insert key payload) ?_).symm⟩
    simp only [Layout.shape, SearchTree.insert, hcompare]

/-- The payload of a key is changed as in a search tree. -/
theorem modify (h : tree.Laid layout) (key : κ) (change : ν → ν) :
    ∃ after, (tree.modify key change).Laid after ∧ after.shape = layout.shape.modify key change := by
  obtain ⟨hole, place, rfl, hway, hmeets, hsearch⟩ := h.search_eq key
  unfold BinaryTree.modify position?
  rw [hsearch]
  cases place with
  | leaf => exact ⟨_, h, (hway.shape_fill (goesTo_modify key change) rfl).symm⟩
  | node left position own value right =>
    have hcompare : compare key own = .eq := hmeets
    refine ⟨_, h.modifyNode own (change value) rfl, (hway.shape_fill (goesTo_modify key change) ?_).symm⟩
    simp only [Layout.shape, SearchTree.modify, hcompare]

end Laid

end BinaryTree

end SqlEngine
