import Mathlib.Data.List.Range
import SqlEngine.Proofs.BinaryTree.Layout
import SqlEngine.Proofs.SearchTree.Bindings

/-!
# Searching an array for keys

A tree is laid out as a layout when its array stores the layout and nothing else (`Laid`). The descent to a key then ends at a place
of the layout that all nodes above it send the key to (`Laid.search_eq`), and finds there what the search tree has for the key
(`Laid.find?_eq`), at the position of the only node with the key (`Laid.position?_eq_some_iff`).
-/

namespace SqlEngine

namespace BinaryTree

variable {κ ν : Type}

/-- The tree is laid out as the layout says, and every position holds a node of it. -/
structure Laid (tree : BinaryTree κ ν) (layout : Layout κ ν) : Prop where
  root : tree.root = layout.root?
  stored : Stores tree.nodes layout.records
  positions : layout.positions.Perm (List.range tree.size)

namespace Laid

variable {tree : BinaryTree κ ν} {layout : Layout κ ν}

theorem empty : (BinaryTree.empty : BinaryTree κ ν).Laid .leaf := ⟨rfl, stores_nil, .nil⟩

theorem nodup (h : tree.Laid layout) : layout.positions.Nodup := h.positions.nodup_iff.mpr List.nodup_range

/-- There are as many nodes as bindings. -/
theorem size_eq (h : tree.Laid layout) : tree.size = layout.shape.size := by
  rw [← layout.length_positions, h.positions.length_eq, List.length_range]

/-- There are no fewer nodes than bindings at a place. -/
theorem size_le {hole : Hole κ ν} {place : Layout κ ν} (h : tree.Laid (hole.fill place)) : place.shape.size ≤ tree.size := by
  rw [h.size_eq, ← Layout.length_positions, ← Layout.length_positions, (hole.positions_fill place).length_eq,
    List.length_append]
  exact Nat.le_add_right _ _

/-- The node at a position is that of a place of the layout. -/
theorem exists_fill_eq (h : tree.Laid layout) {position : Nat} {node : Node κ ν} (hnode : tree.nodes[position]? = some node) :
    ∃ (hole : Hole κ ν) (left right : Layout κ ν), layout = hole.fill (.node left position node.key node.payload right) ∧
      node.left = left.root? ∧ node.right = right.root? := by
  obtain ⟨hposition, -⟩ := Array.getElem?_eq_some_iff.mp hnode
  have hmem := h.positions.mem_iff.mpr (List.mem_range.mpr hposition)
  obtain ⟨hole, left, key, payload, right, hfill⟩ := Hole.exists_fill_eq .top hmem
  rw [Hole.fill] at hfill
  subst hfill
  obtain rfl := Option.some.inj (hnode.symm.trans h.stored.node)
  exact ⟨hole, left, right, rfl, rfl, rfl⟩

end Laid

variable [Ord κ]

/-! ## The way to a key -/

/-- The layout is nothing, or has the key at its root. -/
def Layout.Meets (key : κ) : Layout κ ν → Prop
  | leaf => True
  | node _ _ own _ _ => compare key own = .eq

/-- All nodes above the place send the key to it. -/
def Hole.OnWay (key : κ) : Hole κ ν → Prop
  | top => True
  | onLeft above _ own _ _ => compare key own = .lt ∧ above.OnWay key
  | onRight above _ _ own _ => compare key own = .gt ∧ above.OnWay key

/-- A change of search trees is made at the side to which a node sends the key. -/
structure GoesTo (key : κ) (change : SearchTree κ ν → SearchTree κ ν) : Prop where
  lt : ∀ left own payload right, compare key own = .lt →
    change (.node left own payload right) = .node (change left) own payload right
  gt : ∀ left own payload right, compare key own = .gt →
    change (.node left own payload right) = .node left own payload (change right)

theorem goesTo_insert (key : κ) (payload : ν) : GoesTo key fun shape : SearchTree κ ν => shape.insert key payload := by
  constructor <;> (intro left own value right hcompare; simp only [SearchTree.insert, hcompare])

theorem goesTo_modify (key : κ) (change : ν → ν) : GoesTo key fun shape : SearchTree κ ν => shape.modify key change := by
  constructor <;> (intro left own value right hcompare; simp only [SearchTree.modify, hcompare])

theorem goesTo_erase (key : κ) : GoesTo key fun shape : SearchTree κ ν => shape.erase key := by
  constructor <;> (intro left own value right hcompare; simp only [SearchTree.erase, hcompare])

/-- A change that is made where a key lies is made at the place that the key is sent to. -/
theorem Hole.OnWay.shape_fill {key : κ} {hole : Hole κ ν} (h : hole.OnWay key) {change : SearchTree κ ν → SearchTree κ ν}
    (hchange : GoesTo key change) {before after : Layout κ ν} (hplace : change before.shape = after.shape) :
    change (hole.fill before).shape = (hole.fill after).shape := by
  induction hole generalizing before after with
  | top => exact hplace
  | onLeft above position own payload right ih =>
    refine ih h.2 ?_
    rw [Layout.shape, hchange.lt _ _ _ _ h.1, hplace, Layout.shape]
  | onRight above left position own payload ih =>
    refine ih h.2 ?_
    rw [Layout.shape, hchange.gt _ _ _ _ h.1, hplace, Layout.shape]

/-- A key is found where it is sent to. -/
theorem Hole.OnWay.find?_fill {key : κ} {hole : Hole κ ν} (h : hole.OnWay key) (layout : Layout κ ν) :
    (hole.fill layout).shape.find? key = layout.shape.find? key := by
  induction hole generalizing layout with
  | top => rfl
  | onLeft above position own payload right ih =>
    rw [fill, ih h.2, Layout.shape, SearchTree.find?, h.1]
  | onRight above left position own payload ih =>
    rw [fill, ih h.2, Layout.shape, SearchTree.find?, h.1]

/-- Every key has a place that it is sent to, with nothing there or the key at its root. -/
theorem exists_place (key : κ) : ∀ (hole : Hole κ ν) (layout : Layout κ ν), hole.OnWay key →
    ∃ (found : Hole κ ν) (place : Layout κ ν), hole.fill layout = found.fill place ∧ found.OnWay key ∧ place.Meets key
  | hole, .leaf, hway => ⟨hole, .leaf, rfl, hway, trivial⟩
  | hole, .node left position own payload right, hway => by
    cases hcompare : compare key own with
    | lt => exact exists_place key (.onLeft hole position own payload right) left ⟨hcompare, hway⟩
    | eq => exact ⟨hole, .node left position own payload right, rfl, hway, hcompare⟩
    | gt => exact exists_place key (.onRight hole left position own payload) right ⟨hcompare, hway⟩

/-- In a layout in order every place is in order, and all keys at the place are sent to it. -/
theorem Hole.ordered_place [Std.TransOrd κ] {hole : Hole κ ν} {place : Layout κ ν} (h : (hole.fill place).shape.Ordered) :
    place.shape.Ordered ∧ ∀ binding ∈ place.shape.toList, hole.OnWay binding.1 := by
  induction hole generalizing place with
  | top => exact ⟨h, fun _ _ => trivial⟩
  | onLeft above position own payload right ih =>
    obtain ⟨hnode, hway⟩ := ih h
    obtain ⟨hplace, _, hbelow, _⟩ := SearchTree.ordered_node_iff.mp hnode
    exact ⟨hplace, fun binding hmem => ⟨hbelow binding hmem, hway binding (List.mem_append_left _ hmem)⟩⟩
  | onRight above left position own payload ih =>
    obtain ⟨hnode, hway⟩ := ih h
    obtain ⟨_, hplace, _, habove⟩ := SearchTree.ordered_node_iff.mp hnode
    refine ⟨hplace, fun binding hmem => ⟨Std.OrientedCmp.gt_of_lt (habove binding hmem), hway binding ?_⟩⟩
    exact List.mem_append_right _ (List.mem_cons_of_mem _ hmem)

/-- In a layout in order all nodes above a place send its root there. -/
theorem Hole.onWay_root [Std.TransOrd κ] {hole : Hole κ ν} {left right : Layout κ ν} {position : Nat} {key : κ} {payload : ν}
    (hordered : (hole.fill (.node left position key payload right)).shape.Ordered) : hole.OnWay key :=
  (ordered_place hordered).2 (key, payload) List.mem_append_cons_self

/-- A descent comes to the place that the key is sent to, with fuel enough for what lies there. -/
theorem Hole.OnWay.descend_fill {tree : BinaryTree κ ν} {key : κ} {hole : Hole κ ν} (h : hole.OnWay key)
    {place : Layout κ ν} (hstored : Stores tree.nodes (hole.fill place).records) {fuel : Nat}
    (hfuel : (hole.fill place).shape.size ≤ fuel) : ∃ rest, place.shape.size ≤ rest ∧
      tree.descend key fuel none (hole.fill place).root? = tree.descend key rest hole.link place.root? := by
  -- By induction on the hole, from the place up: the node above it takes the last step of the descent.
  induction hole generalizing place with
  | top => exact ⟨fuel, hfuel, rfl⟩
  | onLeft above position own payload right ih =>
    rw [fill] at hstored hfuel ⊢
    obtain ⟨rest, hrest, hdescend⟩ := ih h.2 hstored hfuel
    rw [Layout.shape, SearchTree.size] at hrest
    obtain ⟨rest, rfl⟩ : ∃ less, rest = less + 1 := ⟨rest - 1, by omega⟩
    refine ⟨rest, by omega, hdescend.trans ?_⟩
    simp only [Layout.root?_node, descend, hstored.node, h.1, link]
  | onRight above left position own payload ih =>
    rw [fill] at hstored hfuel ⊢
    obtain ⟨rest, hrest, hdescend⟩ := ih h.2 hstored hfuel
    rw [Layout.shape, SearchTree.size] at hrest
    obtain ⟨rest, rfl⟩ : ∃ less, rest = less + 1 := ⟨rest - 1, by omega⟩
    refine ⟨rest, by omega, hdescend.trans ?_⟩
    simp only [Layout.root?_node, descend, hstored.node, h.1, link]

namespace Laid

variable {tree : BinaryTree κ ν} {layout : Layout κ ν}

/-- A search ends at the place that the key is sent to. -/
theorem search_fill {hole : Hole κ ν} {place : Layout κ ν} (h : tree.Laid (hole.fill place)) {key : κ} (hway : hole.OnWay key)
    (hmeets : place.Meets key) : tree.search key = (hole.link, place.root?) := by
  obtain ⟨rest, hrest, hdescend⟩ := hway.descend_fill h.stored (Nat.le_of_eq h.size_eq.symm)
  rw [search, h.root, hdescend]
  cases place with
  | leaf => cases rest <;> rfl
  | node left position own payload right =>
    have hcompare : compare key own = .eq := hmeets
    rw [Layout.shape, SearchTree.size] at hrest
    obtain ⟨rest, rfl⟩ : ∃ less, rest = less + 1 := ⟨rest - 1, by omega⟩
    simp only [Layout.root?_node, descend, h.stored.node, hcompare]

/-- Every search ends at a place that the key is sent to, with nothing there or the key at its root. -/
theorem search_eq (h : tree.Laid layout) (key : κ) : ∃ (hole : Hole κ ν) (place : Layout κ ν),
    layout = hole.fill place ∧ hole.OnWay key ∧ place.Meets key ∧ tree.search key = (hole.link, place.root?) := by
  obtain ⟨hole, place, rfl, hway, hmeets⟩ := exists_place key .top layout trivial
  exact ⟨hole, place, rfl, hway, hmeets, h.search_fill hway hmeets⟩

/-- A key is found with the payload that the search tree has for it. -/
theorem find?_eq (h : tree.Laid layout) (key : κ) : tree.find? key = layout.shape.find? key := by
  obtain ⟨hole, place, rfl, hway, hmeets, hsearch⟩ := h.search_eq key
  rw [hway.find?_fill, find?, node?, position?, hsearch]
  cases place with
  | leaf => rfl
  | node left position own payload right =>
    have hcompare : compare key own = .eq := hmeets
    simp only [Layout.root?_node, Option.bind_some, h.stored.node, Option.map_some, Layout.shape, SearchTree.find?, hcompare]

/-- In a tree in order the position that is found for a key is the one of the node with the key. -/
theorem position?_eq_some_iff [Std.TransOrd κ] [Std.LawfulEqOrd κ] (h : tree.Laid layout) (hordered : layout.shape.Ordered)
    {key : κ} {position : Nat} : tree.position? key = some position ↔ (tree.nodes[position]?).map Node.key = some key := by
  constructor
  · intro hfound
    obtain ⟨hole, place, rfl, _, hmeets, hsearch⟩ := h.search_eq key
    rw [position?, hsearch] at hfound
    obtain ⟨left, own, payload, right, rfl⟩ := Layout.exists_node_eq hfound
    obtain rfl := Std.LawfulEqOrd.eq_of_compare hmeets
    rw [h.stored.node, Option.map_some]
  · intro hkey
    obtain ⟨node, hnode, rfl⟩ := Option.map_eq_some_iff.mp hkey
    obtain ⟨hole, left, right, rfl, -, -⟩ := h.exists_fill_eq hnode
    rw [position?, h.search_fill (Hole.onWay_root hordered) Std.ReflOrd.compare_self]
    rfl

end Laid

end BinaryTree

end SqlEngine
