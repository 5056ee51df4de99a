import SqlEngine.Proofs.BinaryTree.Search

/-!
# Walking through an array

The loop of a walk takes the position in front of what is pending and puts the two sides of the node there in its place (`Walks`).
From a node that is laid out as a layout it ends after the positions of the layout, in its order (`walks_positions`, `walk_eq`), and
the loop that looks for the height ends with that of the search tree (`Laid.measures`). So the walk from the root comes to every node
once (`Laid.walk_root_perm`), the walks from the sides of a node to smaller and to greater keys (`Laid.compare_of_mem_walk`), and the
payloads that are collected are those of the search tree (`mem_payloadsUnder_iff`), also where they are those of a range of keys
(`mem_payloadsBelowFrom_iff`, `mem_payloadsAboveFrom_iff`).
-/

namespace SqlEngine

namespace BinaryTree

variable {κ ν : Type} {tree : BinaryTree κ ν}

/-! ## Positions -/

/-- A walk goes from what is pending through the visited positions to its end, where nothing is pending. Each time it comes to the
position in front, and the two sides of the node there go in front of what is pending. -/
inductive Walks (tree : BinaryTree κ ν) : (pending visited : List Nat) → Prop where
  | done : Walks tree [] []
  | next {position : Nat} {node : Node κ ν} {pending visited : List Nat} (hnode : tree.nodes[position]? = some node)
      (h : Walks tree (node.left.toList ++ node.right.toList ++ pending) visited) :
      Walks tree (position :: pending) (position :: visited)

/-- One unit of fuel for each visited position is enough to go through a walk. -/
theorem Walks.visit_eq {pending visited : List Nat} (h : tree.Walks pending visited) :
    ∀ {fuel : Nat}, visited.length ≤ fuel → tree.visit fuel pending = visited := by
  induction h with
  | done =>
    intro fuel _
    cases fuel <;> rfl
  | next hnode _ ih =>
    intro fuel hfuel
    rw [List.length_cons] at hfuel
    obtain ⟨fuel, rfl⟩ : ∃ less, fuel = less + 1 := ⟨fuel - 1, by omega⟩
    simp only [visit, hnode, ih (show _ ≤ fuel by omega)]

/-- What is pending settles what a walk visits. -/
theorem Walks.unique {pending visited others : List Nat} (h : tree.Walks pending visited) (hothers : tree.Walks pending others) :
    visited = others := by
  rw [← h.visit_eq (Nat.le_max_left visited.length others.length), hothers.visit_eq (Nat.le_max_right _ _)]

/-- A walk that comes to a layout goes through its positions, and then on through what is pending. -/
theorem walks_append {layout : Layout κ ν} (h : Stores tree.nodes layout.records) {pending visited : List Nat}
    (hrest : tree.Walks pending visited) : tree.Walks (layout.root?.toList ++ pending) (layout.positions ++ visited) := by
  induction layout generalizing pending visited with
  | leaf => exact hrest
  | node left position key payload right ihLeft ihRight =>
    obtain ⟨hown, hsides⟩ := stores_cons.mp h
    obtain ⟨hleft, hright⟩ := stores_append.mp hsides
    have hbelow := ihLeft hleft (ihRight hright hrest)
    rw [← List.append_assoc, ← List.append_assoc] at hbelow
    exact .next hown hbelow

/-- From a layout a walk goes through its positions, and ends there. -/
theorem walks_positions {layout : Layout κ ν} (h : Stores tree.nodes layout.records) :
    tree.Walks layout.root?.toList layout.positions := by
  have hwalks := walks_append h .done
  rwa [List.append_nil, List.append_nil] at hwalks

/-- The walk from a layout comes to its positions. -/
theorem walk_eq {layout : Layout κ ν} (h : Stores tree.nodes layout.records) (hsize : layout.shape.size ≤ tree.size) :
    tree.walk layout.root? = layout.positions :=
  (walks_positions h).visit_eq (layout.length_positions ▸ hsize)

theorem walk_none (tree : BinaryTree κ ν) : tree.walk none = [] := by
  rw [walk]
  cases tree.size <;> rfl

/-- The records of a layout hold the bindings of its search tree. -/
theorem Layout.bindings_perm (layout : Layout κ ν) :
    (layout.records.map fun record => (record.2.key, record.2.payload)).Perm layout.shape.toList := by
  induction layout with
  | leaf => exact .nil
  | node left position key payload right ihLeft ihRight =>
    rw [records, List.map_cons, List.map_append, shape, SearchTree.toList_node]
    exact ((ihLeft.append ihRight).cons (key, payload)).trans List.perm_middle.symm

/-- A node at a position of a layout that is stored holds a binding of its search tree. -/
theorem Stores.exists_binding {nodes : Array (Node κ ν)} {layout : Layout κ ν} (h : Stores nodes layout.records) {position : Nat}
    (hmem : position ∈ layout.positions) :
    ∃ node, nodes[position]? = some node ∧ (node.key, node.payload) ∈ layout.shape.toList := by
  rw [← layout.map_fst_records, List.mem_map] at hmem
  obtain ⟨record, hrecord, rfl⟩ := hmem
  exact ⟨record.2, h record hrecord, layout.bindings_perm.subset (List.mem_map_of_mem hrecord)⟩

namespace Laid

variable {layout : Layout κ ν} (h : tree.Laid layout)

include h

/-- A walk from the root comes to every position once. -/
theorem walk_root_perm : (tree.walk tree.root).Perm (List.range tree.size) := by
  rw [h.root, walk_eq h.stored (Nat.le_of_eq h.size_eq.symm)]
  exact h.positions

/-- A walk from the root comes to every binding once. -/
theorem bindings_walk : ((tree.walk tree.root).map fun position =>
    (tree.nodes[position]?).map fun node => (node.key, node.payload)).Perm (layout.shape.toList.map some) := by
  have hrecords : (layout.records.map Prod.fst).map (fun position =>
      (tree.nodes[position]?).map fun node => (node.key, node.payload)) =
        (layout.records.map fun record => (record.2.key, record.2.payload)).map some := by
    rw [List.map_map, List.map_map]
    refine List.map_congr_left fun record hrecord => ?_
    rw [Function.comp_apply, h.stored record hrecord, Option.map_some, Function.comp_apply]
  rw [h.root, walk_eq h.stored (Nat.le_of_eq h.size_eq.symm), ← layout.map_fst_records, hrecords]
  exact layout.bindings_perm.map some

/-- The walks from the sides of a node come to the positions of the sides of a place. -/
theorem exists_sides {position : Nat} {node : Node κ ν} (hnode : tree.nodes[position]? = some node) :
    ∃ (hole : Hole κ ν) (left right : Layout κ ν), layout = hole.fill (.node left position node.key node.payload right) ∧
      Stores tree.nodes left.records ∧ Stores tree.nodes right.records ∧
      tree.walk node.left = left.positions ∧ tree.walk node.right = right.positions := by
  obtain ⟨hole, left, right, rfl, hleft, hright⟩ := h.exists_fill_eq hnode
  obtain ⟨hstoredLeft, hstoredRight⟩ := stores_append.mp (stores_cons.mp (stores_fill.mp h.stored).1).2
  have hsize := h.size_le
  rw [Layout.shape, SearchTree.size] at hsize
  rw [hleft, hright]
  exact ⟨hole, left, right, rfl, hstoredLeft, hstoredRight, walk_eq hstoredLeft (by omega), walk_eq hstoredRight (by omega)⟩

/-- A walk from a node comes to the node, then to what is under its left side, then to what is under its right side. -/
theorem walk_node {position : Nat} {node : Node κ ν} (hnode : tree.nodes[position]? = some node) :
    tree.walk (some position) = position :: (tree.walk node.left ++ tree.walk node.right) := by
  obtain ⟨hole, left, right, rfl, _, _, hleft, hright⟩ := h.exists_sides hnode
  rw [hleft, hright]
  exact walk_eq (stores_fill.mp h.stored).1 h.size_le

/-- In a tree in order the walks from the sides of a node come to smaller and to greater keys. -/
theorem compare_of_mem_walk [Ord κ] [Std.TransOrd κ] (hordered : layout.shape.Ordered) {position : Nat} {node : Node κ ν}
    (hnode : tree.nodes[position]? = some node) :
    (∀ below ∈ tree.walk node.left, ∃ other, tree.nodes[below]? = some other ∧ compare other.key node.key = .lt) ∧
      ∀ above ∈ tree.walk node.right, ∃ other, tree.nodes[above]? = some other ∧ compare node.key other.key = .lt := by
  obtain ⟨hole, left, right, rfl, hstoredLeft, hstoredRight, hleft, hright⟩ := h.exists_sides hnode
  obtain ⟨_, _, hbelow, habove⟩ := SearchTree.ordered_node_iff.mp (Hole.ordered_place hordered).1
  rw [hleft, hright]
  constructor
  · intro below hmem
    obtain ⟨other, hother, hbinding⟩ := hstoredLeft.exists_binding hmem
    exact ⟨other, hother, hbelow _ hbinding⟩
  · intro above hmem
    obtain ⟨other, hother, hbinding⟩ := hstoredRight.exists_binding hmem
    exact ⟨other, hother, habove _ hbinding⟩

end Laid

/-! ## Height -/

/-- The search for the greatest depth goes in so many steps from what is pending, with the depth that is reached, to its end, where
nothing is pending, with a height. Each step comes to the position in front, at its depth, and the two sides of the node there go in
front of what is pending, one deeper. -/
inductive Measures (tree : BinaryTree κ ν) : (steps : Nat) → (pending : List (Nat × Nat)) → (depth height : Nat) → Prop where
  | done {depth : Nat} : Measures tree 0 [] depth depth
  | next {position own steps depth height : Nat} {node : Node κ ν} {pending : List (Nat × Nat)}
      (hnode : tree.nodes[position]? = some node)
      (h : Measures tree steps (node.right.toList.map (·, own + 1) ++ node.left.toList.map (·, own + 1) ++ pending)
        (max depth own) height) :
      Measures tree (steps + 1) ((position, own) :: pending) depth height

/-- One unit of fuel for each step is enough to find the greatest depth. -/
theorem Measures.deepest_eq {steps depth height : Nat} {pending : List (Nat × Nat)}
    (h : tree.Measures steps pending depth height) :
    ∀ {fuel : Nat}, steps ≤ fuel → tree.deepest fuel pending depth = height := by
  induction h with
  | done =>
    intro fuel _
    cases fuel <;> rfl
  | next hnode _ ih =>
    intro fuel hfuel
    obtain ⟨fuel, rfl⟩ : ∃ less, fuel = less + 1 := ⟨fuel - 1, by omega⟩
    simp only [deepest, hnode, ih (show _ ≤ fuel by omega)]

/-- What is pending and the depth that is reached settle how many steps there are and which height is found. -/
theorem Measures.unique {steps others depth height : Nat} {pending : List (Nat × Nat)}
    (h : tree.Measures steps pending depth height) :
    ∀ {other : Nat}, tree.Measures others pending depth other → steps = others ∧ height = other := by
  induction h generalizing others with
  | done =>
    rintro other ⟨⟩
    exact ⟨rfl, rfl⟩
  | next hnode _ ih =>
    rintro other (_ | ⟨hnode', hother⟩)
    obtain rfl := Option.some.inj (hnode.symm.trans hnode')
    obtain ⟨rfl, rfl⟩ := ih hother
    exact ⟨rfl, rfl⟩

/-- The search for the greatest depth goes through a layout, whose nodes lie below a depth that is reached already, and then on
through what is pending. -/
theorem measures_append {layout : Layout κ ν} (h : Stores tree.nodes layout.records) {steps height : Nat}
    {pending : List (Nat × Nat)} : ∀ {above depth : Nat}, above ≤ depth →
      tree.Measures steps pending (max depth (above + layout.shape.height)) height →
        tree.Measures (layout.shape.size + steps) (layout.root?.toList.map (·, above + 1) ++ pending) depth height := by
  induction layout generalizing steps pending with
  | leaf =>
    intro above depth hdepth hrest
    rw [Layout.shape, SearchTree.height, Nat.max_eq_left (show above + 0 ≤ depth from hdepth)] at hrest
    rw [Layout.shape, SearchTree.size, Nat.zero_add]
    exact hrest
  | node left position key payload right ihLeft ihRight =>
    intro above depth hdepth hrest
    obtain ⟨hown, hsides⟩ := stores_cons.mp h
    obtain ⟨hleft, hright⟩ := stores_append.mp hsides
    have hreached : max depth (above + (max left.shape.height right.shape.height + 1)) =
        max (max (max depth (above + 1)) (above + 1 + right.shape.height)) (above + 1 + left.shape.height) := by
      omega
    have hsteps : left.shape.size + 1 + right.shape.size + steps = right.shape.size + (left.shape.size + steps) + 1 := by
      omega
    rw [Layout.shape, SearchTree.height, hreached] at hrest
    -- Other than in a walk the right side comes first, so the left one starts from the depth that is reached there.
    have hbelow := ihRight hright (Nat.le_max_right depth (above + 1))
      (ihLeft hleft (Nat.le_trans (Nat.le_max_right _ _) (Nat.le_max_left _ _)) hrest)
    rw [← List.append_assoc] at hbelow
    rw [Layout.shape, SearchTree.size, hsteps]
    exact .next hown hbelow

/-- From the root the search for the greatest depth takes as many steps as there are nodes, and finds the height of the search
tree. -/
theorem Laid.measures {layout : Layout κ ν} (h : tree.Laid layout) :
    tree.Measures tree.size (tree.root.toList.map (·, 1)) 0 layout.shape.height := by
  have hdone : tree.Measures 0 [] (max 0 (0 + layout.shape.height)) layout.shape.height := by
    rw [Nat.zero_add, Nat.max_eq_right (Nat.zero_le _)]
    exact .done
  have hmeasures := measures_append h.stored (Nat.le_refl 0) hdone
  rw [List.append_nil, Nat.add_zero, Nat.zero_add] at hmeasures
  rwa [h.size_eq, h.root]

/-- The height is that of the search tree. -/
theorem Laid.height_eq {layout : Layout κ ν} (h : tree.Laid layout) : tree.height = layout.shape.height :=
  h.measures.deepest_eq (Nat.le_refl _)

/-! ## Payloads -/

/-- At the positions of records the array has their nodes. -/
theorem Stores.filterMap_getElem? {records : List (Nat × Node κ ν)} {nodes : Array (Node κ ν)} (h : Stores nodes records) :
    (records.map Prod.fst).filterMap (nodes[·]?) = records.map Prod.snd := by
  induction records with
  | nil => rfl
  | cons record rest ih =>
    obtain ⟨hrecord, hrest⟩ := stores_cons.mp h
    rw [List.map_cons, List.filterMap_cons, hrecord, ih hrest, List.map_cons]

/-- What is read off the nodes that a walk from a layout comes to is what is read off the bindings of its search tree. -/
theorem mem_read_walk_iff {layout : Layout κ ν} (h : Stores tree.nodes layout.records) (hsize : layout.shape.size ≤ tree.size)
    {α : Type} (read : κ × ν → α) {value : α} :
    value ∈ ((tree.walk layout.root?).filterMap fun position =>
      (tree.nodes[position]?).map fun node => read (node.key, node.payload)) ↔ value ∈ layout.shape.toList.map read := by
  rw [walk_eq h hsize, ← layout.map_fst_records, ← List.map_filterMap, h.filterMap_getElem?, List.map_map]
  have hread := (layout.bindings_perm.map read).mem_iff (a := value)
  rwa [List.map_map] at hread

/-- The payloads under a layout are those of its search tree. -/
theorem mem_payloadsUnder_iff {layout : Layout κ ν} (h : Stores tree.nodes layout.records)
    (hsize : layout.shape.size ≤ tree.size) {value : ν} :
    value ∈ tree.payloadsUnder layout.root? ↔ value ∈ layout.shape.payloads := by
  rw [SearchTree.payloads_eq_map]
  exact mem_read_walk_iff h hsize Prod.snd

section Ranges

variable [Ord κ] {bound : κ} {included : Bool} {value : ν}

/-- The payloads below a bound from a layout down are those of its search tree. -/
theorem mem_payloadsBelowFrom_iff {layout : Layout κ ν} (h : Stores tree.nodes layout.records)
    (hsize : layout.shape.size ≤ tree.size) : ∀ {fuel : Nat}, layout.shape.size ≤ fuel →
    (value ∈ tree.payloadsBelowFrom bound included fuel layout.root? ↔ value ∈ layout.shape.payloadsBelow bound included) := by
  induction layout with
  | leaf =>
    intro fuel _
    cases fuel <;> rfl
  | node left position key payload right ihLeft ihRight =>
    intro fuel hfuel
    obtain ⟨hown, hsides⟩ := stores_cons.mp h
    obtain ⟨hleft, hright⟩ := stores_append.mp hsides
    rw [Layout.shape, SearchTree.size] at hsize hfuel
    obtain ⟨fuel, rfl⟩ : ∃ less, fuel = less + 1 := ⟨fuel - 1, by omega⟩
    have hunder : value ∈ tree.payloadsUnder left.root? ↔ _ := mem_payloadsUnder_iff hleft (by omega)
    simp only [payloadsBelowFrom, Layout.root?_node, hown, Layout.shape, SearchTree.payloadsBelow]
    cases compare bound key with
    | lt => exact ihLeft hleft (by omega) (by omega)
    | eq => simp only [List.mem_append, hunder]
    | gt => simp only [List.mem_append, List.mem_cons, hunder, ihRight hright (by omega) (show _ ≤ fuel by omega)]

/-- The payloads above a bound from a layout down are those of its search tree. -/
theorem mem_payloadsAboveFrom_iff {layout : Layout κ ν} (h : Stores tree.nodes layout.records)
    (hsize : layout.shape.size ≤ tree.size) : ∀ {fuel : Nat}, layout.shape.size ≤ fuel →
    (value ∈ tree.payloadsAboveFrom bound included fuel layout.root? ↔ value ∈ layout.shape.payloadsAbove bound included) := by
  induction layout with
  | leaf =>
    intro fuel _
    cases fuel <;> rfl
  | node left position key payload right ihLeft ihRight =>
    intro fuel hfuel
    obtain ⟨hown, hsides⟩ := stores_cons.mp h
    obtain ⟨hleft, hright⟩ := stores_append.mp hsides
    rw [Layout.shape, SearchTree.size] at hsize hfuel
    obtain ⟨fuel, rfl⟩ : ∃ less, fuel = less + 1 := ⟨fuel - 1, by omega⟩
    have hunder : value ∈ tree.payloadsUnder right.root? ↔ _ := mem_payloadsUnder_iff hright (by omega)
    simp only [payloadsAboveFrom, Layout.root?_node, hown, Layout.shape, SearchTree.payloadsAbove]
    cases compare bound key with
    | lt => simp only [List.mem_append, List.mem_cons, hunder, ihLeft hleft (by omega) (show _ ≤ fuel by omega)]
    | eq => simp only [List.mem_append, hunder]
    | gt => exact ihRight hright (by omega) (by omega)

end Ranges

end BinaryTree

end SqlEngine
