import SqlEngine.Proofs.BinaryTree.Places

/-!
# Walks as recursion

A walk and the search for the greatest depth are loops over what is pending. On every tree that updates lead to they end, and come to
what recursion over the nodes comes to (`walks_as_recursion`): a walk to a node and then to all that its two sides hold, the search
for the greatest depth to the height.

A way down from the root to a node leaves the nodes above it to the left or to the right. The last one that it leaves to the right
and the last one that it leaves to the left bound the keys that lie under the node, and no key between them lies elsewhere
(`Laid.mem_keysUnder_iff`).
-/

namespace SqlEngine

/-- The key lies strictly between the bounds; a bound that is missing excludes nothing. -/
def SearchTree.IsBetween {κ : Type} [Ord κ] (lower upper : Option κ) (key : κ) : Prop :=
  (∀ below ∈ lower, compare below key = .lt) ∧ ∀ above ∈ upper, compare key above = .lt

namespace BinaryTree

variable {κ ν : Type} {tree : BinaryTree κ ν}

/-! ## Ways -/

/-- A way leads from a start down to a target, from node to side. Its lower bound is the key of the last node that it leaves to the
right, and its upper bound the key of the last node that it leaves to the left. -/
inductive Way (tree : BinaryTree κ ν) (start : Option Nat) : (lower upper : Option κ) → (target : Option Nat) → Prop where
  | here : Way tree start none none start
  | left {lower upper : Option κ} {position : Nat} {node : Node κ ν} (h : Way tree start lower upper (some position))
      (hnode : tree.nodes[position]? = some node) : Way tree start lower (some node.key) node.left
  | right {lower upper : Option κ} {position : Nat} {node : Node κ ν} (h : Way tree start lower upper (some position))
      (hnode : tree.nodes[position]? = some node) : Way tree start (some node.key) upper node.right

/-- The key of the nearest node above the place on whose right side it lies. -/
def Hole.lower : Hole κ ν → Option κ
  | top => none
  | onLeft above _ _ _ _ => above.lower
  | onRight _ _ _ key _ => some key

/-- The key of the nearest node above the place on whose left side it lies. -/
def Hole.upper : Hole κ ν → Option κ
  | top => none
  | onLeft _ _ key _ _ => some key
  | onRight above _ _ _ _ => above.upper

/-- A way leads from a layout to each of its places. -/
theorem way_fill {hole : Hole κ ν} {place : Layout κ ν} (h : Stores tree.nodes (hole.fill place).records) :
    tree.Way (hole.fill place).root? hole.lower hole.upper place.root? := by
  induction hole generalizing place with
  | top => exact .here
  | onLeft above position key payload right ih => exact (ih h).left h.node
  | onRight above left position key payload ih => exact (ih h).right h.node

/-- Every way from a layout leads to one of its places. -/
theorem Way.exists_fill {layout : Layout κ ν} (h : Stores tree.nodes layout.records) {lower upper : Option κ}
    {target : Option Nat} (hway : tree.Way layout.root? lower upper target) :
    ∃ (hole : Hole κ ν) (place : Layout κ ν),
      layout = hole.fill place ∧ place.root? = target ∧ hole.lower = lower ∧ hole.upper = upper := by
  induction hway with
  | here => exact ⟨.top, layout, rfl, rfl, rfl, rfl⟩
  | left _ hnode ih =>
    obtain ⟨hole, place, rfl, hroot, rfl, rfl⟩ := ih
    obtain ⟨left, key, payload, right, rfl⟩ := Layout.exists_node_eq hroot
    obtain rfl := Option.some.inj (h.node.symm.trans hnode)
    exact ⟨.onLeft hole _ key payload right, left, rfl, rfl, rfl, rfl⟩
  | right _ hnode ih =>
    obtain ⟨hole, place, rfl, hroot, rfl, rfl⟩ := ih
    obtain ⟨left, key, payload, right, rfl⟩ := Layout.exists_node_eq hroot
    obtain rfl := Option.some.inj (h.node.symm.trans hnode)
    exact ⟨.onRight hole left _ key payload, right, rfl, rfl, rfl, rfl⟩

/-- The positions of a layout are those to which a way leads from it. -/
theorem mem_positions_iff {layout : Layout κ ν} (h : Stores tree.nodes layout.records) {position : Nat} :
    position ∈ layout.positions ↔ ∃ lower upper, tree.Way layout.root? lower upper (some position) := by
  constructor
  · intro hmem
    obtain ⟨hole, left, key, payload, right, hfill⟩ := Hole.exists_fill_eq .top hmem
    rw [Hole.fill] at hfill
    subst hfill
    exact ⟨hole.lower, hole.upper, way_fill h⟩
  · rintro ⟨lower, upper, hway⟩
    obtain ⟨hole, place, rfl, hroot, -, -⟩ := hway.exists_fill h
    obtain ⟨left, key, payload, right, rfl⟩ := Layout.exists_node_eq hroot
    exact (hole.positions_fill _).symm.subset (List.mem_append_left _ List.mem_cons_self)

/-! ## Keys between bounds -/

/-- The keys under a position. -/
def keysUnder (tree : BinaryTree κ ν) (position : Option Nat) : List κ :=
  (tree.walk position).filterMap fun position => (tree.nodes[position]?).map Node.key

section

variable [Ord κ] [Std.TransOrd κ] {hole : Hole κ ν} {place : Layout κ ν}

/-- In a layout in order the nodes above a place send to it the keys between the two nearest of them. -/
theorem Hole.onWay_iff_isBetween (hordered : (hole.fill place).shape.Ordered) {key : κ} :
    hole.OnWay key ↔ SearchTree.IsBetween hole.lower hole.upper key := by
  induction hole generalizing place key with
  | top => exact iff_of_true trivial ⟨nofun, nofun⟩
  | onLeft above position own payload right ih =>
    -- The node above lies between the bounds of its own place, so a key on its left keeps the upper one.
    have hbounds := (ih hordered).mp (onWay_root hordered)
    constructor
    · rintro ⟨hlt, habove⟩
      refine ⟨((ih hordered).mp habove).1, ?_⟩
      rintro _ ⟨⟩
      exact hlt
    · rintro ⟨hlower, hupper⟩
      have hlt : compare key own = .lt := hupper own rfl
      exact ⟨hlt, (ih hordered).mpr ⟨hlower, fun bound hbound => Std.TransCmp.lt_trans hlt (hbounds.2 bound hbound)⟩⟩
  | onRight above left position own payload ih =>
    have hbounds := (ih hordered).mp (onWay_root hordered)
    constructor
    · rintro ⟨hgt, habove⟩
      refine ⟨?_, ((ih hordered).mp habove).2⟩
      rintro _ ⟨⟩
      exact Std.OrientedCmp.lt_of_gt hgt
    · rintro ⟨hlower, hupper⟩
      have hlt : compare own key = .lt := hlower own rfl
      refine ⟨Std.OrientedCmp.gt_of_lt hlt, (ih hordered).mpr ⟨fun bound hbound => ?_, hupper⟩⟩
      exact Std.TransCmp.lt_trans (hbounds.1 bound hbound) hlt

/-- In a layout in order the keys at a place are the keys between the two nearest nodes above it. -/
theorem Hole.mem_keys_iff [Std.LawfulEqOrd κ] (hordered : (hole.fill place).shape.Ordered) {key : κ} :
    key ∈ place.shape.toList.map Prod.fst ↔
      key ∈ (hole.fill place).shape.toList.map Prod.fst ∧ SearchTree.IsBetween hole.lower hole.upper key := by
  obtain ⟨hplace, hway⟩ := ordered_place hordered
  rw [← onWay_iff_isBetween hordered]
  constructor
  · intro hmem
    obtain ⟨⟨own, payload⟩, hbinding, rfl⟩ := List.mem_map.mp hmem
    have hfound := (SearchTree.find?_eq_some_iff hplace).mpr hbinding
    rw [← (hway _ hbinding).find?_fill place] at hfound
    exact ⟨List.mem_map_of_mem ((SearchTree.find?_eq_some_iff hordered).mp hfound), hway _ hbinding⟩
  · rintro ⟨hmem, honway⟩
    obtain ⟨⟨own, payload⟩, hbinding, rfl⟩ := List.mem_map.mp hmem
    have hfound := (SearchTree.find?_eq_some_iff hordered).mpr hbinding
    rw [honway.find?_fill place] at hfound
    exact List.mem_map_of_mem ((SearchTree.find?_eq_some_iff hplace).mp hfound)

/-- In a tree in order the keys under the target of a way from the root are the keys between the bounds of the way. -/
theorem Laid.mem_keysUnder_iff [Std.LawfulEqOrd κ] {layout : Layout κ ν} (h : tree.Laid layout) (hordered : layout.shape.Ordered)
    {lower upper : Option κ} {target : Option Nat} (hway : tree.Way tree.root lower upper target) {key : κ} :
    key ∈ tree.keysUnder target ↔ key ∈ layout.shape.toList.map Prod.fst ∧ SearchTree.IsBetween lower upper key := by
  rw [h.root] at hway
  obtain ⟨hole, place, rfl, rfl, rfl, rfl⟩ := hway.exists_fill h.stored
  rw [← Hole.mem_keys_iff hordered]
  exact mem_read_walk_iff (stores_fill.mp h.stored).1 h.size_le Prod.fst

end

/-! ## Height -/

/-- The height of what lies under a position, by recursion: nothing has height zero, and a node is one higher than the higher one of
its two sides. -/
inductive HasHeight (tree : BinaryTree κ ν) : (position : Option Nat) → (height : Nat) → Prop where
  | nothing : HasHeight tree none 0
  | node {position left right : Nat} {node : Node κ ν} (hnode : tree.nodes[position]? = some node)
      (hleft : HasHeight tree node.left left) (hright : HasHeight tree node.right right) :
      HasHeight tree (some position) (max left right + 1)

/-- What lies under a position has one height. -/
theorem HasHeight.unique {position : Option Nat} {height other : Nat} (h : tree.HasHeight position height)
    (hother : tree.HasHeight position other) : height = other := by
  induction h generalizing other with
  | nothing =>
    cases hother
    rfl
  | node hnode _ _ ihLeft ihRight =>
    cases hother with
    | node hnode' hleft hright =>
      obtain rfl := Option.some.inj (hnode.symm.trans hnode')
      rw [ihLeft hleft, ihRight hright]

/-- A layout that is stored has the height of its search tree. -/
theorem hasHeight_shape {layout : Layout κ ν} (h : Stores tree.nodes layout.records) :
    tree.HasHeight layout.root? layout.shape.height := by
  induction layout with
  | leaf => exact .nothing
  | node left position key payload right ihLeft ihRight =>
    obtain ⟨hown, hsides⟩ := stores_cons.mp h
    obtain ⟨hleft, hright⟩ := stores_append.mp hsides
    exact .node hown (ihLeft hleft) (ihRight hright)

/-! ## Loops and recursion -/

namespace Laid

variable {layout : Layout κ ν} (h : tree.Laid layout)

include h

/-- From every node down a layout is stored, and a walk comes to its positions. -/
theorem exists_layout {position : Nat} {node : Node κ ν} (hnode : tree.nodes[position]? = some node) :
    ∃ place : Layout κ ν, place.root? = some position ∧ Stores tree.nodes place.records ∧ place.positions.Nodup ∧
      tree.walk (some position) = place.positions := by
  obtain ⟨hole, left, right, rfl, -, -⟩ := h.exists_fill_eq hnode
  have hstored := (stores_fill.mp h.stored).1
  exact ⟨_, rfl, hstored, (Hole.nodup_fill h.nodup).1, walk_eq hstored h.size_le⟩

/-- From every node the loop of a walk ends, and has then visited what the walk comes to. -/
theorem walks_iff {position : Nat} {node : Node κ ν} (hnode : tree.nodes[position]? = some node) {visited : List Nat} :
    tree.Walks [position] visited ↔ visited = tree.walk (some position) := by
  obtain ⟨place, hroot, hstored, -, hwalk⟩ := h.exists_layout hnode
  have hwalks := walks_positions hstored
  rw [hroot, Option.toList_some, ← hwalk] at hwalks
  constructor
  · exact fun hvisited => hvisited.unique hwalks
  · rintro rfl
    exact hwalks

/-- A walk from a node comes to no position twice. -/
theorem nodup_walk {position : Nat} {node : Node κ ν} (hnode : tree.nodes[position]? = some node) :
    (tree.walk (some position)).Nodup := by
  obtain ⟨place, -, -, hnodup, hwalk⟩ := h.exists_layout hnode
  rwa [hwalk]

/-- A walk from a node comes to the positions to which a way leads from there. -/
theorem mem_walk_iff {position : Nat} {node : Node κ ν} (hnode : tree.nodes[position]? = some node) {other : Nat} :
    other ∈ tree.walk (some position) ↔ ∃ lower upper, tree.Way (some position) lower upper (some other) := by
  obtain ⟨place, hroot, hstored, -, hwalk⟩ := h.exists_layout hnode
  rw [hwalk, mem_positions_iff hstored, hroot]

/-- A way leads from the root to every node. -/
theorem exists_way {position : Nat} {node : Node κ ν} (hnode : tree.nodes[position]? = some node) :
    ∃ lower upper, tree.Way tree.root lower upper (some position) := by
  obtain ⟨hole, left, right, rfl, -, -⟩ := h.exists_fill_eq hnode
  rw [h.root]
  exact ⟨hole.lower, hole.upper, way_fill h.stored⟩

/-- The loop that looks for the greatest depth ends after as many steps as there are nodes, with the height of the tree. -/
theorem measures_iff {steps height : Nat} : tree.Measures steps (tree.root.toList.map (·, 1)) 0 height ↔
    steps = tree.size ∧ height = tree.height := by
  have hmeasures := h.measures
  rw [← h.height_eq] at hmeasures
  constructor
  · exact fun hother => hother.unique hmeasures
  · rintro ⟨rfl, rfl⟩
    exact hmeasures

/-- The height is the one by recursion. -/
theorem hasHeight_iff {height : Nat} : tree.HasHeight tree.root height ↔ height = tree.height := by
  have hheight := hasHeight_shape h.stored
  rw [← h.root, ← h.height_eq] at hheight
  constructor
  · exact fun hother => hother.unique hheight
  · rintro rfl
    exact hheight

end Laid

section

variable [Ord κ] [Std.TransOrd κ] [Std.LawfulEqOrd κ]

/-- Whatever updates led to a tree, the loop of a walk ends from every node. The walk comes to the node, then to what a walk from its
left side comes to, then to what one from its right side comes to, and so once to every node to which a way leads down from there.
The keys that it comes to are the keys of the tree strictly between those of the last nodes that the way from the root leaves to the
right and to the left. The loop that looks for the greatest depth ends with the height, which is the one by recursion. -/
theorem walks_as_recursion (updates : List (Update κ ν)) :
    let tree := (updatedInTurn updated (empty : BinaryTree κ ν) updates).2
    (∀ position node, tree.nodes[position]? = some node →
      (∀ visited, tree.Walks [position] visited ↔ visited = tree.walk (some position)) ∧
      tree.walk (some position) = position :: (tree.walk node.left ++ tree.walk node.right) ∧
      (tree.walk (some position)).Nodup ∧
      (∀ other, other ∈ tree.walk (some position) ↔ ∃ lower upper, tree.Way (some position) lower upper (some other)) ∧
      (∃ lower upper, tree.Way tree.root lower upper (some position)) ∧
      ∀ lower upper, tree.Way tree.root lower upper (some position) → ∀ key,
        key ∈ tree.keysUnder (some position) ↔
          key ∈ tree.toList.map Prod.fst ∧ SearchTree.IsBetween lower upper key) ∧
    tree.walk none = [] ∧
    (∀ steps height, tree.Measures steps (tree.root.toList.map (·, 1)) 0 height ↔ steps = tree.size ∧ height = tree.height) ∧
    ∀ height, tree.HasHeight tree.root height ↔ height = tree.height := by
  intro tree
  have hsound : tree.Sound := sound_updatedInTurn updates
  obtain ⟨layout, h⟩ := hsound.laid
  have hordered : layout.shape.Ordered := h.shape_eq ▸ hsound.ordered
  refine ⟨fun position node hnode => ?_, walk_none tree, fun _ _ => h.measures_iff, fun _ => h.hasHeight_iff⟩
  refine ⟨fun _ => h.walks_iff hnode, h.walk_node hnode, h.nodup_walk hnode, fun _ => h.mem_walk_iff hnode,
    h.exists_way hnode, ?_⟩
  intro lower upper hway key
  rw [toList, h.shape_eq]
  exact h.mem_keysUnder_iff hordered hway

/-- A node with others above it on both sides, after removals have moved what lies above it and under it. -/
theorem walks_as_recursion_moved :
    Std.TransOrd Value ∧ Std.LawfulEqOrd Value ∧
    let tree := (updatedInTurn updated (empty : BinaryTree Value String)
      [.insert (.int 4) "d", .insert (.int 2) "b", .insert (.int 8) "h", .insert (.int 6) "f", .insert (.int 5) "e",
        .insert (.int 7) "g", .remove (.int 2), .insert (.int 3) "c", .remove (.int 4)]).2
    tree.nodes[3]? = some { key := .int 6, payload := "f", left := none, right := some 1 } ∧
    tree.Way tree.root (some (.int 5)) (some (.int 8)) (some 3) ∧
    tree.Walks [3] (tree.walk (some 3)) ∧ tree.walk (some 3) = 3 :: (tree.walk none ++ tree.walk (some 1)) ∧
    ∀ key, key ∈ tree.keysUnder (some 3) ↔
      key ∈ tree.toList.map Prod.fst ∧ SearchTree.IsBetween (some (.int 5)) (some (.int 8)) key := by
  refine ⟨inferInstance, inferInstance, ?_⟩
  intro tree
  have hroot : tree.root = some 0 := by decide
  have hlower : tree.nodes[0]? = some { key := .int 5, payload := "e", left := some 4, right := some 2 } := by decide
  have hupper : tree.nodes[2]? = some { key := .int 8, payload := "h", left := some 3, right := none } := by decide
  have hnode : tree.nodes[3]? = some { key := .int 6, payload := "f", left := none, right := some 1 } := by decide
  have hway : tree.Way tree.root (some (.int 5)) (some (.int 8)) (some 3) := by
    have hstart : tree.Way tree.root none none (some 0) := hroot ▸ .here
    exact (hstart.right hlower).left hupper
  obtain ⟨hwalks, hwalk, -, -, -, hkeys⟩ := (walks_as_recursion _).1 3 _ hnode
  exact ⟨hnode, hway, (hwalks _).mpr rfl, hwalk, hkeys _ _ hway⟩

end

end BinaryTree

end SqlEngine
