import SqlEngine.Proofs.BinaryTree.Change

/-!
# Removing a key from an array

Removing a key ends in two moves. What refers to the node that goes is made to refer to its only side; a node with two sides has
first exchanged bindings with the leftmost node of its right side, which has but one. Then the last node moves to the position
that is left, and what refers to it is found by its key in a tree that has already changed (`LaidBut.linkTo_eq`). The tree is laid
out after that as the search tree without the key (`Laid.remove`).
-/

namespace SqlEngine

namespace BinaryTree

variable {κ ν : Type}

/-! ## The leftmost node -/

/-- The descent along left sides ends at the node of the least binding, and at what refers to it. -/
theorem leftmost_eq {tree : BinaryTree κ ν} {layout : Layout κ ν} (h : Stores tree.nodes layout.records) {position : Nat}
    (hroot : layout.root? = some position) :
    ∃ (inner : Hole κ ν) (least : Nat) (key : κ) (payload : ν) (right : Layout κ ν),
      layout = inner.fill (.node .leaf least key payload right) ∧
      layout.shape.popLeast? = some ((key, payload), (inner.fill right).shape) ∧
      ∀ (outer : Hole κ ν) link fuel, outer.link = some link → layout.shape.size ≤ fuel →
        ∃ found, tree.leftmost fuel link position = (found, least) ∧ (outer.within inner).link = some found := by
  induction layout generalizing position with
  | leaf => exact nomatch hroot
  | node left own key payload right ihLeft _ =>
    obtain rfl := Option.some.inj hroot
    obtain ⟨hnode, hsides⟩ := stores_cons.mp h
    cases left with
    | leaf =>
      refine ⟨.top, own, key, payload, right, rfl, rfl, fun outer link fuel hlink hfuel => ⟨link, ?_, hlink⟩⟩
      obtain ⟨fuel, rfl⟩ : ∃ less, fuel = less + 1 := ⟨fuel - 1, by simp only [Layout.shape, SearchTree.size] at hfuel; omega⟩
      simp only [leftmost, hnode, Option.bind_some, Layout.root?]
    | node inmost next nextKey nextPayload other =>
      obtain ⟨inner, least, leastKey, leastPayload, rest, hfill, hpop, hdescent⟩ :=
        ihLeft (stores_append.mp hsides).1 rfl
      refine ⟨Hole.within (.onLeft .top own key payload right) inner, least, leastKey, leastPayload, rest, ?_, ?_, ?_⟩
      · rw [Hole.fill_within, hfill]
        rfl
      · rw [Hole.fill_within, Layout.shape, SearchTree.popLeast?, hpop]
        rfl
      · intro outer link fuel _ hfuel
        rw [Layout.shape, SearchTree.size] at hfuel
        obtain ⟨fuel, rfl⟩ : ∃ less, fuel = less + 1 := ⟨fuel - 1, by omega⟩
        rw [← Hole.within_within]
        simp only [leftmost, hnode, Option.bind_some, Layout.root?]
        exact hdescent (.onLeft outer own key payload right) (own, .left) fuel rfl (by omega)

/-! ## What refers to a node -/

/-- The descent by a key to another position comes to the place that the key is sent to, if the position does not lie above it. -/
theorem Hole.OnWay.linkToFrom_fill [Ord κ] {tree : BinaryTree κ ν} {key : κ} {hole : Hole κ ν} (h : hole.OnWay key)
    {place : Layout κ ν} (hstored : Stores tree.nodes (hole.fill place).records) {target : Nat} (htarget : target ∉ hole.positions)
    {fuel : Nat} (hfuel : (hole.fill place).shape.size ≤ fuel) : ∃ rest, place.shape.size ≤ rest ∧
      tree.linkToFrom key target fuel none (hole.fill place).root? =
        tree.linkToFrom key target rest hole.link place.root? := by
  induction hole generalizing place with
  | top => exact ⟨fuel, hfuel, rfl⟩
  | onLeft above position own payload right ih =>
    rw [positions, List.mem_cons, List.mem_append, not_or, not_or] at htarget
    obtain ⟨hhere, _, habove⟩ := htarget
    rw [fill] at hstored hfuel ⊢
    obtain ⟨rest, hrest, hdescend⟩ := ih h.2 hstored habove hfuel
    rw [Layout.shape, SearchTree.size] at hrest
    obtain ⟨rest, rfl⟩ : ∃ less, rest = less + 1 := ⟨rest - 1, by omega⟩
    refine ⟨rest, by omega, hdescend.trans ?_⟩
    simp only [Layout.root?_node, linkToFrom, if_neg (Ne.symm hhere), hstored.node, h.1, if_true, link]
  | onRight above left position own payload ih =>
    rw [positions, List.mem_cons, List.mem_append, not_or, not_or] at htarget
    obtain ⟨hhere, _, habove⟩ := htarget
    rw [fill] at hstored hfuel ⊢
    obtain ⟨rest, hrest, hdescend⟩ := ih h.2 hstored habove hfuel
    rw [Layout.shape, SearchTree.size] at hrest
    obtain ⟨rest, rfl⟩ : ∃ less, rest = less + 1 := ⟨rest - 1, by omega⟩
    refine ⟨rest, by omega, hdescend.trans ?_⟩
    simp only [Layout.root?_node, linkToFrom, if_neg (Ne.symm hhere), hstored.node, h.1, reduceCtorEq, if_false, link]

/-! ## The last node -/

/-- Where the last node takes the position of another one and the array ends before it, all other nodes stay. -/
theorem getElem?_pop_swap {nodes : Array (Node κ ν)} {gap : Nat} (hgap : gap < nodes.size) {position : Nat}
    (hposition : position < nodes.size - 1) :
    (nodes.swapIfInBounds gap (nodes.size - 1)).pop[position]? =
      if position = gap then nodes[nodes.size - 1]? else nodes[position]? := by
  have hlast : nodes.size - 1 < nodes.size := by omega
  rw [Array.getElem?_pop, Array.size_swapIfInBounds, if_pos hposition, Array.swapIfInBounds_def, dif_pos hgap,
    dif_pos hlast, Array.getElem?_swap, if_neg (by omega), Array.getElem?_eq_getElem hlast]
  by_cases h : position = gap
  · rw [if_pos h.symm, if_pos h]
  · rw [if_neg (Ne.symm h), if_neg h]

/-- The last node takes the position of another one that goes. -/
theorem Laid.pop_swap {tree : BinaryTree κ ν} {layout : Layout κ ν} {gap : Nat} (hgap : gap < tree.size)
    (hroot : tree.root = layout.root?) (hpositions : layout.positions.Perm (List.range (tree.size - 1)))
    (hstored : ∀ record ∈ layout.records,
      (if record.1 = gap then tree.nodes[tree.size - 1]? else tree.nodes[record.1]?) = some record.2) :
    Laid { tree with nodes := (tree.nodes.swapIfInBounds gap (tree.size - 1)).pop } layout where
  root := hroot
  stored record hrecord := by
    have hmem : record.1 ∈ layout.positions := layout.map_fst_records ▸ List.mem_map_of_mem hrecord
    rw [← hstored record hrecord]
    exact getElem?_pop_swap hgap (List.mem_range.mp (hpositions.subset hmem))
  positions := by
    simp only [size, Array.size_pop, Array.size_swapIfInBounds]
    exact hpositions

namespace LaidBut

variable {tree : BinaryTree κ ν} {layout : Layout κ ν} {gap : Nat}

theorem nodup (h : tree.LaidBut layout gap) : (gap :: layout.positions).Nodup :=
  h.positions.nodup_iff.mpr List.nodup_range

theorem gap_lt (h : tree.LaidBut layout gap) : gap < tree.size :=
  List.mem_range.mp (h.positions.subset List.mem_cons_self)

/-- The positions are the last one and all those before it. -/
theorem positions_last (h : tree.LaidBut layout gap) :
    (gap :: layout.positions).Perm ((tree.size - 1) :: List.range (tree.size - 1)) := by
  have hsize : tree.size - 1 + 1 = tree.size := Nat.sub_add_cancel (Nat.zero_lt_of_lt h.gap_lt)
  have hrange := List.range_succ (n := tree.size - 1)
  rw [Nat.succ_eq_add_one, hsize] at hrange
  exact (hrange ▸ h.positions).trans List.perm_append_comm

/-- The gap lies neither at a place nor around it. -/
theorem gap_not_mem {hole : Hole κ ν} {place : Layout κ ν} (h : tree.LaidBut (hole.fill place) gap) :
    gap ∉ place.positions ∧ gap ∉ hole.positions := by
  have hgap := (List.nodup_cons.mp h.nodup).1
  rwa [(hole.positions_fill place).mem_iff, List.mem_append, not_or] at hgap

/-- The positions that are left when the last node is at the gap. -/
theorem positions_moved {hole : Hole κ ν} {left right : Layout κ ν} {key : κ} {payload : ν}
    (h : tree.LaidBut (hole.fill (.node left (tree.size - 1) key payload right)) gap) :
    (hole.fill (.node left gap key payload right)).positions.Perm (List.range (tree.size - 1)) := by
  have hlast := h.positions_last
  have hbefore := hole.positions_fill (.node left (tree.size - 1) key payload right)
  have hafter := hole.positions_fill (.node left gap key payload right)
  simp only [Layout.positions, List.cons_append] at hbefore hafter
  exact hafter.trans ((((hbefore.cons gap).trans (.swap _ _ _)).symm.trans hlast).cons_inv)

/-- Where what refers to the last node is made to refer to the gap, and the last node then moves there, it is laid out at the gap.
-/
theorem pop_swap {hole : Hole κ ν} {left right : Layout κ ν} {key : κ} {payload : ν}
    (h : tree.LaidBut (hole.fill (.node left (tree.size - 1) key payload right)) gap) :
    Laid { tree.setLink hole.link (some gap) with
        nodes := ((tree.setLink hole.link (some gap)).nodes.swapIfInBounds gap (tree.size - 1)).pop }
      (hole.fill (.node left gap key payload right)) := by
  obtain ⟨hgapPlace, hgapAround⟩ := h.gap_not_mem
  obtain ⟨_, hnodup, hdisjoint⟩ := Hole.nodup_fill (List.nodup_cons.mp h.nodup).2
  obtain ⟨hplace, haround⟩ := stores_fill.mp h.stored
  obtain ⟨hnode, hsides⟩ := stores_cons.mp hplace
  obtain ⟨hroot, hstored, hothers⟩ := stores_setLink (h.root.trans (hole.root?_fill _)) haround hnodup (some gap)
  have hsize := size_setLink tree hole.link (some gap)
  rw [← hsize]
  refine Laid.pop_swap (hsize ▸ h.gap_lt) ?_ (hsize ▸ h.positions_moved) ?_
  · rw [hroot, Hole.root?_fill]
    rfl
  -- The node that moves, then the nodes under it, then those around it, of which one was changed to refer to the gap.
  intro record hrecord
  rw [hsize]
  rcases List.mem_append.mp ((hole.records_fill _).subset hrecord) with hrecord | hrecord
  · rcases List.mem_cons.mp hrecord with rfl | hrecord
    · rw [if_pos rfl, hothers _ (hdisjoint _ List.mem_cons_self)]
      exact hnode
    · have hposition : record.1 ∈ left.positions ++ right.positions := by
        rw [← left.map_fst_records, ← right.map_fst_records, ← List.map_append]
        exact List.mem_map_of_mem hrecord
      rw [if_neg (fun heq : record.1 = gap => hgapPlace (List.mem_cons_of_mem _ (heq ▸ hposition))),
        hothers _ (hdisjoint _ (List.mem_cons_of_mem _ hposition))]
      exact hsides record hrecord
  · have hposition : record.1 ∈ hole.positions := hole.map_fst_records _ ▸ List.mem_map_of_mem hrecord
    rw [if_neg (fun heq : record.1 = gap => hgapAround (heq ▸ hposition))]
    exact hstored record hrecord

/-- What refers to a place lies around it, so to change the link leaves the node at the gap alone. -/
theorem getElem?_setLink {hole : Hole κ ν} {place : Layout κ ν} (h : tree.LaidBut (hole.fill place) gap)
    (target : Option Nat) : (tree.setLink hole.link target).nodes[gap]? = tree.nodes[gap]? := by
  obtain ⟨_, hnodup, _⟩ := Hole.nodup_fill (List.nodup_cons.mp h.nodup).2
  have haround := (stores_fill.mp h.stored).2
  obtain ⟨_, _, hothers⟩ := stores_setLink (h.root.trans (hole.root?_fill place)) haround hnodup target
  exact hothers gap h.gap_not_mem.2

variable [Ord κ]

/-- If the node at the last position goes, no node moves. -/
theorem release_last (h : tree.LaidBut layout gap) (hlast : gap = tree.size - 1) :
    (tree.release gap).2.Laid layout ∧ (tree.release gap).1 = tree.nodes[gap]? := by
  have hpositions := h.positions_last
  rw [← hlast] at hpositions
  unfold BinaryTree.release
  simp only [if_pos hlast]
  refine ⟨Laid.pop_swap h.gap_lt h.root (hlast ▸ hpositions.cons_inv) fun record hrecord => ?_, trivial⟩
  rw [if_neg]
  · exact h.stored record hrecord
  · rintro rfl
    exact (List.nodup_cons.mp h.nodup).1 (layout.map_fst_records ▸ List.mem_map_of_mem hrecord)

/-- What refers to a node of a tree in order is found by the key of the node. -/
theorem linkTo_eq [Std.TransOrd κ] {hole : Hole κ ν} {left right : Layout κ ν} {target : Nat} {key : κ} {payload : ν}
    (h : tree.LaidBut (hole.fill (.node left target key payload right)) gap)
    (hordered : (hole.fill (.node left target key payload right)).shape.Ordered) : tree.linkTo target = hole.link := by
  obtain ⟨_, _, hdisjoint⟩ := Hole.nodup_fill (List.nodup_cons.mp h.nodup).2
  have hway : hole.OnWay key := Hole.onWay_root hordered
  have hsize := h.positions.length_eq
  rw [List.length_cons, Layout.length_positions, List.length_range] at hsize
  obtain ⟨rest, hrest, hdescend⟩ :=
    hway.linkToFrom_fill h.stored (hdisjoint target List.mem_cons_self) (show _ ≤ tree.size by omega)
  rw [Layout.shape, SearchTree.size] at hrest
  obtain ⟨rest, rfl⟩ : ∃ less, rest = less + 1 := ⟨rest - 1, by omega⟩
  simp only [linkTo, h.stored.node, h.root, hdescend, Layout.root?_node, linkToFrom, if_true]

/-- The last node may move to the position that holds no node of a tree in order. -/
theorem release [Std.TransOrd κ] (h : tree.LaidBut layout gap) (hordered : layout.shape.Ordered) :
    ∃ after, (tree.release gap).2.Laid after ∧ after.shape = layout.shape ∧ (tree.release gap).1 = tree.nodes[gap]? := by
  by_cases hlast : gap = tree.size - 1
  · obtain ⟨hlaid, hreleased⟩ := h.release_last hlast
    exact ⟨layout, hlaid, rfl, hreleased⟩
  · -- The tree is searched after the gap was cut out of it, so that the last node is found in what is laid out.
    have hmem : tree.size - 1 ∈ layout.positions :=
      (List.mem_cons.mp (h.positions_last.symm.subset List.mem_cons_self)).resolve_left (Ne.symm hlast)
    obtain ⟨hole, left, key, payload, right, hfill⟩ := Hole.exists_fill_eq .top hmem
    rw [Hole.fill] at hfill
    subst hfill
    have hlink := h.linkTo_eq hordered
    refine ⟨hole.fill (.node left gap key payload right), ?_, hole.shape_fill_congr rfl, ?_⟩
    · unfold BinaryTree.release
      simp only [if_neg hlast, hlink]
      exact h.pop_swap
    · unfold BinaryTree.release
      simp only [if_neg hlast, hlink]
      exact h.getElem?_setLink (some gap)

end LaidBut

/-! ## Removal -/

namespace Laid

variable {tree : BinaryTree κ ν}

/-- The leftmost node of a side exchanges bindings with the node that the side belongs to. -/
theorem exchange {hole : Hole κ ν} {left right rest : Layout κ ν} {inner : Hole κ ν} {position least : Nat}
    {key leastKey : κ} {payload leastPayload : ν} (h : tree.Laid (hole.fill (.node left position key payload right)))
    (hright : right = inner.fill (.node .leaf least leastKey leastPayload rest)) :
    (tree.exchange position least).Laid
      ((Hole.within (.onRight hole left position leastKey leastPayload) inner).fill
        (.node .leaf least key payload rest)) := by
  obtain ⟨hnode, hsides⟩ := stores_cons.mp (stores_fill.mp h.stored).1
  have hside := (stores_append.mp hsides).2
  rw [hright] at hside
  have hleast := hside.node
  have hfirst : (tree.setBinding position leastKey leastPayload).Laid
      (hole.fill (.node left position leastKey leastPayload right)) := h.modifyNode leastKey leastPayload rfl
  have hsame : hole.fill (.node left position leastKey leastPayload right) =
      (Hole.within (.onRight hole left position leastKey leastPayload) inner).fill
        (.node .leaf least leastKey leastPayload rest) := by
    rw [Hole.fill_within, ← hright]
    rfl
  rw [hsame] at hfirst
  unfold BinaryTree.exchange
  simp only [hnode, hleast]
  exact hfirst.modifyNode key payload rfl

variable [Ord κ] [Std.TransOrd κ]

/-- A node may go whose place can be taken by what else lies there. -/
theorem release_setLink {hole : Hole κ ν} {place rest : Layout κ ν} {position : Nat} (h : tree.Laid (hole.fill place))
    (hpart : rest.records ⊆ place.records) (hgap : place.positions.Perm (position :: rest.positions))
    (hordered : (hole.fill rest).shape.Ordered) :
    ∃ after, ((tree.setLink hole.link rest.root?).release position).2.Laid after ∧
      after.shape = (hole.fill rest).shape ∧
      ((tree.setLink hole.link rest.root?).release position).1 = tree.nodes[position]? := by
  obtain ⟨after, hafter, hshape, hreleased⟩ := (h.setLink hpart hgap).release hordered
  exact ⟨after, hafter, hshape, hreleased.trans (h.getElem?_setLink _ (hgap.symm.subset List.mem_cons_self))⟩

section

variable {hole : Hole κ ν} {left right : Layout κ ν} {position : Nat} {key : κ} {payload : ν}
  (h : tree.Laid (hole.fill (.node left position key payload right)))
  (hordered : ∀ rest : Layout κ ν, rest.shape = SearchTree.glue left.shape right.shape → (hole.fill rest).shape.Ordered)

include h hordered

/-- Of a node with two sides the binding is taken out and replaced by the least one of its right side. -/
theorem takeOut_of_sides {leftRoot rightRoot : Nat} (hleft : left.root? = some leftRoot)
    (hright : right.root? = some rightRoot) :
    ∃ after rest, (tree.takeOut hole.link position { key, payload, left := leftRoot, right := rightRoot }).2.Laid after ∧
      after.shape = (hole.fill rest).shape ∧ rest.shape = SearchTree.glue left.shape right.shape ∧
      (tree.takeOut hole.link position { key, payload, left := leftRoot, right := rightRoot }).1.map Node.payload =
        some payload := by
  have hsides := (stores_cons.mp (stores_fill.mp h.stored).1).2
  obtain ⟨inner, least, leastKey, leastPayload, rest, hfill, hpop, hdescent⟩ :=
    leftmost_eq (stores_append.mp hsides).2 hright
  -- The node keeps its position and takes over the least binding; the node of that binding goes.
  let outer : Hole κ ν := .onRight hole left position leastKey leastPayload
  have hfuel : right.shape.size ≤ tree.size := by
    have hsize := h.size_le
    rw [Layout.shape, SearchTree.size] at hsize
    omega
  obtain ⟨found, hleftmost, hlink⟩ := hdescent outer (position, .right) tree.size rfl hfuel
  have hexchanged := h.exchange hfill
  have hleast := hexchanged.stored.node
  have htake : tree.takeOut hole.link position { key, payload, left := leftRoot, right := rightRoot } =
      ((tree.exchange position least).setLink (outer.within inner).link rest.root?).release least := by
    simp only [BinaryTree.takeOut, hleftmost, hleast, Option.bind_some, hlink]
  have hglue : (Layout.node left position leastKey leastPayload (inner.fill rest)).shape =
      SearchTree.glue left.shape right.shape := by
    cases left with
    | leaf => cases hleft
    | node inmost inPosition inKey inPayload other => rw [Layout.shape, Layout.shape, SearchTree.glue, hpop]
  have hwithin : (outer.within inner).fill rest =
      hole.fill (.node left position leastKey leastPayload (inner.fill rest)) := Hole.fill_within _ _ _
  obtain ⟨after, hafter, hshape, hreleased⟩ := hexchanged.release_setLink (List.subset_cons_self _ rest.records)
    (List.Perm.refl (least :: rest.positions)) (by rw [hwithin]; exact hordered _ hglue)
  rw [htake]
  refine ⟨after, _, hafter, hshape.trans (congrArg Layout.shape hwithin), hglue, ?_⟩
  rw [hreleased, hleast]
  rfl

/-- A node is taken out and its place taken by what its sides are glued to. -/
theorem takeOut {node : Node κ ν} (hnode : tree.nodes[position]? = some node) :
    ∃ after rest, (tree.takeOut hole.link position node).2.Laid after ∧ after.shape = (hole.fill rest).shape ∧
      rest.shape = SearchTree.glue left.shape right.shape ∧
      (tree.takeOut hole.link position node).1.map Node.payload = some payload := by
  obtain ⟨hown, hsides⟩ := stores_cons.mp (stores_fill.mp h.stored).1
  obtain rfl := Option.some.inj (hnode.symm.trans hown)
  cases left with
  | leaf =>
    have htake : tree.takeOut hole.link position { key, payload, left := none, right := right.root? } =
        (tree.setLink hole.link right.root?).release position := by
      unfold BinaryTree.takeOut
      cases right.root? <;> rfl
    obtain ⟨after, hafter, hshape, hreleased⟩ := h.release_setLink (List.subset_cons_self _ right.records)
      (List.Perm.refl (position :: right.positions)) (hordered right rfl)
    rw [Layout.root?, htake]
    refine ⟨after, right, hafter, hshape, rfl, ?_⟩
    rw [hreleased, hnode]
    rfl
  | node inmost inPosition inKey inPayload other =>
    cases right with
    | leaf =>
      obtain ⟨after, hafter, hshape, hreleased⟩ := h.release_setLink
        (List.Subset.trans (List.subset_append_left _ []) (List.subset_cons_self _ _))
        (List.Perm.of_eq (congrArg (position :: ·) (List.append_nil _))) (hordered _ rfl)
      refine ⟨after, _, hafter, hshape, rfl, ?_⟩
      exact congrArg (Option.map Node.payload) (hreleased.trans hnode)
    | node farLeft farPosition farKey farPayload farRight => exact h.takeOut_of_sides hordered rfl rfl

end

variable {layout : Layout κ ν}

/-- A key is removed as from a search tree in order. -/
theorem remove (h : tree.Laid layout) (hordered : layout.shape.Ordered) (key : κ) :
    ∃ after, (tree.remove key).2.Laid after ∧ after.shape = layout.shape.erase key ∧
      (tree.remove key).1 = layout.shape.find? key := by
  obtain ⟨hole, place, rfl, hway, hmeets, hsearch⟩ := h.search_eq key
  rw [hway.find?_fill]
  cases place with
  | leaf =>
    refine ⟨hole.fill .leaf, ?_, (hway.shape_fill (goesTo_erase key) rfl).symm, ?_⟩
    · simpa only [BinaryTree.remove, hsearch, Layout.root?] using h
    · simp only [BinaryTree.remove, hsearch, Layout.root?, Layout.shape, SearchTree.find?]
  | node left position own payload right =>
    have hcompare : compare key own = .eq := hmeets
    have herase : ∀ rest : Layout κ ν, rest.shape = SearchTree.glue left.shape right.shape →
        (hole.fill rest).shape = (hole.fill (.node left position own payload right)).shape.erase key := by
      intro rest hrest
      refine (hway.shape_fill (goesTo_erase key) ?_).symm
      simp only [Layout.shape, SearchTree.erase, hcompare, hrest]
    have hafter : ∀ rest : Layout κ ν, rest.shape = SearchTree.glue left.shape right.shape →
        (hole.fill rest).shape.Ordered := by
      intro rest hrest
      rw [herase rest hrest]
      exact SearchTree.ordered_erase hordered key
    have hnode := h.stored.node
    obtain ⟨after, rest, hlaid, hshape, hrest, htaken⟩ := h.takeOut hafter hnode
    refine ⟨after, ?_, hshape.trans (herase rest hrest), ?_⟩
    · simpa only [BinaryTree.remove, hsearch, Layout.root?, hnode] using hlaid
    · simpa only [BinaryTree.remove, hsearch, Layout.root?, hnode, Layout.shape, SearchTree.find?, hcompare] using htaken

end Laid

end BinaryTree

end SqlEngine
