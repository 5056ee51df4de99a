import SqlEngine.BinaryTree

/-!
# How a tree lies in an array

A layout is a search tree that says of every node at which position it lies (`Layout`). It fixes a record for each of these
positions, and an array of nodes stores the layout when it has all of the records (`Stores`). A place in a layout is given by what
is around it (`Hole`): the hole holds the records of everything around the place and knows what refers to the place. To make that
link refer to something else changes one record of the hole, and nothing at the place (`stores_setLink`).
-/

namespace SqlEngine

namespace BinaryTree

/-- A search tree with the positions of its nodes. -/
inductive Layout (κ ν : Type) where
  | leaf
  | node (left : Layout κ ν) (position : Nat) (key : κ) (payload : ν) (right : Layout κ ν)
  deriving Repr

/-- A layout with a place left out: the place is the whole of it, or lies at a side of a node. -/
inductive Hole (κ ν : Type) where
  | top
  | onLeft (above : Hole κ ν) (position : Nat) (key : κ) (payload : ν) (right : Layout κ ν)
  | onRight (above : Hole κ ν) (left : Layout κ ν) (position : Nat) (key : κ) (payload : ν)
  deriving Repr

variable {κ ν : Type}

/-- The array has the node of each record at the record's position. -/
def Stores (nodes : Array (Node κ ν)) (records : List (Nat × Node κ ν)) : Prop :=
  ∀ record ∈ records, nodes[record.1]? = some record.2

namespace Layout

/-- The search tree without the positions. -/
def shape : Layout κ ν → SearchTree κ ν
  | leaf => .leaf
  | node left _ key payload right => .node left.shape key payload right.shape

/-- The position of the node at the root. -/
def root? : Layout κ ν → Option Nat
  | leaf => none
  | node _ position _ _ _ => some position

/-- For every position the node that has to lie there. -/
def records : Layout κ ν → List (Nat × Node κ ν)
  | leaf => []
  | node left position key payload right =>
    (position, { key, payload, left := left.root?, right := right.root? }) :: (left.records ++ right.records)

/-- The positions of the nodes: the one of the root, then those of its left side, then those of its right side. -/
def positions : Layout κ ν → List Nat
  | leaf => []
  | node left position _ _ right => position :: (left.positions ++ right.positions)

@[simp] theorem root?_leaf : (leaf : Layout κ ν).root? = none := rfl

@[simp] theorem root?_node (left right : Layout κ ν) (position : Nat) (key : κ) (payload : ν) :
    (node left position key payload right).root? = some position := rfl

/-- A layout with a position at its root has a node there. -/
theorem exists_node_eq {layout : Layout κ ν} {position : Nat} (h : layout.root? = some position) :
    ∃ left key payload right, layout = .node left position key payload right := by
  cases layout with
  | leaf => cases h
  | node left own key payload right =>
    cases h
    exact ⟨left, key, payload, right, rfl⟩

theorem map_fst_records (layout : Layout κ ν) : layout.records.map Prod.fst = layout.positions := by
  induction layout with
  | leaf => rfl
  | node left position key payload right ihLeft ihRight =>
    rw [records, positions, List.map_cons, List.map_append, ihLeft, ihRight]

/-- There are as many positions as bindings. -/
theorem length_positions (layout : Layout κ ν) : layout.positions.length = layout.shape.size := by
  induction layout with
  | leaf => rfl
  | node left position key payload right ihLeft ihRight =>
    simp only [positions, shape, SearchTree.size, List.length_cons, List.length_append, ihLeft, ihRight]
    omega

end Layout

namespace Hole

/-- The layout with the given one at the place. -/
def fill : Hole κ ν → Layout κ ν → Layout κ ν
  | top, layout => layout
  | onLeft above position key payload right, layout => above.fill (.node layout position key payload right)
  | onRight above left position key payload, layout => above.fill (.node left position key payload layout)

/-- What refers to the place. -/
def link : Hole κ ν → Link
  | top => none
  | onLeft _ position _ _ _ => some (position, .left)
  | onRight _ _ position _ _ => some (position, .right)

/-- The records around the place, if it has the given position at its root. -/
def records : Hole κ ν → Option Nat → List (Nat × Node κ ν)
  | top, _ => []
  | onLeft above position key payload right, held =>
    (position, { key, payload, left := held, right := right.root? }) :: (right.records ++ above.records (some position))
  | onRight above left position key payload, held =>
    (position, { key, payload, left := left.root?, right := held }) :: (left.records ++ above.records (some position))

/-- The positions around the place. -/
def positions : Hole κ ν → List Nat
  | top => []
  | onLeft above position _ _ right => position :: (right.positions ++ above.positions)
  | onRight above left position _ _ => position :: (left.positions ++ above.positions)

/-- The position at the root of the layout, if the place has the given one at its root. -/
def root? : Hole κ ν → Option Nat → Option Nat
  | top, held => held
  | onLeft above position _ _ _, _ => above.root? (some position)
  | onRight above _ position _ _, _ => above.root? (some position)

/-- A hole within the place of another one. -/
def within (outer : Hole κ ν) : Hole κ ν → Hole κ ν
  | top => outer
  | onLeft above position key payload right => onLeft (outer.within above) position key payload right
  | onRight above left position key payload => onRight (outer.within above) left position key payload

variable (hole : Hole κ ν) (layout : Layout κ ν)

theorem map_fst_records (held : Option Nat) : (hole.records held).map Prod.fst = hole.positions := by
  induction hole generalizing held with
  | top => rfl
  | onLeft above position key payload right ih =>
    rw [records, positions, List.map_cons, List.map_append, right.map_fst_records, ih]
  | onRight above left position key payload ih =>
    rw [records, positions, List.map_cons, List.map_append, left.map_fst_records, ih]

@[simp] theorem root?_fill : (hole.fill layout).root? = hole.root? layout.root? := by
  induction hole generalizing layout with
  | top => rfl
  | onLeft above position key payload right ih => exact ih _
  | onRight above left position key payload ih => exact ih _

/-- The records of a filled hole are those at the place and those around it. -/
theorem records_fill : (hole.fill layout).records.Perm (layout.records ++ hole.records layout.root?) := by
  induction hole generalizing layout with
  | top => rw [fill, records, List.append_nil]
  | onLeft above position key payload right ih =>
    refine (ih _).trans ?_
    simp only [Layout.records, records, Layout.root?, List.cons_append, List.append_assoc]
    exact List.perm_middle.symm
  | onRight above left position key payload ih =>
    refine (ih _).trans ?_
    simp only [Layout.records, records, Layout.root?, List.cons_append]
    refine List.Perm.trans ?_ List.perm_middle.symm
    rw [← List.append_assoc]
    exact ((List.perm_append_comm).append_right _).cons _

theorem positions_fill : (hole.fill layout).positions.Perm (layout.positions ++ hole.positions) := by
  have h := (records_fill hole layout).map Prod.fst
  rwa [List.map_append, Layout.map_fst_records, Layout.map_fst_records, map_fst_records] at h

/-- What lies at a place and what lies around it have no position in common, and neither has one twice. -/
theorem nodup_fill {hole : Hole κ ν} {place : Layout κ ν} (h : (hole.fill place).positions.Nodup) :
    place.positions.Nodup ∧ hole.positions.Nodup ∧ ∀ position ∈ place.positions, position ∉ hole.positions := by
  obtain ⟨hplace, hhole, hdisjoint⟩ := List.nodup_append.mp ((hole.positions_fill place).nodup_iff.mp h)
  exact ⟨hplace, hhole, fun position hmem haround => hdisjoint position hmem position haround rfl⟩

/-- Every position of a layout that fills a hole is that of a node which fills another hole. -/
theorem exists_fill_eq {position : Nat} : ∀ (hole : Hole κ ν) {layout : Layout κ ν}, position ∈ layout.positions →
    ∃ (found : Hole κ ν) (left : Layout κ ν) (key : κ) (payload : ν) (right : Layout κ ν),
      hole.fill layout = found.fill (.node left position key payload right)
  | _, .leaf, h => nomatch h
  | hole, .node left own key payload right, h => by
    rw [Layout.positions, List.mem_cons, List.mem_append] at h
    rcases h with rfl | hleft | hright
    · exact ⟨hole, left, key, payload, right, rfl⟩
    · exact exists_fill_eq (.onLeft hole own key payload right) hleft
    · exact exists_fill_eq (.onRight hole left own key payload) hright

/-- The search tree of a filled hole is settled by that of what fills it. -/
theorem shape_fill_congr {before after : Layout κ ν} (h : before.shape = after.shape) :
    (hole.fill before).shape = (hole.fill after).shape := by
  induction hole generalizing before after with
  | top => exact h
  | onLeft above position key payload right ih => exact ih (by rw [Layout.shape, Layout.shape, h])
  | onRight above left position key payload ih => exact ih (by rw [Layout.shape, Layout.shape, h])

theorem fill_within (inner : Hole κ ν) : (hole.within inner).fill layout = hole.fill (inner.fill layout) := by
  induction inner generalizing layout with
  | top => rfl
  | onLeft above position key payload right ih => exact ih _
  | onRight above left position key payload ih => exact ih _

theorem within_within (middle inner : Hole κ ν) : (hole.within middle).within inner = hole.within (middle.within inner) := by
  induction inner with
  | top => rfl
  | onLeft above position key payload right ih => rw [within, within, within, ih]
  | onRight above left position key payload ih => rw [within, within, within, ih]

end Hole

/-! ## What an array stores -/

section

variable {nodes : Array (Node κ ν)}

theorem Stores.subset {records others : List (Nat × Node κ ν)} (h : Stores nodes records) (hsub : others ⊆ records) :
    Stores nodes others := fun record hrecord => h record (hsub hrecord)

@[simp] theorem stores_nil : Stores nodes [] := nofun

@[simp] theorem stores_cons {record : Nat × Node κ ν} {rest : List (Nat × Node κ ν)} :
    Stores nodes (record :: rest) ↔ nodes[record.1]? = some record.2 ∧ Stores nodes rest := List.forall_mem_cons

@[simp] theorem stores_append {records others : List (Nat × Node κ ν)} :
    Stores nodes (records ++ others) ↔ Stores nodes records ∧ Stores nodes others := List.forall_mem_append

/-- A filled hole is stored where what fills it is, and what is around it. -/
theorem stores_fill {hole : Hole κ ν} {layout : Layout κ ν} :
    Stores nodes (hole.fill layout).records ↔ Stores nodes layout.records ∧ Stores nodes (hole.records layout.root?) := by
  rw [← stores_append]
  exact ⟨fun h => h.subset (hole.records_fill layout).symm.subset, fun h => h.subset (hole.records_fill layout).subset⟩

/-- A node that fills a hole is stored at its position. -/
theorem Stores.node {hole : Hole κ ν} {left right : Layout κ ν} {position : Nat} {key : κ} {payload : ν}
    (h : Stores nodes (hole.fill (.node left position key payload right)).records) :
    nodes[position]? = some { key, payload, left := left.root?, right := right.root? } :=
  (stores_cons.mp (stores_fill.mp h).1).1

/-- An array that agrees with another one at the positions of records stores them if the other one does. -/
theorem Stores.congr {records : List (Nat × Node κ ν)} (h : Stores nodes records) {others : Array (Node κ ν)}
    (hsame : ∀ position ∈ records.map Prod.fst, others[position]? = nodes[position]?) : Stores others records := by
  intro record hrecord
  rw [hsame record.1 (List.mem_map_of_mem hrecord)]
  exact h record hrecord

end

/-- An array with one node modified stores the node as it is then, and all other records. -/
theorem Stores.modify {nodes : Array (Node κ ν)} {position : Nat} {node : Node κ ν} {rest : List (Nat × Node κ ν)}
    (h : Stores nodes ((position, node) :: rest)) (hfresh : position ∉ rest.map Prod.fst) (change : Node κ ν → Node κ ν) :
    Stores (nodes.modify position change) ((position, change node) :: rest) := by
  obtain ⟨hnode, hrest⟩ := stores_cons.mp h
  refine stores_cons.mpr ⟨?_, hrest.congr fun other hother => ?_⟩
  · rw [Array.getElem?_modify, if_pos rfl, hnode, Option.map_some]
  · rw [Array.getElem?_modify, if_neg]
    rintro rfl
    exact hfresh hother

/-- Where a place has a new position at its root and what refers to the place is made to refer to it, the records around the place
are stored as they have to be then, and all other nodes are left alone. -/
theorem stores_setLink {tree : BinaryTree κ ν} {hole : Hole κ ν} {held : Option Nat} (hroot : tree.root = hole.root? held)
    (h : Stores tree.nodes (hole.records held)) (hnodup : hole.positions.Nodup) (target : Option Nat) :
    (tree.setLink hole.link target).root = hole.root? target ∧
      Stores (tree.setLink hole.link target).nodes (hole.records target) ∧
      ∀ position ∉ hole.positions, (tree.setLink hole.link target).nodes[position]? = tree.nodes[position]? := by
  cases hole with
  | top => exact ⟨rfl, stores_nil, fun _ _ => rfl⟩
  | onLeft above parent key payload right =>
    refine ⟨hroot, h.modify ?_ fun node => { node with left := target }, fun position hmem => ?_⟩
    · rw [List.map_append, Layout.map_fst_records, Hole.map_fst_records]
      exact (List.nodup_cons.mp hnodup).1
    · exact Array.getElem?_modify.trans (if_neg (List.ne_of_not_mem_cons hmem).symm)
  | onRight above left parent key payload =>
    refine ⟨hroot, h.modify ?_ fun node => { node with right := target }, fun position hmem => ?_⟩
    · rw [List.map_append, Layout.map_fst_records, Hole.map_fst_records]
      exact (List.nodup_cons.mp hnodup).1
    · exact Array.getElem?_modify.trans (if_neg (List.ne_of_not_mem_cons hmem).symm)

end BinaryTree

end SqlEngine
