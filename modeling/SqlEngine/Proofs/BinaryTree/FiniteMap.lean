import Mathlib.Data.Finmap
import SqlEngine.Proofs.BinaryTree.Shape
import SqlEngine.Value

/-!
# Binary trees are finite maps

An update of a tree gives the answer that the same update of a finite map gives, and leaves a tree that has the payloads which the
map then has (`Agrees.step`). So after any updates from nothing, looking a key up, going to its node, changing its payload in
place, walking through the tree and counting its nodes all show one and the same map, and the keys are in search order at every
node (`updates_act_as_on_map`).
-/

namespace SqlEngine

namespace BinaryTree

variable {κ ν : Type} [Ord κ] [Std.LawfulEqOrd κ] [DecidableEq κ]

/-! ## Looking a key up after a change -/

/-- The finite map of pairs has for every key the payload given last for it. -/
theorem lookup_foldl_insert (pairs : List (κ × ν)) (key : κ) :
    (pairs.foldl (fun filled pair => filled.insert pair.1 pair.2) (∅ : Finmap fun _ : κ => ν)).lookup key =
      SearchTree.lastGiven key pairs := by
  induction pairs using List.reverseRecOn with
  | nil => rfl
  | append_singleton rest pair ih =>
    rw [List.foldl_append, List.foldl_cons, List.foldl_nil, SearchTree.lastGiven_append, SearchTree.lastGiven_cons]
    by_cases heq : pair.1 = key
    · rw [heq, Finmap.lookup_insert, if_pos Std.ReflOrd.compare_self]
      rfl
    · have hne : compare pair.1 key ≠ .eq := fun h => heq (Std.LawfulEqOrd.eq_of_compare h)
      rw [Finmap.lookup_insert_of_ne _ (Ne.symm heq), ih, if_neg hne]
      rfl

section

variable {tree : BinaryTree κ ν} (h : tree.Sound)

include h

/-- After a change in place the key has the changed payload, and every other key has the payload that it had. -/
theorem find?_modify (key other : κ) (change : ν → ν) : (tree.modify key change).find? other =
    if other = key then (tree.find? key).map change else tree.find? other := by
  obtain ⟨hsound, hshape⟩ := h.modify_eq key change
  rw [hsound.find?_eq, hshape, SearchTree.find?_modify, h.find?_eq, h.find?_eq]

variable [Std.TransOrd κ]

/-- After an insertion the key has the new payload, and every other key has the payload that it had. -/
theorem find?_insert (key other : κ) (payload : ν) :
    (tree.insert key payload).find? other = if other = key then some payload else tree.find? other := by
  refine Option.ext fun value => ?_
  rw [find?_eq_some_iff (h.insert key payload), mem_toList_insert h]
  by_cases heq : other = key
  · simp [heq, eq_comm]
  · simp [heq, find?_eq_some_iff h]

/-- After an erasure the key has no payload, and every other key has the payload that it had. -/
theorem find?_erase (key other : κ) : (tree.erase key).find? other = if other = key then none else tree.find? other := by
  refine Option.ext fun value => ?_
  rw [find?_eq_some_iff (h.erase key), mem_toList_erase h]
  by_cases heq : other = key
  · simp [heq]
  · simp [heq, find?_eq_some_iff h]

end

variable [Std.TransOrd κ]

/-! ## Updates -/

/-- An update of a tree, or of a finite map. -/
inductive Update (κ ν : Type) where
  /-- Gives a key a payload. -/
  | insert (key : κ) (payload : ν)
  /-- Takes a key away. -/
  | remove (key : κ)
  /-- Puts the pairs in place of all that is there. -/
  | fill (pairs : List (κ × ν))
  /-- Changes the payload of a key in place; without the key it does nothing. -/
  | replace (key : κ) (payload : ν)
  deriving Repr

/-- The answer of an update of a tree, which is the payload that the key had where one is taken away or replaced, and the tree
after it. -/
def updated (tree : BinaryTree κ ν) : Update κ ν → Option ν × BinaryTree κ ν
  | .insert key payload => (none, tree.insert key payload)
  | .remove key => tree.remove key
  | .fill pairs => (none, ofPairs pairs)
  | .replace key payload => (tree.find? key, tree.modify key fun _ => payload)

/-- The answer of the same update of a finite map, and the map after it. -/
def updatedMap (map : Finmap fun _ : κ => ν) : Update κ ν → Option ν × Finmap fun _ : κ => ν
  | .insert key payload => (none, map.insert key payload)
  | .remove key => (map.lookup key, map.erase key)
  | .fill pairs => (none, pairs.foldl (fun filled pair => filled.insert pair.1 pair.2) ∅)
  | .replace key payload => (map.lookup key, if key ∈ map then map.insert key payload else map)

/-- The answers of updates, each made to what the one before it left, and what the last one leaves. -/
def updatedInTurn {σ : Type} (step : σ → Update κ ν → Option ν × σ) (state : σ) : List (Update κ ν) → List (Option ν) × σ
  | [] => ([], state)
  | update :: rest =>
    let (answer, after) := step state update
    let (answers, last) := updatedInTurn step after rest
    (answer :: answers, last)

/-- A sound tree agrees with the finite map that has the same payload for every key. -/
structure Agrees (tree : BinaryTree κ ν) (map : Finmap fun _ : κ => ν) : Prop where
  sound : tree.Sound
  find : ∀ key, tree.find? key = map.lookup key

/-- An update gives the same answer on a tree and on the finite map that it agrees with, and leaves a tree and a map that
agree. -/
theorem Agrees.step {tree : BinaryTree κ ν} {map : Finmap fun _ : κ => ν} (h : tree.Agrees map) (update : Update κ ν) :
    (tree.updated update).1 = (updatedMap map update).1 ∧ (tree.updated update).2.Agrees (updatedMap map update).2 := by
  cases update with
  | insert key payload =>
    refine ⟨rfl, h.sound.insert key payload, fun other => ?_⟩
    show (tree.insert key payload).find? other = (map.insert key payload).lookup other
    rw [find?_insert h.sound]
    by_cases heq : other = key
    · rw [if_pos heq, heq, Finmap.lookup_insert]
    · rw [if_neg heq, Finmap.lookup_insert_of_ne map heq, h.find]
  | remove key =>
    refine ⟨(h.sound.remove_eq key).1.trans (h.find key), h.sound.erase key, fun other => ?_⟩
    show (tree.erase key).find? other = (map.erase key).lookup other
    rw [find?_erase h.sound]
    by_cases heq : other = key
    · rw [if_pos heq, heq, Finmap.lookup_erase]
    · rw [if_neg heq, Finmap.lookup_erase_ne heq, h.find]
  | fill pairs =>
    refine ⟨rfl, (ofPairs_eq pairs).1, fun other => ?_⟩
    show (ofPairs pairs).find? other = _
    rw [(ofPairs_eq pairs).1.find?_eq, (ofPairs_eq pairs).2, SearchTree.find?_ofPairs]
    exact (lookup_foldl_insert pairs other).symm
  | replace key payload =>
    refine ⟨h.find key, (h.sound.modify_eq key fun _ => payload).1, fun other => ?_⟩
    show (tree.modify key fun _ => payload).find? other = (if key ∈ map then map.insert key payload else map).lookup other
    rw [find?_modify h.sound, h.find, h.find]
    by_cases hmem : key ∈ map
    · rw [if_pos hmem]
      by_cases heq : other = key
      · obtain ⟨old, hold⟩ := Finmap.mem_iff.mp hmem
        rw [if_pos heq, heq, Finmap.lookup_insert, hold, Option.map_some]
      · rw [if_neg heq, Finmap.lookup_insert_of_ne map heq]
    · rw [if_neg hmem]
      by_cases heq : other = key
      · rw [if_pos heq, heq, Finmap.lookup_eq_none.mpr hmem, Option.map_none]
      · rw [if_neg heq]

/-- Updates in turn give the same answers on a tree and on the finite map that it agrees with, and leave a tree and a map that
agree. -/
theorem Agrees.inTurn (updates : List (Update κ ν)) : ∀ {tree : BinaryTree κ ν} {map : Finmap fun _ : κ => ν},
    tree.Agrees map → (updatedInTurn updated tree updates).1 = (updatedInTurn updatedMap map updates).1 ∧
      (updatedInTurn updated tree updates).2.Agrees (updatedInTurn updatedMap map updates).2 := by
  induction updates with
  | nil => exact fun h => ⟨rfl, h⟩
  | cons update rest ih =>
    intro tree map h
    obtain ⟨hanswer, hafter⟩ := h.step update
    obtain ⟨hanswers, hlast⟩ := ih hafter
    exact ⟨List.cons_eq_cons.mpr ⟨hanswer, hanswers⟩, hlast⟩

/-! ## What agreement shows -/

section

variable {tree : BinaryTree κ ν} {map : Finmap fun _ : κ => ν} (h : tree.Agrees map)

include h

/-- The bindings of the tree are the entries of the map. -/
theorem Agrees.entries : ((tree.toList.map fun binding => (⟨binding.1, binding.2⟩ : Σ _ : κ, ν) : List _) : Multiset _) =
    map.entries := by
  have hpairwise : tree.toList.Pairwise fun a b => a.1 ≠ b.1 := h.sound.ordered.imp SearchTree.ne_of_compare_lt
  have hnodup : (tree.toList.map fun binding => (⟨binding.1, binding.2⟩ : Σ _ : κ, ν)).Nodup := by
    refine List.pairwise_map.mpr (hpairwise.imp fun hne heq => ?_)
    exact hne (congrArg Sigma.fst heq)
  refine (Multiset.Nodup.ext (Multiset.coe_nodup.mpr hnodup) map.nodup_entries).mpr ?_
  rintro ⟨key, payload⟩
  rw [← Finmap.lookup_eq_some_iff, ← h.find, find?_eq_some_iff h.sound, Multiset.mem_coe, List.mem_map]
  constructor
  · rintro ⟨⟨own, value⟩, hmem, heq⟩
    cases heq
    exact hmem
  · intro hmem
    exact ⟨(key, payload), hmem, rfl⟩

/-- A walk from the root comes to every entry of the map once, and to nothing else. -/
theorem Agrees.walk : (((tree.walk tree.root).map fun position =>
    (tree.nodes[position]?).map fun node => (node.key, node.payload) : List _) : Multiset _) =
      map.entries.map fun entry => some (entry.1, entry.2) := by
  obtain ⟨layout, hlaid⟩ := h.sound.laid
  rw [← h.entries, Multiset.map_coe, List.map_map, Multiset.coe_eq_coe, toList, hlaid.shape_eq]
  exact hlaid.bindings_walk

/-- The tree has as many nodes as the map has keys. -/
theorem Agrees.size : tree.size = map.keys.card := by
  have hcard := congrArg Multiset.card h.entries
  rw [Multiset.coe_card, List.length_map, ← h.sound.size_eq] at hcard
  rw [hcard]
  exact (Multiset.card_map Sigma.fst map.entries).symm

/-- The tree is empty where the map is. -/
theorem Agrees.isEmpty : tree.isEmpty = true ↔ map = ∅ := by
  rw [BinaryTree.isEmpty, Array.isEmpty_iff_size_eq_zero, show tree.nodes.size = map.keys.card from h.size, Finset.card_eq_zero]
  constructor
  · intro hkeys
    refine Finmap.ext_lookup fun key => ?_
    rw [Finmap.lookup_empty, Finmap.lookup_eq_none, ← Finmap.mem_keys, hkeys]
    exact Finset.notMem_empty key
  · rintro rfl
    exact Finmap.keys_empty

end

/-- After any updates from nothing the answers are those of the same updates of a finite map, and the tree is that map. To look a
key up and to change its payload in place show the payload that the map has for it, and the position that is found for a key is
that of the node with the key. A walk from the root comes to every position and to every entry of the map once, there are as many
nodes as keys, and a walk from a node comes to the node, then to smaller keys under its left side, then to greater ones under its
right side. -/
theorem updates_act_as_on_map (updates : List (Update κ ν)) :
    let tree := (updatedInTurn updated (empty : BinaryTree κ ν) updates).2
    let map := (updatedInTurn updatedMap (∅ : Finmap fun _ : κ => ν) updates).2
    (updatedInTurn updated (empty : BinaryTree κ ν) updates).1 =
      (updatedInTurn updatedMap (∅ : Finmap fun _ : κ => ν) updates).1 ∧
    (∀ key, tree.find? key = map.lookup key) ∧
    (∀ key position, tree.position? key = some position ↔ (tree.nodes[position]?).map Node.key = some key) ∧
    (∀ key change other, (tree.modify key change).find? other =
      if other = key then (map.lookup key).map change else map.lookup other) ∧
    (tree.walk tree.root).Perm (List.range tree.size) ∧
    (((tree.walk tree.root).map fun position =>
      (tree.nodes[position]?).map fun node => (node.key, node.payload) : List _) : Multiset _) =
        (map.entries.map fun entry => some (entry.1, entry.2)) ∧
    tree.size = map.keys.card ∧
    (tree.isEmpty = true ↔ map = ∅) ∧
    ∀ position node, tree.nodes[position]? = some node →
      tree.walk (some position) = position :: (tree.walk node.left ++ tree.walk node.right) ∧
      (∀ below ∈ tree.walk node.left, ∃ other, tree.nodes[below]? = some other ∧ compare other.key node.key = .lt) ∧
      ∀ above ∈ tree.walk node.right, ∃ other, tree.nodes[above]? = some other ∧ compare node.key other.key = .lt := by
  intro tree map
  have hnothing : (empty : BinaryTree κ ν).Agrees (∅ : Finmap fun _ : κ => ν) := ⟨sound_empty, fun _ => rfl⟩
  obtain ⟨hanswers, h⟩ := hnothing.inTurn updates
  obtain ⟨layout, hlaid⟩ := h.sound.laid
  have hordered : layout.shape.Ordered := hlaid.shape_eq ▸ h.sound.ordered
  refine ⟨hanswers, h.find, fun _ _ => hlaid.position?_eq_some_iff hordered, ?_, hlaid.walk_root_perm, h.walk, h.size,
    h.isEmpty, fun _ _ hnode => ⟨hlaid.walk_node hnode, hlaid.compare_of_mem_walk hordered hnode⟩⟩
  intro key change other
  rw [find?_modify h.sound, h.find, h.find]

/-- Removing a key whose node has two sides, filling with a key given twice and replacing the payload of a missing key. -/
theorem updates_act_as_on_map_refilled :
    Std.TransOrd Value ∧ Std.LawfulEqOrd Value ∧
    (updatedInTurn updated (empty : BinaryTree Value String)
      [.insert (.int 2) "b", .insert (.int 1) "a", .insert (.int 3) "c", .remove (.int 2), .replace (.int 3) "d",
        .fill [(.text "x", "e"), (.int 5, "f"), (.text "x", "g")], .replace (.int 3) "h", .remove (.text "x")]).1 =
      [none, none, none, some "b", some "c", none, none, some "g"] :=
  ⟨inferInstance, inferInstance, (updates_act_as_on_map _).1.trans (by decide)⟩

end BinaryTree

end SqlEngine
