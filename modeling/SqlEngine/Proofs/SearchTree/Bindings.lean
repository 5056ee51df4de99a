import SqlEngine.SearchTree

/-!
# The bindings of a search tree

A tree is in order when the keys of its bindings ascend from left to right (`SearchTree.Ordered`). On such trees every
operation is what it does to the bindings: `find?_eq_some_iff`, `mem_toList_insert`, `mem_toList_erase`,
`mem_payloadsBelow_iff`, `mem_payloadsAbove_iff` and `toList_ofPairs_of_ascending` say it operation by operation, and
`ordered_insert` and `ordered_erase` that the order stays.
-/

namespace SqlEngine

namespace SearchTree

variable {κ ν : Type}

/-! ## The parts of a tree, without regard to the order of keys -/

@[simp] theorem toList_leaf : (leaf : SearchTree κ ν).toList = [] := rfl

@[simp] theorem toList_node (left right : SearchTree κ ν) (key : κ) (payload : ν) :
    (node left key payload right).toList = left.toList ++ (key, payload) :: right.toList := rfl

/-- The payloads are those of the bindings. -/
theorem payloads_eq_map (tree : SearchTree κ ν) : tree.payloads = tree.toList.map Prod.snd := by
  induction tree with
  | leaf => rfl
  | node left key payload right ihLeft ihRight => simp [payloads, ihLeft, ihRight]

theorem size_eq_length (tree : SearchTree κ ν) : tree.size = tree.toList.length := by
  induction tree with
  | leaf => rfl
  | node left key payload right ihLeft ihRight =>
    rw [size, ihLeft, ihRight, toList_node, List.length_append, List.length_cons]
    omega

/-- Only a leaf has no least binding. -/
theorem popLeast?_eq_none_iff {tree : SearchTree κ ν} : tree.popLeast? = none ↔ tree = leaf := by
  cases tree with
  | leaf => simp [popLeast?]
  | node left key payload right =>
    cases h : left.popLeast? <;> simp [popLeast?, h]

/-- The least binding and the rest of a tree, one after the other, are the bindings of the tree. -/
theorem toList_of_popLeast? {tree rest : SearchTree κ ν} {least : κ × ν} (h : tree.popLeast? = some (least, rest)) :
    tree.toList = least :: rest.toList := by
  induction tree generalizing least rest with
  | leaf => simp [popLeast?] at h
  | node left key payload right ihLeft _ =>
    cases hleft : left.popLeast? with
    | none =>
      simp only [popLeast?, hleft, Option.some.injEq, Prod.mk.injEq] at h
      obtain ⟨rfl, rfl⟩ := h
      rw [popLeast?_eq_none_iff.mp hleft, toList_node, toList_leaf, List.nil_append]
    | some found =>
      obtain ⟨first, others⟩ := found
      simp only [popLeast?, hleft, Option.some.injEq, Prod.mk.injEq] at h
      obtain ⟨rfl, rfl⟩ := h
      rw [toList_node, ihLeft hleft, toList_node, List.cons_append]

/-- Gluing keeps the bindings of both sides. -/
@[simp] theorem toList_glue (left right : SearchTree κ ν) : (glue left right).toList = left.toList ++ right.toList := by
  cases left with
  | leaf => rfl
  | node inner key payload outer =>
    cases hright : right.popLeast? with
    | none =>
      simp only [glue, hright]
      rw [popLeast?_eq_none_iff.mp hright, toList_leaf, List.append_nil]
    | some found =>
      obtain ⟨⟨least, value⟩, rest⟩ := found
      simp only [glue, hright]
      rw [toList_node, toList_of_popLeast? hright]

/-- The balanced tree of a list holds the list. -/
@[simp] theorem toList_balanced (bindings : List (κ × ν)) : (balanced bindings).toList = bindings := by
  induction hlength : bindings.length using Nat.strongRecOn generalizing bindings with
  | ind length ih =>
    have hsplit := List.take_append_drop (bindings.length / 2) bindings
    rw [balanced]
    split
    next hdrop =>
      rw [hdrop, List.append_nil] at hsplit
      have hhalf := congrArg List.length hsplit
      rw [List.length_take] at hhalf
      have hnil : bindings.length = 0 := by omega
      rw [List.length_eq_zero_iff.mp hnil, toList_leaf]
    next key payload after hdrop =>
      have hafter := congrArg List.length hdrop
      rw [List.length_drop, List.length_cons] at hafter
      rw [toList_node, ih _ _ _ rfl, ih _ _ _ rfl, ← hdrop, hsplit]
      · omega
      · rw [List.length_take]
        omega

/-- A payload of a node whose key has a property is that of the node itself or one of a side. -/
theorem exists_mem_node_iff {P : κ → Prop} {left right : SearchTree κ ν} {own : κ} {payload value : ν} :
    (∃ key, (key, value) ∈ (node left own payload right).toList ∧ P key) ↔
      (∃ key, (key, value) ∈ left.toList ∧ P key) ∨ (value = payload ∧ P own) ∨
        ∃ key, (key, value) ∈ right.toList ∧ P key := by
  simp only [toList_node, List.mem_append, List.mem_cons, Prod.mk.injEq, or_and_right, exists_or, and_assoc,
    exists_eq_left]

/-- Where all keys of a tree have a property, the payloads whose key has it are all payloads. -/
theorem exists_mem_iff_of_forall {P : κ → Prop} {tree : SearchTree κ ν} (h : ∀ binding ∈ tree.toList, P binding.1)
    {value : ν} : (∃ key, (key, value) ∈ tree.toList ∧ P key) ↔ value ∈ tree.payloads := by
  rw [payloads_eq_map, List.mem_map]
  constructor
  · rintro ⟨key, hmem, -⟩
    exact ⟨(key, value), hmem, rfl⟩
  · rintro ⟨⟨key, _⟩, hmem, rfl⟩
    exact ⟨key, hmem, h _ hmem⟩

/-- Where no key of a tree has a property, there is no payload whose key has it. -/
theorem not_exists_mem_of_forall {P : κ → Prop} {tree : SearchTree κ ν} (h : ∀ binding ∈ tree.toList, ¬P binding.1)
    {value : ν} : ¬∃ key, (key, value) ∈ tree.toList ∧ P key := by
  rintro ⟨key, hmem, hkey⟩
  exact h _ hmem hkey

/-! ## Order -/

variable [Ord κ]

/-- The keys of the tree ascend from left to right. -/
def Ordered (tree : SearchTree κ ν) : Prop :=
  tree.toList.Pairwise fun a b => compare a.1 b.1 = .lt

theorem ordered_leaf : (leaf : SearchTree κ ν).Ordered := List.Pairwise.nil

/-- A node is in order when its sides are, and its key lies above those of its left side and below those of its right side. -/
theorem ordered_node_iff [Std.TransOrd κ] {left right : SearchTree κ ν} {key : κ} {payload : ν} :
    (node left key payload right).Ordered ↔
      left.Ordered ∧ right.Ordered ∧ (∀ binding ∈ left.toList, compare binding.1 key = .lt) ∧
        ∀ binding ∈ right.toList, compare key binding.1 = .lt := by
  unfold Ordered
  rw [toList_node, List.pairwise_append, List.pairwise_cons]
  constructor
  · rintro ⟨hleft, ⟨habove, hright⟩, hacross⟩
    exact ⟨hleft, hright, fun binding hbinding => hacross binding hbinding _ List.mem_cons_self, habove⟩
  · rintro ⟨hleft, hright, hbelow, habove⟩
    refine ⟨hleft, ⟨habove, hright⟩, fun a ha b hb => ?_⟩
    rcases List.mem_cons.mp hb with rfl | hb
    · exact hbelow a ha
    · exact Std.TransCmp.lt_trans (hbelow a ha) (habove b hb)

/-- Keys that compare as different are different. -/
theorem ne_of_compare_lt [Std.ReflOrd κ] {a b : κ} (h : compare a b = .lt) : a ≠ b := by
  rintro rfl
  rw [Std.ReflOrd.compare_self] at h
  exact nomatch h

section Search

variable [Std.TransOrd κ] [Std.LawfulEqOrd κ]

/-- A key below that of an ordered node is not its key, and not on its right side. -/
theorem Ordered.ne_of_lt {left right : SearchTree κ ν} {key own : κ} {payload : ν}
    (h : (node left own payload right).Ordered) (hlt : compare key own = .lt) :
    own ≠ key ∧ ∀ binding ∈ right.toList, binding.1 ≠ key := by
  obtain ⟨_, _, _, habove⟩ := ordered_node_iff.mp h
  refine ⟨(ne_of_compare_lt hlt).symm, fun binding hbinding => ?_⟩
  exact (ne_of_compare_lt (Std.TransCmp.lt_trans hlt (habove binding hbinding))).symm

/-- A key above that of an ordered node is not its key, and not on its left side. -/
theorem Ordered.ne_of_gt {left right : SearchTree κ ν} {key own : κ} {payload : ν}
    (h : (node left own payload right).Ordered) (hgt : compare key own = .gt) :
    own ≠ key ∧ ∀ binding ∈ left.toList, binding.1 ≠ key := by
  obtain ⟨_, _, hbelow, _⟩ := ordered_node_iff.mp h
  have hlt : compare own key = .lt := Std.OrientedCmp.lt_of_gt hgt
  refine ⟨ne_of_compare_lt hlt, fun binding hbinding => ?_⟩
  exact ne_of_compare_lt (Std.TransCmp.lt_trans (hbelow binding hbinding) hlt)

/-- The key of an ordered node is on neither side of it. -/
theorem Ordered.ne_own {left right : SearchTree κ ν} {own : κ} {payload : ν}
    (h : (node left own payload right).Ordered) :
    (∀ binding ∈ left.toList, binding.1 ≠ own) ∧ ∀ binding ∈ right.toList, binding.1 ≠ own := by
  obtain ⟨_, _, hbelow, habove⟩ := ordered_node_iff.mp h
  exact ⟨fun binding hbinding => ne_of_compare_lt (hbelow binding hbinding),
    fun binding hbinding => (ne_of_compare_lt (habove binding hbinding)).symm⟩

/-- A key is found with a payload exactly when the two are a binding. -/
theorem find?_eq_some_iff {tree : SearchTree κ ν} (h : tree.Ordered) {key : κ} {value : ν} :
    tree.find? key = some value ↔ (key, value) ∈ tree.toList := by
  induction tree with
  | leaf => simp [find?]
  | node left own payload right ihLeft ihRight =>
    obtain ⟨hleft, hright, _, _⟩ := ordered_node_iff.mp h
    simp only [find?, toList_node, List.mem_append, List.mem_cons, Prod.mk.injEq]
    cases hcompare : compare key own with
    | lt =>
      obtain ⟨hown, hothers⟩ := h.ne_of_lt hcompare
      have hfar : (key, value) ∉ right.toList := fun hmem => hothers _ hmem rfl
      simp [ihLeft hleft, hown.symm, hfar]
    | eq =>
      obtain rfl := Std.LawfulEqOrd.eq_of_compare hcompare
      obtain ⟨hbelow, habove⟩ := h.ne_own
      have hnear : (key, value) ∉ left.toList := fun hmem => hbelow _ hmem rfl
      have hfar : (key, value) ∉ right.toList := fun hmem => habove _ hmem rfl
      simp [hnear, hfar, eq_comm]
    | gt =>
      obtain ⟨hown, hothers⟩ := h.ne_of_gt hcompare
      have hnear : (key, value) ∉ left.toList := fun hmem => hothers _ hmem rfl
      simp [ihRight hright, hown.symm, hnear]

/-! ## Change -/

/-- Inserting a binding puts it in place of the one of its key. -/
theorem mem_toList_insert {tree : SearchTree κ ν} (h : tree.Ordered) {key : κ} {value : ν} {binding : κ × ν} :
    binding ∈ (tree.insert key value).toList ↔ binding = (key, value) ∨ binding.1 ≠ key ∧ binding ∈ tree.toList := by
  induction tree with
  | leaf => simp [insert]
  | node left own payload right ihLeft ihRight =>
    obtain ⟨hleft, hright, _, _⟩ := ordered_node_iff.mp h
    unfold insert
    cases hcompare : compare key own with
    | lt =>
      obtain ⟨hown, hothers⟩ := h.ne_of_lt hcompare
      simp only [toList_node, List.mem_append, List.mem_cons, ihLeft hleft]
      grind
    | eq =>
      obtain rfl := Std.LawfulEqOrd.eq_of_compare hcompare
      obtain ⟨hbelow, habove⟩ := h.ne_own
      simp only [toList_node, List.mem_append, List.mem_cons]
      grind
    | gt =>
      obtain ⟨hown, hothers⟩ := h.ne_of_gt hcompare
      simp only [toList_node, List.mem_append, List.mem_cons, ihRight hright]
      grind

/-- Inserting a binding keeps the order. -/
theorem ordered_insert {tree : SearchTree κ ν} (h : tree.Ordered) (key : κ) (value : ν) :
    (tree.insert key value).Ordered := by
  induction tree with
  | leaf => exact ordered_node_iff.mpr ⟨ordered_leaf, ordered_leaf, by simp, by simp⟩
  | node left own payload right ihLeft ihRight =>
    obtain ⟨hleft, hright, hbelow, habove⟩ := ordered_node_iff.mp h
    unfold insert
    cases hcompare : compare key own with
    | lt =>
      refine ordered_node_iff.mpr ⟨ihLeft hleft, hright, fun binding hbinding => ?_, habove⟩
      rcases (mem_toList_insert hleft).mp hbinding with rfl | ⟨_, hbinding⟩
      · exact hcompare
      · exact hbelow binding hbinding
    | eq => exact ordered_node_iff.mpr ⟨hleft, hright, hbelow, habove⟩
    | gt =>
      refine ordered_node_iff.mpr ⟨hleft, ihRight hright, hbelow, fun binding hbinding => ?_⟩
      rcases (mem_toList_insert hright).mp hbinding with rfl | ⟨_, hbinding⟩
      · exact Std.OrientedCmp.lt_of_gt hcompare
      · exact habove binding hbinding

/-- Erasing a key takes its binding away and no other. -/
theorem mem_toList_erase {tree : SearchTree κ ν} (h : tree.Ordered) {key : κ} {binding : κ × ν} :
    binding ∈ (tree.erase key).toList ↔ binding.1 ≠ key ∧ binding ∈ tree.toList := by
  induction tree with
  | leaf => simp [erase]
  | node left own payload right ihLeft ihRight =>
    obtain ⟨hleft, hright, _, _⟩ := ordered_node_iff.mp h
    unfold erase
    cases hcompare : compare key own with
    | lt =>
      obtain ⟨hown, hothers⟩ := h.ne_of_lt hcompare
      simp only [toList_node, List.mem_append, List.mem_cons, ihLeft hleft]
      grind
    | eq =>
      obtain rfl := Std.LawfulEqOrd.eq_of_compare hcompare
      obtain ⟨hbelow, habove⟩ := h.ne_own
      simp only [toList_glue, toList_node, List.mem_append, List.mem_cons]
      grind
    | gt =>
      obtain ⟨hown, hothers⟩ := h.ne_of_gt hcompare
      simp only [toList_node, List.mem_append, List.mem_cons, ihRight hright]
      grind

end Search

/-- Erasing a key leaves the other bindings where they stand. -/
theorem toList_erase_sublist (tree : SearchTree κ ν) (key : κ) : (tree.erase key).toList.Sublist tree.toList := by
  induction tree with
  | leaf => exact List.Sublist.refl _
  | node left own payload right ihLeft ihRight =>
    unfold erase
    cases compare key own with
    | lt => exact ihLeft.append (List.Sublist.refl _)
    | eq =>
      simp only [toList_glue, toList_node]
      exact (List.Sublist.refl _).append (List.sublist_cons_self _ _)
    | gt => exact (List.Sublist.refl _).append (ihRight.cons_cons _)

/-- Erasing a key keeps the order. -/
theorem ordered_erase {tree : SearchTree κ ν} (h : tree.Ordered) (key : κ) : (tree.erase key).Ordered :=
  h.sublist (toList_erase_sublist tree key)

/-- After a change in place the key has the changed payload, and every other key has the payload that it had. -/
theorem find?_modify [Std.LawfulEqOrd κ] [DecidableEq κ] (tree : SearchTree κ ν) (key other : κ) (change : ν → ν) :
    (tree.modify key change).find? other = if other = key then (tree.find? key).map change else tree.find? other := by
  induction tree with
  | leaf => simp [modify, find?]
  | node left own payload right ihLeft ihRight =>
    unfold modify
    by_cases heq : other = key
    · subst heq
      rw [if_pos rfl] at ihLeft ihRight ⊢
      cases hcompare : compare other own with
      | lt => simp only [find?, hcompare, ihLeft]
      | eq => simp only [find?, hcompare, Option.map_some]
      | gt => simp only [find?, hcompare, ihRight]
    · rw [if_neg heq] at ihLeft ihRight ⊢
      cases hcompare : compare key own with
      | lt => simp only [find?, ihLeft]
      | eq =>
        obtain rfl := Std.LawfulEqOrd.eq_of_compare hcompare
        have hne : compare other key ≠ .eq := fun h => heq (Std.LawfulEqOrd.eq_of_compare h)
        unfold find?
        cases hother : compare other key with
        | lt => rfl
        | eq => exact absurd hother hne
        | gt => rfl
      | gt => simp only [find?, ihRight]

/-- A change in place leaves the keys as they are. -/
theorem keys_modify (tree : SearchTree κ ν) (key : κ) (change : ν → ν) :
    (tree.modify key change).toList.map Prod.fst = tree.toList.map Prod.fst := by
  induction tree with
  | leaf => rfl
  | node left own payload right ihLeft ihRight =>
    unfold modify
    cases compare key own with
    | lt => simp [ihLeft]
    | eq => simp
    | gt => simp [ihRight]

/-- A change in place keeps the order. -/
theorem ordered_modify {tree : SearchTree κ ν} (h : tree.Ordered) (key : κ) (change : ν → ν) :
    (tree.modify key change).Ordered := by
  unfold Ordered at h ⊢
  rw [← List.pairwise_map (f := Prod.fst) (R := fun a b => compare a b = .lt)] at h ⊢
  rwa [keys_modify]

/-! ## Ranges -/

/-- The key lies below the bound, or on it where the bound is included. -/
def IsBelow (bound : κ) (included : Bool) (key : κ) : Prop :=
  compare key bound = .lt ∨ included = true ∧ compare key bound = .eq

/-- The key lies above the bound, or on it where the bound is included. -/
def IsAbove (bound : κ) (included : Bool) (key : κ) : Prop :=
  compare key bound = .gt ∨ included = true ∧ compare key bound = .eq

theorem not_isBelow_of_gt {bound key : κ} {included : Bool} (h : compare key bound = .gt) : ¬IsBelow bound included key := by
  simp [IsBelow, h]

theorem not_isAbove_of_lt {bound key : κ} {included : Bool} (h : compare key bound = .lt) : ¬IsAbove bound included key := by
  simp [IsAbove, h]

/-- The bound itself counts as below it, and as above it, where it is included. -/
theorem isBelow_self_iff [Std.ReflOrd κ] {bound : κ} {included : Bool} :
    IsBelow bound included bound ↔ included = true := by
  simp [IsBelow, Std.ReflOrd.compare_self]

theorem isAbove_self_iff [Std.ReflOrd κ] {bound : κ} {included : Bool} :
    IsAbove bound included bound ↔ included = true := by
  simp [IsAbove, Std.ReflOrd.compare_self]

section Ranges

variable [Std.TransOrd κ] [Std.LawfulEqOrd κ]

/-- The payloads below a bound are those of the bindings whose key lies there. -/
theorem mem_payloadsBelow_iff {tree : SearchTree κ ν} (h : tree.Ordered) {bound : κ} {included : Bool} {value : ν} :
    value ∈ tree.payloadsBelow bound included ↔ ∃ key, (key, value) ∈ tree.toList ∧ IsBelow bound included key := by
  induction tree with
  | leaf => simp [payloadsBelow]
  | node left own payload right ihLeft ihRight =>
    obtain ⟨hleft, hright, hbelow, habove⟩ := ordered_node_iff.mp h
    rw [exists_mem_node_iff, payloadsBelow]
    cases hcompare : compare bound own with
    | lt =>
      -- The node and its right side lie above the bound.
      have hown : ¬IsBelow bound included own := not_isBelow_of_gt (Std.OrientedCmp.gt_of_lt hcompare)
      have hfar : ∀ binding ∈ right.toList, ¬IsBelow bound included binding.1 := by
        intro binding hbinding
        exact not_isBelow_of_gt (Std.OrientedCmp.gt_of_lt (Std.TransCmp.lt_trans hcompare (habove _ hbinding)))
      simp only [ihLeft hleft, hown, not_exists_mem_of_forall hfar, and_false, or_false]
    | eq =>
      obtain rfl := Std.LawfulEqOrd.eq_of_compare hcompare
      have hnear : ∀ binding ∈ left.toList, IsBelow bound included binding.1 := fun binding hbinding =>
        Or.inl (hbelow _ hbinding)
      have hfar : ∀ binding ∈ right.toList, ¬IsBelow bound included binding.1 := by
        intro binding hbinding
        exact not_isBelow_of_gt (Std.OrientedCmp.gt_of_lt (habove _ hbinding))
      simp only [exists_mem_iff_of_forall hnear, not_exists_mem_of_forall hfar, isBelow_self_iff, or_false]
      cases included <;> simp
    | gt =>
      -- The left side and the node lie below the bound.
      have hown : compare own bound = .lt := Std.OrientedCmp.lt_of_gt hcompare
      have hnear : ∀ binding ∈ left.toList, IsBelow bound included binding.1 := fun binding hbinding =>
        Or.inl (Std.TransCmp.lt_trans (hbelow _ hbinding) hown)
      have hnode : IsBelow bound included own := Or.inl hown
      simp only [exists_mem_iff_of_forall hnear, hnode, and_true, List.mem_append, List.mem_cons, ihRight hright]

/-- The payloads above a bound are those of the bindings whose key lies there. -/
theorem mem_payloadsAbove_iff {tree : SearchTree κ ν} (h : tree.Ordered) {bound : κ} {included : Bool} {value : ν} :
    value ∈ tree.payloadsAbove bound included ↔ ∃ key, (key, value) ∈ tree.toList ∧ IsAbove bound included key := by
  induction tree with
  | leaf => simp [payloadsAbove]
  | node left own payload right ihLeft ihRight =>
    obtain ⟨hleft, hright, hbelow, habove⟩ := ordered_node_iff.mp h
    rw [exists_mem_node_iff, payloadsAbove]
    cases hcompare : compare bound own with
    | lt =>
      -- The node and its right side lie above the bound.
      have hown : compare own bound = .gt := Std.OrientedCmp.gt_of_lt hcompare
      have hfar : ∀ binding ∈ right.toList, IsAbove bound included binding.1 := fun binding hbinding =>
        Or.inl (Std.OrientedCmp.gt_of_lt (Std.TransCmp.lt_trans hcompare (habove _ hbinding)))
      have hnode : IsAbove bound included own := Or.inl hown
      simp only [exists_mem_iff_of_forall hfar, hnode, and_true, List.mem_append, List.mem_cons, ihLeft hleft]
    | eq =>
      obtain rfl := Std.LawfulEqOrd.eq_of_compare hcompare
      have hnear : ∀ binding ∈ left.toList, ¬IsAbove bound included binding.1 := by
        intro binding hbinding
        exact not_isAbove_of_lt (hbelow _ hbinding)
      have hfar : ∀ binding ∈ right.toList, IsAbove bound included binding.1 := fun binding hbinding =>
        Or.inl (Std.OrientedCmp.gt_of_lt (habove _ hbinding))
      simp only [exists_mem_iff_of_forall hfar, not_exists_mem_of_forall hnear, isAbove_self_iff, false_or]
      cases included <;> simp
    | gt =>
      -- The left side and the node lie below the bound.
      have hown : compare own bound = .lt := Std.OrientedCmp.lt_of_gt hcompare
      have hnear : ∀ binding ∈ left.toList, ¬IsAbove bound included binding.1 := by
        intro binding hbinding
        exact not_isAbove_of_lt (Std.TransCmp.lt_trans (hbelow _ hbinding) hown)
      simp only [ihRight hright, not_isAbove_of_lt hown, not_exists_mem_of_forall hnear, and_false, false_or]

end Ranges

/-! ## Building a tree at a stroke -/

/-- Of neighbours that ascend strictly none is dropped. -/
theorem lastOfEach_of_ascending {bindings : List (κ × ν)} (h : bindings.Pairwise fun a b => compare a.1 b.1 = .lt) :
    lastOfEach bindings = bindings := by
  induction bindings with
  | nil => rfl
  | cons binding rest ih =>
    obtain ⟨hbelow, hrest⟩ := List.pairwise_cons.mp h
    cases rest with
    | nil => rfl
    | cons next others =>
      have hne : compare binding.1 next.1 ≠ .eq := by
        rw [hbelow next List.mem_cons_self]
        exact nofun
      rw [lastOfEach, if_neg hne, ih hrest]

/-- The tree of pairs that ascend strictly holds the pairs, and nothing else. -/
theorem toList_ofPairs_of_ascending {pairs : List (κ × ν)} (h : pairs.Pairwise fun a b => compare a.1 b.1 = .lt) :
    (ofPairs pairs).toList = pairs := by
  have hsorted : pairs.mergeSort (fun a b => (compare a.1 b.1).isLE) = pairs := by
    refine List.mergeSort_of_pairwise (h.imp fun {a b} hlt => ?_)
    rw [hlt]
    rfl
  rw [ofPairs, hsorted, lastOfEach_of_ascending h, toList_balanced]

end SearchTree

end SqlEngine
