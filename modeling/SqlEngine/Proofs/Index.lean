import SqlEngine.Index
import SqlEngine.Proofs.Offsets
import SqlEngine.Proofs.BinaryTree.Shape

/-!
# What an index files

An index is read as the set of pairs of a value and an offset that it files (`Index.Files`). A sound index has a sound tree and
no value without offsets (`Index.Sound`). Filing, taking away and rebuilding are then the operations on the set of
pairs that their names say, and a lookup gives the offsets of the pairs whose value meets the operator (`lookup_eq_ok`).
-/

namespace SqlEngine

namespace Index

/-- The index files the offset under the value. -/
def Files (index : Index) (value : Value) (offset : Nat) : Prop :=
  ∃ offsets, (value, offsets) ∈ index.tree.toList ∧ offset ∈ offsets

/-- The values of the index form a search tree in order, and something is filed under each of them. -/
structure Sound (index : Index) : Prop where
  tree : index.tree.Sound
  occupied : ∀ binding ∈ index.tree.toList, binding.2.isEmpty = false

/-- The index without anything filed is sound. -/
theorem sound_empty (column : String) (type : DataType) : (empty column type).Sound :=
  ⟨BinaryTree.sound_empty, nofun⟩

theorem not_files_empty (column : String) (type : DataType) (value : Value) (offset : Nat) :
    ¬(empty column type).Files value offset := nofun

/-- What is filed under a value is what the tree finds there. -/
theorem files_iff_mem_filed {index : Index} (h : index.Sound) {value : Value} {offset : Nat} :
    index.Files value offset ↔ offset ∈ index.filed value := by
  unfold Files filed
  cases hfind : index.tree.find? value with
  | none =>
    simp only [Option.getD_none, Offsets.not_mem_empty, iff_false]
    rintro ⟨offsets, hmem, _⟩
    rw [← BinaryTree.find?_eq_some_iff h.tree, hfind] at hmem
    exact nomatch hmem
  | some offsets =>
    simp only [← BinaryTree.find?_eq_some_iff h.tree, hfind, Option.some.injEq, exists_eq_left', Option.getD_some]

/-! ## Filing and taking away -/

/-- Filing an offset adds one pair. -/
theorem files_insert_iff {index : Index} (h : index.Sound) {value value' : Value} {offset offset' : Nat} :
    (index.insert value offset).Files value' offset' ↔
      value' = value ∧ offset' = offset ∨ index.Files value' offset' := by
  unfold Files insert
  simp only [BinaryTree.mem_toList_insert h.tree]
  constructor
  · rintro ⟨offsets, heq | ⟨_, hmem⟩, hoffset⟩
    · obtain ⟨rfl, rfl⟩ := Prod.mk.inj heq
      rcases Offsets.mem_insert.mp hoffset with rfl | hfiled
      · exact Or.inl ⟨rfl, rfl⟩
      · exact Or.inr ((files_iff_mem_filed h).mpr hfiled)
    · exact Or.inr ⟨offsets, hmem, hoffset⟩
  · rintro (⟨rfl, rfl⟩ | hfiles)
    · exact ⟨_, Or.inl rfl, Offsets.mem_insert.mpr (Or.inl rfl)⟩
    · by_cases hvalue : value' = value
      · subst hvalue
        exact ⟨_, Or.inl rfl, Offsets.mem_insert.mpr (Or.inr ((files_iff_mem_filed h).mp hfiles))⟩
      · obtain ⟨offsets, hmem, hoffset⟩ := hfiles
        exact ⟨offsets, Or.inr ⟨hvalue, hmem⟩, hoffset⟩

/-- Filing an offset keeps an index sound. -/
theorem sound_insert {index : Index} (h : index.Sound) (value : Value) (offset : Nat) :
    (index.insert value offset).Sound := by
  refine ⟨h.tree.insert _ _, ?_⟩
  intro binding hbinding
  rcases (BinaryTree.mem_toList_insert h.tree).mp hbinding with rfl | ⟨_, hold⟩
  · exact Offsets.isEmpty_eq_false_of_mem (Offsets.mem_insert.mpr (Or.inl rfl))
  · exact h.occupied binding hold

/-- Taking an offset away removes one pair. -/
theorem files_erase_iff {index : Index} (h : index.Sound) {value value' : Value} {offset offset' : Nat} :
    (index.erase value offset).Files value' offset' ↔
      index.Files value' offset' ∧ ¬(value' = value ∧ offset' = offset) := by
  have hfiled : index.Files value offset' ↔ offset' ∈ index.filed value := files_iff_mem_filed h
  unfold erase
  cases hfind : index.tree.find? value with
  | none =>
    rw [filed, hfind, Option.getD_none] at hfiled
    refine ⟨fun hfiles => ⟨hfiles, ?_⟩, And.left⟩
    rintro ⟨rfl, -⟩
    exact Offsets.not_mem_empty _ (hfiled.mp hfiles)
  | some offsets =>
    rw [filed, hfind, Option.getD_some] at hfiled
    by_cases hvalue : value' = value
    · subst hvalue
      rw [hfiled]
      dsimp only
      split
      next hempty =>
        have hgone := Offsets.not_mem_of_isEmpty hempty offset'
        rw [Offsets.mem_erase] at hgone
        simp only [Files, BinaryTree.mem_toList_erase h.tree, ne_eq, not_true_eq_false, false_and, exists_false,
          true_and, false_iff]
        exact hgone
      next =>
        simp only [Files, BinaryTree.mem_toList_insert h.tree, ne_eq, not_true_eq_false, false_and, or_false,
          Prod.mk.injEq, true_and, exists_eq_left, Offsets.mem_erase]
    · simp only [hvalue, false_and, not_false_eq_true, and_true]
      split
      · simp only [Files, BinaryTree.mem_toList_erase h.tree, ne_eq, hvalue, not_false_eq_true, true_and]
      · simp only [Files, BinaryTree.mem_toList_insert h.tree, ne_eq, hvalue, not_false_eq_true, true_and,
          Prod.mk.injEq, false_and, false_or]

/-- Taking an offset away leaves the column of the index as it is. -/
@[simp] theorem column_erase (index : Index) (value : Value) (offset : Nat) :
    (index.erase value offset).column = index.column := by
  unfold erase
  cases index.tree.find? value with
  | none => rfl
  | some offsets =>
    dsimp only
    split <;> rfl

/-- Taking an offset away leaves the type of the index as it is. -/
@[simp] theorem type_erase (index : Index) (value : Value) (offset : Nat) :
    (index.erase value offset).type = index.type := by
  unfold erase
  cases index.tree.find? value with
  | none => rfl
  | some offsets =>
    dsimp only
    split <;> rfl

/-- Taking an offset away keeps an index sound: the last offset of a value takes the value with it. -/
theorem sound_erase {index : Index} (h : index.Sound) (value : Value) (offset : Nat) :
    (index.erase value offset).Sound := by
  unfold erase
  cases index.tree.find? value with
  | none => exact h
  | some offsets =>
    dsimp only
    split
    next =>
      refine ⟨h.tree.erase value, ?_⟩
      intro binding hbinding
      exact h.occupied binding ((BinaryTree.mem_toList_erase h.tree).mp hbinding).2
    next hremaining =>
      refine ⟨h.tree.insert _ _, ?_⟩
      intro binding hbinding
      rcases (BinaryTree.mem_toList_insert h.tree).mp hbinding with rfl | ⟨_, hold⟩
      · exact Bool.eq_false_iff.mpr hremaining
      · exact h.occupied binding hold

/-! ## Rebuilding -/

/-- Filing pairs one after the other adds the pairs and keeps an index sound. -/
theorem foldl_insert_spec (pairs : List (Nat × Value)) : ∀ {index : Index}, index.Sound →
    (pairs.foldl (fun filed pair => filed.insert pair.2 pair.1) index).Sound ∧
      ∀ value offset, (pairs.foldl (fun filed pair => filed.insert pair.2 pair.1) index).Files value offset ↔
        (offset, value) ∈ pairs ∨ index.Files value offset := by
  induction pairs with
  | nil =>
    intro index h
    exact ⟨h, by simp⟩
  | cons pair rest ih =>
    intro index h
    obtain ⟨hsound, hfiles⟩ := ih (sound_insert h pair.2 pair.1)
    refine ⟨hsound, ?_⟩
    intro value offset
    rw [List.foldl_cons, hfiles, files_insert_iff h, List.mem_cons, Prod.ext_iff, and_comm (a := value = pair.2)]
    exact or_left_comm.trans or_assoc.symm

/-- The tree of a rebuilt index holds what is filed by filing the pairs one after the other. -/
theorem toList_rebuild (index : Index) (pairs : List (Nat × Value)) :
    (index.rebuild pairs).tree.toList =
      (pairs.foldl (fun filed pair => filed.insert pair.2 pair.1) (empty index.column index.type)).tree.toList :=
  BinaryTree.toList_ofPairs_of_ascending (foldl_insert_spec pairs (sound_empty _ _)).1.tree.ordered

/-- A rebuilt index files the given pairs and nothing else. -/
theorem files_rebuild_iff (index : Index) (pairs : List (Nat × Value)) {value : Value} {offset : Nat} :
    (index.rebuild pairs).Files value offset ↔ (offset, value) ∈ pairs := by
  have hfiles := (foldl_insert_spec pairs (sound_empty index.column index.type)).2 value offset
  simp only [not_files_empty, or_false] at hfiles
  rw [← hfiles, Files, Files, toList_rebuild]

/-- A rebuilt index is sound. -/
theorem sound_rebuild (index : Index) (pairs : List (Nat × Value)) : (index.rebuild pairs).Sound := by
  have h := (foldl_insert_spec pairs (sound_empty index.column index.type)).1
  refine ⟨(BinaryTree.ofPairs_eq _).1, ?_⟩
  rw [toList_rebuild]
  exact h.occupied

/-! ## Lookup -/

/-- Lying below a bound is meeting `<`, or `<=` where the bound is included. -/
theorem isBelow_iff_accepts {literal value : Value} {included : Bool} : SearchTree.IsBelow literal included value ↔
    (if included then Operator.le else Operator.lt).accepts (compare value literal) = true := by
  unfold SearchTree.IsBelow
  cases included <;> cases compare value literal <;> decide

/-- Lying above a bound is meeting `>`, or `>=` where the bound is included. -/
theorem isAbove_iff_accepts {literal value : Value} {included : Bool} : SearchTree.IsAbove literal included value ↔
    (if included then Operator.ge else Operator.gt).accepts (compare value literal) = true := by
  unfold SearchTree.IsAbove
  cases included <;> cases compare value literal <;> decide

/-- The sets that a lookup collects are those of the values that meet the operator. -/
theorem mem_matching_iff {index : Index} (h : index.Sound) {operator : Operator} (hlike : operator ≠ .like)
    (literal : Value) : ∃ sets, index.matching operator literal = .ok sets ∧
      ∀ offsets, offsets ∈ sets ↔
        ∃ value, (value, offsets) ∈ index.tree.toList ∧ operator.accepts (compare value literal) = true := by
  have hbelow : ∀ included offsets, offsets ∈ index.tree.payloadsBelow literal included ↔
      ∃ value, (value, offsets) ∈ index.tree.toList ∧
        (if included then Operator.le else Operator.lt).accepts (compare value literal) = true := by
    intro included offsets
    simp only [BinaryTree.mem_payloadsBelow_iff h.tree, isBelow_iff_accepts]
  have habove : ∀ included offsets, offsets ∈ index.tree.payloadsAbove literal included ↔
      ∃ value, (value, offsets) ∈ index.tree.toList ∧
        (if included then Operator.ge else Operator.gt).accepts (compare value literal) = true := by
    intro included offsets
    simp only [BinaryTree.mem_payloadsAbove_iff h.tree, isAbove_iff_accepts]
  cases operator with
  | like => exact absurd rfl hlike
  | gt => exact ⟨_, rfl, habove false⟩
  | ge => exact ⟨_, rfl, habove true⟩
  | lt => exact ⟨_, rfl, hbelow false⟩
  | le => exact ⟨_, rfl, hbelow true⟩
  | eq =>
    refine ⟨_, rfl, ?_⟩
    intro offsets
    rw [Option.mem_toList, BinaryTree.find?_eq_some_iff h.tree]
    simp only [Operator.accepts, Ordering.isEq_iff_eq_eq, Std.LawfulEqOrd.compare_eq_iff_eq, exists_eq_right]
  | ne =>
    refine ⟨_, rfl, ?_⟩
    intro offsets
    rw [List.mem_append, hbelow, habove, ← exists_or]
    refine exists_congr fun value => ?_
    rw [← and_or_left]
    refine and_congr_right fun _ => ?_
    cases compare value literal <;> decide

/-- A lookup gives the offsets that are filed under the values meeting the operator. -/
theorem lookup_eq_ok {index : Index} (h : index.Sound) {operator : Operator} (hlike : operator ≠ .like) (literal : Value) :
    ∃ found, index.lookup operator literal = .ok found ∧
      ∀ offset, offset ∈ found ↔
        ∃ value, index.Files value offset ∧ operator.accepts (compare value literal) = true := by
  obtain ⟨sets, hsets, hmem⟩ := mem_matching_iff h hlike literal
  refine ⟨Offsets.unionAll sets, ?_, ?_⟩
  · rw [lookup, hsets]
    rfl
  · intro offset
    rw [Offsets.mem_unionAll]
    constructor
    · rintro ⟨offsets, hoffsets, hoffset⟩
      obtain ⟨value, hvalue, haccepts⟩ := (hmem offsets).mp hoffsets
      exact ⟨value, ⟨offsets, hvalue, hoffset⟩, haccepts⟩
    · rintro ⟨value, ⟨offsets, hvalue, hoffset⟩, haccepts⟩
      exact ⟨offsets, (hmem offsets).mpr ⟨value, hvalue, haccepts⟩, hoffset⟩

end Index

end SqlEngine
