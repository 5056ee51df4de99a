import Mathlib.Data.Finset.Card
import SqlEngine.Proofs.Index
import SqlEngine.Proofs.Value

/-!
# Indexes are sets of pairs

A call of an index leaves an index that files the pairs of a value and an offset which the same call of a set of pairs leaves
(`Represents.call`). So after any calls, of values of either type, the index answers every operator but the wildcard match from the
pairs and by the order of values, and it holds as many values as there are in the pairs (`called_answers_from_pairs`).
-/

namespace SqlEngine

namespace Index

/-- A call that changes what an index files. -/
inductive Call where
  /-- Files an offset under a value. -/
  | insert (value : Value) (offset : Nat)
  /-- Takes an offset away from under a value. -/
  | erase (value : Value) (offset : Nat)
  /-- Files the pairs in place of all that was filed. -/
  | rebuild (pairs : List (Nat × Value))
  deriving Repr

/-- The index after a call. -/
def call (index : Index) : Call → Index
  | .insert value offset => index.insert value offset
  | .erase value offset => index.erase value offset
  | .rebuild pairs => index.rebuild pairs

/-- The index after a list of calls. -/
def called (index : Index) (calls : List Call) : Index := calls.foldl call index

/-- The set of pairs of a value and an offset after a call. -/
def Call.onPairs (pairs : Finset (Value × Nat)) : Call → Finset (Value × Nat)
  | insert value offset => Insert.insert (value, offset) pairs
  | erase value offset => pairs.erase (value, offset)
  | rebuild given => (given.map Prod.swap).toFinset

/-- The set of pairs that a list of calls leaves from nothing. -/
def pairsAfter (calls : List Call) : Finset (Value × Nat) := calls.foldl Call.onPairs ∅

/-- A sound index files the pairs of the set and no others. -/
structure Represents (index : Index) (pairs : Finset (Value × Nat)) : Prop where
  sound : index.Sound
  files : ∀ value offset, index.Files value offset ↔ (value, offset) ∈ pairs

/-- A call of an index leaves what the same call of the set of its pairs leaves. -/
theorem Represents.call {index : Index} {pairs : Finset (Value × Nat)} (h : index.Represents pairs) (call : Call) :
    (index.call call).Represents (call.onPairs pairs) := by
  cases call with
  | insert value offset =>
    refine ⟨sound_insert h.sound value offset, fun value' offset' => ?_⟩
    show (index.insert value offset).Files value' offset' ↔ _ ∈ Insert.insert (value, offset) pairs
    rw [files_insert_iff h.sound, h.files, Finset.mem_insert, Prod.mk.injEq]
  | erase value offset =>
    refine ⟨sound_erase h.sound value offset, fun value' offset' => ?_⟩
    show (index.erase value offset).Files value' offset' ↔ _ ∈ pairs.erase (value, offset)
    rw [files_erase_iff h.sound, h.files, Finset.mem_erase, ne_eq, Prod.mk.injEq, and_comm]
  | rebuild given =>
    refine ⟨sound_rebuild index given, fun value' offset' => ?_⟩
    show (index.rebuild given).Files value' offset' ↔ _ ∈ (given.map Prod.swap).toFinset
    rw [files_rebuild_iff, List.mem_toFinset, List.mem_map]
    exact ⟨fun hmem => ⟨_, hmem, rfl⟩, by rintro ⟨⟨_, _⟩, hmem, heq⟩; cases heq; exact hmem⟩

/-- Calls in turn leave an index of the pairs that they leave. -/
theorem Represents.called (calls : List Call) : ∀ {index : Index} {pairs : Finset (Value × Nat)}, index.Represents pairs →
    (index.called calls).Represents (calls.foldl Call.onPairs pairs) := by
  induction calls with
  | nil => exact id
  | cons call rest ih => exact fun h => ih (h.call call)

/-- An index without anything filed is that of no pairs. -/
theorem represents_empty (column : String) (type : DataType) : (empty column type).Represents ∅ :=
  ⟨sound_empty column type, fun value offset => iff_of_false (not_files_empty column type value offset) (Finset.notMem_empty _)⟩

/-- A value stands in the tree exactly if some offset is filed under it. -/
theorem mem_values_iff {index : Index} (h : index.Sound) {value : Value} :
    value ∈ index.tree.toList.map Prod.fst ↔ ∃ offset, index.Files value offset := by
  rw [List.mem_map]
  constructor
  · rintro ⟨⟨value, offsets⟩, hmem, rfl⟩
    obtain ⟨offset, hoffset⟩ := List.exists_mem_of_ne_nil _ (List.isEmpty_eq_false_iff.mp (h.occupied _ hmem))
    exact ⟨offset, offsets, hmem, hoffset⟩
  · rintro ⟨offset, offsets, hmem, -⟩
    exact ⟨(value, offsets), hmem, rfl⟩

/-- An index holds each value of its pairs once. -/
theorem Represents.size_eq {index : Index} {pairs : Finset (Value × Nat)} (h : index.Represents pairs) :
    index.size = (pairs.image Prod.fst).card := by
  have hnodup : (index.tree.toList.map Prod.fst).Nodup :=
    List.pairwise_map.mpr (h.sound.tree.ordered.imp SearchTree.ne_of_compare_lt)
  have hvalues : (index.tree.toList.map Prod.fst).toFinset = pairs.image Prod.fst := by
    ext value
    simp only [List.mem_toFinset, mem_values_iff h.sound, h.files, Finset.mem_image, Prod.exists, exists_and_right, exists_eq_right]
  rw [← hvalues, List.toFinset_card_of_nodup hnodup, List.length_map]
  exact h.sound.tree.size_eq

/-- After any calls, an index answers from the pairs that the calls leave: for every operator but the wildcard match and every
literal, with the offsets of the pairs whose value stands to the literal as the operator says in the order of values; the wildcard
match it does not support. It holds as many values as the pairs do, each with some offset. -/
theorem called_answers_from_pairs (column : String) (type : DataType) (calls : List Call) :
    let index := (empty column type).called calls
    let pairs := pairsAfter calls
    (∀ operator literal, operator ≠ .like → ∃ found, index.lookup operator literal = .ok found ∧
      ∀ offset, offset ∈ found ↔ ∃ value, (value, offset) ∈ pairs ∧ operator.Meets value literal) ∧
    (∀ literal, ∃ cause, index.lookup .like literal = .error cause ∧ cause.kind = .operatorUnsupported) ∧
    index.size = (pairs.image Prod.fst).card ∧
    ∀ binding ∈ index.tree.toList, binding.2.isEmpty = false := by
  intro index pairs
  have h : index.Represents pairs := (represents_empty column type).called calls
  refine ⟨fun operator literal hlike => ?_, fun literal => ⟨.lookupUnsupported .like, rfl, rfl⟩, h.size_eq, h.sound.occupied⟩
  obtain ⟨found, hfound, hmem⟩ := lookup_eq_ok h.sound hlike literal
  refine ⟨found, hfound, fun offset => ?_⟩
  simp only [hmem, h.files, Operator.accepts_iff_meets]

end Index

end SqlEngine
