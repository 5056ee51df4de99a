import SqlEngine.Proofs.Index
import SqlEngine.Proofs.Schema
import SqlEngine.Proofs.Table.Slots

/-!
# Indexes in step with the rows

An index is in step with a table (`NamedIndex.InStep`) when it stands on a column of the schema and files exactly the values
that the live rows hold there. A table is consistent when all its indexes are, and every change of it, failing or not,
leaves it so. On a consistent table a lookup through an index gives the live rows that a look at every row would give
(`lookup_eq_ok`).
-/

namespace SqlEngine

namespace Table

/-- The live row at the offset holds the value at the position. -/
def HoldsAt (table : Table) (position offset : Nat) (value : Value) : Prop :=
  ∃ row, table.row? offset = some row ∧ row[position]? = some value

/-- A live row holds one value at a position. -/
theorem HoldsAt.unique {table : Table} {position offset : Nat} {value value' : Value}
    (h : table.HoldsAt position offset value) (h' : table.HoldsAt position offset value') : value = value' := by
  obtain ⟨row, hrow, hvalue⟩ := h
  obtain ⟨row', hrow', hvalue'⟩ := h'
  obtain rfl := Option.some.inj (hrow.symm.trans hrow')
  exact Option.some.inj (hvalue.symm.trans hvalue')

/-- The values to be filed in a new index are those that the live rows hold. -/
theorem mem_valuesAt_iff {table : Table} {position offset : Nat} {value : Value} :
    (offset, value) ∈ table.valuesAt position ↔ table.HoldsAt position offset value := by
  unfold valuesAt HoldsAt
  rw [List.mem_filterMap]
  constructor
  · rintro ⟨offset', _, h⟩
    obtain ⟨row, hrow, h⟩ := Option.bind_eq_some_iff.mp h
    obtain ⟨value', hvalue, heq⟩ := Option.map_eq_some_iff.mp h
    obtain ⟨rfl, rfl⟩ := Prod.mk.inj heq
    exact ⟨row, hrow, hvalue⟩
  · rintro ⟨row, hrow, hvalue⟩
    refine ⟨offset, List.mem_range.mpr (lt_size_of_row? hrow), ?_⟩
    rw [hrow, Option.bind_some, hvalue, Option.map_some]

/-- A stored row adds the value that it holds at a position, if it holds any. -/
theorem holdsAt_of_push {table table' : Table} {row : Row} (h : table'.slots = table.slots.push (some row))
    {position offset : Nat} {value : Value} : table'.HoldsAt position offset value ↔
      offset = table.size ∧ row[position]? = some value ∨ table.HoldsAt position offset value := by
  unfold HoldsAt
  rw [row?_of_push h]
  split
  next heq =>
    subst heq
    simp [row?_size]
  next hne => simp [hne]

/-- Setting a slot changes what is held at its offset, and nothing else. -/
theorem holdsAt_of_set {table table' : Table} {slot : Option Row} {offset : Nat} (hlive : offset < table.size)
    (h : table'.slots = table.slots.setIfInBounds offset slot) {position offset' : Nat} {value : Value} :
    table'.HoldsAt position offset' value ↔
      if offset' = offset then ∃ row, slot = some row ∧ row[position]? = some value
      else table.HoldsAt position offset' value := by
  unfold HoldsAt
  rw [row?_of_set hlive h]
  split <;> rfl

end Table

/-- The index stands on a column of the table's schema and files exactly the values that the live rows hold there. -/
structure NamedIndex.InStep (entry : NamedIndex) (table : Table) : Prop where
  sound : entry.index.Sound
  column : table.schema.columns[entry.position]? = some ⟨entry.index.column, entry.index.type⟩
  files : ∀ value offset, entry.index.Files value offset ↔ table.HoldsAt entry.position offset value

namespace NamedIndex

variable {entry : NamedIndex} {table table' : Table}

/-- An index that files the value of a stored row under its offset stays in step. -/
theorem InStep.onValue_insert (h : entry.InStep table) {row : Row} (hschema : table'.schema = table.schema)
    (hslots : table'.slots = table.slots.push (some row)) :
    (entry.onValue row (·.insert · table.size)).InStep table' := by
  unfold NamedIndex.onValue
  cases hvalue : row[entry.position]? with
  | none =>
    refine ⟨h.sound, hschema ▸ h.column, ?_⟩
    intro value offset
    rw [h.files, Table.holdsAt_of_push hslots, hvalue]
    simp
  | some value =>
    refine ⟨Index.sound_insert h.sound _ _, hschema ▸ h.column, ?_⟩
    intro value' offset
    rw [Index.files_insert_iff h.sound, h.files, Table.holdsAt_of_push hslots, hvalue, Option.some.injEq,
      and_comm (a := value' = value), eq_comm (a := value')]

/-- An index that takes the value of a retired row away from under its offset stays in step. -/
theorem InStep.onValue_erase (h : entry.InStep table) {row : Row} {offset : Nat} (hrow : table.row? offset = some row)
    (hschema : table'.schema = table.schema) (hslots : table'.slots = table.slots.setIfInBounds offset none) :
    (entry.onValue row (·.erase · offset)).InStep table' := by
  have hholds : ∀ value offset', table'.HoldsAt entry.position offset' value ↔
      table.HoldsAt entry.position offset' value ∧ offset' ≠ offset := by
    intro value offset'
    rw [Table.holdsAt_of_set (Table.lt_size_of_row? hrow) hslots]
    split
    next heq => simp [heq]
    next hne => simp [hne]
  unfold NamedIndex.onValue
  cases hvalue : row[entry.position]? with
  | none =>
    refine ⟨h.sound, hschema ▸ h.column, ?_⟩
    intro value offset'
    rw [h.files, hholds, iff_self_and]
    rintro ⟨row', hrow', hvalue'⟩ rfl
    obtain rfl := Option.some.inj (hrow.symm.trans hrow')
    rw [hvalue] at hvalue'
    exact nomatch hvalue'
  | some old =>
    refine ⟨Index.sound_erase h.sound _ _, by simpa [hschema] using h.column, ?_⟩
    intro value offset'
    rw [Index.files_erase_iff h.sound, h.files, hholds]
    refine and_congr_right fun hheld => ?_
    constructor
    · rintro hne rfl
      exact hne ⟨hheld.unique ⟨row, hrow, hvalue⟩, rfl⟩
    · rintro hne ⟨_, heq⟩
      exact hne heq

/-- An index that files a changed value in place of the old one stays in step, and so does one on another column. -/
theorem InStep.refile (h : entry.InStep table) {row : Row} {old value : Value} {offset position : Nat}
    (hrow : table.row? offset = some row) (hold : row[position]? = some old) (hschema : table'.schema = table.schema)
    (hslots : table'.slots = table.slots.setIfInBounds offset (some (row.set position value))) :
    (entry.refile position offset old value).InStep table' := by
  have hlive := Table.lt_size_of_row? hrow
  have hlength : position < row.length := (List.getElem?_eq_some_iff.mp hold).1
  unfold NamedIndex.refile
  split
  next heq =>
    subst heq
    refine ⟨Index.sound_insert (Index.sound_erase h.sound _ _) _ _, by simpa [hschema, Index.insert] using h.column, ?_⟩
    intro value' offset'
    rw [Index.files_insert_iff (Index.sound_erase h.sound _ _), Index.files_erase_iff h.sound, h.files,
      Table.holdsAt_of_set hlive hslots]
    by_cases hoffset : offset' = offset
    · subst hoffset
      have hgone : ¬(table.HoldsAt entry.position offset' value' ∧ ¬(value' = old ∧ offset' = offset')) := by
        rintro ⟨hheld, hne⟩
        exact hne ⟨hheld.unique ⟨row, hrow, hold⟩, rfl⟩
      rw [if_pos rfl, or_iff_left hgone]
      simp [List.getElem?_set_self hlength, eq_comm]
    · simp [hoffset]
  next hne =>
    refine ⟨h.sound, hschema ▸ h.column, ?_⟩
    intro value' offset'
    rw [h.files, Table.holdsAt_of_set hlive hslots]
    split
    next heq =>
      subst heq
      simp [Table.HoldsAt, hrow, List.getElem?_set_ne (Ne.symm hne)]
    next => exact Iff.rfl

end NamedIndex

namespace Table

/-- All indexes of the table are in step with its rows. -/
def Consistent (table : Table) : Prop := ∀ entry ∈ table.indexes, entry.InStep table

/-! ## Every change keeps the indexes in step -/

theorem consistent_empty (name : String) (schema : Schema) : (empty name schema).Consistent := nofun

theorem consistent_appendRow {table : Table} (h : table.Consistent) (row : Row) :
    ((appendRow row).after table).Consistent := by
  rw [after_appendRow]
  intro entry' hentry'
  obtain ⟨entry, hentry, rfl⟩ := List.mem_map.mp hentry'
  exact (h entry hentry).onValue_insert rfl rfl

theorem consistent_changeValue {table : Table} (h : table.Consistent) (offset position : Nat) (value : Value) :
    ((changeValue offset position value).after table).Consistent := by
  rcases changeValue_cases offset position value table with ⟨row, old, _, hrow, hold, _, hafter⟩ | ⟨_, _, hafter⟩
  · rw [hafter]
    intro entry' hentry'
    obtain ⟨entry, hentry, rfl⟩ := List.mem_map.mp hentry'
    exact (h entry hentry).refile hrow hold rfl rfl
  · rw [hafter]
    exact h

/-- A change of a row keeps the indexes in step even where it stops in the middle. -/
theorem consistent_changeRow {table : Table} (h : table.Consistent) (offset : Nat) (changes : List (Nat × Value)) :
    ((changeRow offset changes).after table).Consistent := by
  rw [after_changeRow]
  split
  · exact h
  · refine Action.forM_preserves (P := Consistent) ?_ h
    intro change _ between hbetween
    exact consistent_changeValue hbetween offset change.1 change.2

theorem consistent_retireRow {table : Table} (h : table.Consistent) (offset : Nat) :
    ((retireRow offset).after table).Consistent := by
  rcases retireRow_cases offset table with ⟨row, hrow, _, hafter⟩ | ⟨_, _, hafter⟩
  · rw [hafter]
    intro entry' hentry'
    obtain ⟨entry, hentry, rfl⟩ := List.mem_map.mp hentry'
    exact (h entry hentry).onValue_erase hrow rfl rfl
  · rw [hafter]
    exact h

/-- A new index is in step from the start: it files what the live rows hold. -/
theorem inStep_freshIndex {table table' : Table} {name column : String} {found : Column} {position : Nat}
    (hfind : table.schema.find? column = some (found, position)) (hschema : table'.schema = table.schema)
    (hslots : table'.slots = table.slots) :
    (table.freshIndex name ⟨column, found.type⟩ position).InStep table' := by
  obtain ⟨hcolumn, rfl⟩ := Schema.find?_eq_some_iff.mp hfind
  refine ⟨Index.sound_rebuild _ _, hschema ▸ hcolumn, ?_⟩
  intro value offset
  rw [freshIndex, Index.files_rebuild_iff, mem_valuesAt_iff]
  unfold HoldsAt row?
  rw [hslots]

theorem consistent_createIndex {table : Table} (h : table.Consistent) (name column : String) :
    ((createIndex name column).after table).Consistent := by
  rcases createIndex_cases name column table with ⟨found, position, _, hfind, _, hafter⟩ | ⟨_, _, hafter⟩
  · rw [hafter]
    intro entry hentry
    rcases List.mem_append.mp hentry with hkept | hnew
    · have hstep := h entry (List.mem_filter.mp hkept).1
      exact ⟨hstep.sound, hstep.column, hstep.files⟩
    · rw [List.mem_singleton.mp hnew]
      exact inStep_freshIndex hfind rfl rfl
  · rw [hafter]
    exact h

/-! ## Lookup -/

/-- The index that is kept on a column is one of the table's, and stands on the column. -/
theorem of_indexOn? {table : Table} {column : String} {entry : NamedIndex} (h : table.indexOn? column = some entry) :
    entry ∈ table.indexes ∧ entry.index.column = column := by
  rw [indexOn?] at h
  have hcolumn := List.find?_some h
  exact ⟨List.mem_of_find?_eq_some h, beq_iff_eq.mp hcolumn⟩

/-- Through an index in step a lookup gives the live rows whose value meets the predicate. -/
theorem lookup_eq_ok {table : Table} (h : table.Consistent) {column : String} {entry : NamedIndex} {predicate : Predicate}
    (hentry : table.indexOn? column = some entry) (hlike : predicate.operator ≠ .like)
    (htype : predicate.value.dataType = entry.index.type) :
    ∃ found, table.lookup column predicate = .ok (some found) ∧
      ∀ offset, offset ∈ found ↔
        ∃ value, table.HoldsAt entry.position offset value ∧
          predicate.operator.accepts (compare value predicate.value) = true := by
  have hstep := h entry (of_indexOn? hentry).1
  obtain ⟨found, hfound, hmem⟩ := Index.lookup_eq_ok hstep.sound hlike predicate.value
  refine ⟨found, ?_, ?_⟩
  · simp [lookup, hlike, hentry, htype, hfound, Except.map]
  · intro offset
    simp only [hmem, hstep.files]

end Table

end SqlEngine
