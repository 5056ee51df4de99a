import SqlEngine.Table
import SqlEngine.Proofs.Outcome

/-!
# What a change does to a table

Every unchecked change of a table either does one thing to it or fails and leaves it alone: `changeValue_cases`,
`retireRow_cases` and `createIndex_cases` say for each of them when it does which. The rows are read off the slots alone
(`row?_of_push`, `row?_of_set`), and no change touches the name or the schema (`SameHeading`).
-/

namespace SqlEngine

namespace Table

/-! ## Rows and slots -/

/-- Storing a row in a new slot adds the row at the end. -/
theorem row?_of_push {table table' : Table} {row : Row} (h : table'.slots = table.slots.push (some row)) (offset : Nat) :
    table'.row? offset = if offset = table.size then some row else table.row? offset := by
  rw [row?, h, Array.getElem?_push, row?, size]
  split
  · rfl
  · rfl

/-- A row that is live stands in its slot. -/
theorem slot_of_row? {table : Table} {offset : Nat} {row : Row} (h : table.row? offset = some row) :
    table.slots[offset]? = some (some row) := by
  rw [row?] at h
  cases hslot : table.slots[offset]? with
  | none => simp [hslot] at h
  | some slot =>
    rw [hslot, Option.getD_some] at h
    rw [h]

/-- A row that is live has a slot. -/
theorem lt_size_of_row? {table : Table} {offset : Nat} {row : Row} (h : table.row? offset = some row) :
    offset < table.size :=
  (Array.getElem?_eq_some_iff.mp (slot_of_row? h)).1

/-- No row stands at the offset that the next row will get. -/
theorem row?_size (table : Table) : table.row? table.size = none := by
  rw [row?, size, Array.getElem?_eq_none (Nat.le_refl _), Option.getD_none]

/-- Setting a slot changes what stands at its offset, and nothing else. -/
theorem row?_of_set {table table' : Table} {slot : Option Row} {offset : Nat} (hlive : offset < table.size)
    (h : table'.slots = table.slots.setIfInBounds offset slot) (offset' : Nat) :
    table'.row? offset' = if offset' = offset then slot else table.row? offset' := by
  rw [row?, h, row?]
  by_cases heq : offset' = offset
  · subst heq
    rw [Array.getElem?_setIfInBounds_self_of_lt hlive, if_pos rfl, Option.getD_some]
  · rw [Array.getElem?_setIfInBounds_ne (Ne.symm heq), if_neg heq]

/-! ## What each change does -/

/-- Changing a value puts it into the row and refiles it, or fails and leaves the table alone. -/
theorem changeValue_cases (offset position : Nat) (value : Value) (table : Table) :
    (∃ row old, position < table.schema.size ∧ table.row? offset = some row ∧ row[position]? = some old ∧
      (changeValue offset position value).result table = .ok () ∧
      (changeValue offset position value).after table =
        { table with
          slots := table.slots.setIfInBounds offset (some (row.set position value))
          indexes := table.indexes.map (·.refile position offset old value) }) ∨
    ((table.schema.size ≤ position ∨ (table.row? offset).bind (·[position]?) = none) ∧
      (∃ cause, (changeValue offset position value).result table = .error cause) ∧
      (changeValue offset position value).after table = table) := by
  unfold changeValue
  by_cases hposition : table.schema.size ≤ position
  · right
    refine ⟨Or.inl hposition, ⟨.positionUnknown position, ?_⟩, ?_⟩
    · simp [hposition]
    · simp [Action.after_bind, hposition]
  · cases hrow : table.row? offset with
    | none =>
      right
      refine ⟨Or.inr rfl, ⟨.valueMissing offset position, ?_⟩, ?_⟩
      · simp [hposition, hrow]
      · simp [Action.after_bind, hposition, hrow]
    | some row =>
      cases hold : row[position]? with
      | none =>
        right
        refine ⟨Or.inr (by simp [hold]), ⟨.valueMissing offset position, ?_⟩, ?_⟩
        · simp [hposition, hrow, Row.replace?, hold]
        · simp [Action.after_bind, hposition, hrow, Row.replace?, hold]
      | some old =>
        left
        refine ⟨row, old, Nat.lt_of_not_le hposition, rfl, hold, ?_, ?_⟩
        · simp [hposition, hrow, Row.replace?, hold]
        · simp [Action.after_bind, hposition, hrow, Row.replace?, hold]

theorem result_appendRow (row : Row) (table : Table) : (appendRow row).result table = .ok table.size := rfl

/-- Storing a row puts it into a new slot without a mark and files it. -/
theorem after_appendRow (row : Row) (table : Table) : (appendRow row).after table =
    { table with
      slots := table.slots.push (some row)
      deleted := table.deleted.push false
      indexes := table.indexes.map (·.onValue row (·.insert · table.size)) } := rfl

/-- Changing a row makes the changes one after the other where a live row stands, and fails where none does. -/
theorem result_changeRow (offset : Nat) (changes : List (Nat × Value)) (table : Table) :
    (changeRow offset changes).result table =
      if (table.row? offset).isNone then .error (.rowDeleted offset)
      else (forM changes fun change => changeValue offset change.1 change.2).result table := by
  unfold changeRow
  rw [Action.result_state_bind]
  split
  · rfl
  · rw [Action.result_bind, List.forM_eq_forM]
    cases (forM changes fun change => changeValue offset change.1 change.2).result table <;> rfl

/-- What a change of a row leaves is what its changes leave. -/
theorem after_changeRow (offset : Nat) (changes : List (Nat × Value)) (table : Table) :
    (changeRow offset changes).after table =
      if (table.row? offset).isNone then table
      else (forM changes fun change => changeValue offset change.1 change.2).after table := by
  unfold changeRow
  rw [Action.after_state_bind]
  split
  · rfl
  · rw [Action.after_bind]
    split <;> rfl

/-- Retiring a row empties its slot, marks it and takes it out of the indexes, or fails and leaves the table alone. -/
theorem retireRow_cases (offset : Nat) (table : Table) :
    (∃ row, table.row? offset = some row ∧ (retireRow offset).result table = .ok () ∧
      (retireRow offset).after table =
        { table with
          slots := table.slots.setIfInBounds offset none
          deleted := table.deleted.setIfInBounds offset true
          indexes := table.indexes.map (·.onValue row (·.erase · offset)) }) ∨
    (table.row? offset = none ∧ (retireRow offset).result table = .error (.rowDeleted offset) ∧
      (retireRow offset).after table = table) := by
  unfold retireRow
  cases hrow : table.row? offset with
  | none =>
    right
    refine ⟨rfl, ?_, ?_⟩
    · simp [hrow]
    · simp [Action.after_bind, hrow]
  | some row =>
    left
    refine ⟨row, rfl, ?_, ?_⟩
    · simp [hrow]
    · simp [Action.after_bind, hrow]

/-- The index that would be created on a column found in the schema, with all live rows filed in it. -/
def freshIndex (table : Table) (name : String) (column : Column) (position : Nat) : NamedIndex :=
  { name, position, index := (Index.empty column.name column.type).rebuild (table.valuesAt position) }

/-- Creating an index asks for a new name and a column of the schema. -/
theorem result_createIndex (name column : String) (table : Table) : (createIndex name column).result table =
    if name ∈ table.indexNames then .error (.indexExists name table.name)
    else table.schema.locate column >>= fun _ => .ok () := by
  unfold createIndex
  rw [Action.result_state_bind]
  split
  · rfl
  · rw [Action.result_bind, Action.result_liftExcept]
    cases table.schema.locate column <;> rfl

/-- Creating an index puts it in place of the one on its column, or fails and leaves the table alone. -/
theorem createIndex_cases (name column : String) (table : Table) :
    (∃ found position, name ∉ table.indexNames ∧ table.schema.find? column = some (found, position) ∧
      (createIndex name column).result table = .ok () ∧
      (createIndex name column).after table =
        { table with
          indexes := table.indexes.filter (·.index.column != column) ++ [table.freshIndex name ⟨column, found.type⟩ position]
          retired := table.retired ++ ((table.indexOn? column).map NamedIndex.name).toList }) ∨
    ((name ∈ table.indexNames ∨ table.schema.find? column = none) ∧
      (∃ cause, (createIndex name column).result table = .error cause) ∧
      (createIndex name column).after table = table) := by
  unfold createIndex
  by_cases hname : name ∈ table.indexNames
  · right
    refine ⟨Or.inl hname, ⟨.indexExists name table.name, ?_⟩, ?_⟩
    · simp [hname]
    · simp [Action.after_bind, hname]
  · cases hfind : table.schema.find? column with
    | none =>
      right
      refine ⟨Or.inr rfl, ⟨.columnUnknown column, ?_⟩, ?_⟩
      · simp [hname, Schema.locate, hfind]
      · simp [Action.after_bind, hname, Schema.locate, hfind]
    | some found =>
      left
      refine ⟨found.1, found.2, hname, rfl, ?_, ?_⟩
      · simp [hname, Schema.locate, hfind]
      · simp [Action.after_bind, hname, Schema.locate, hfind]
        rfl

/-! ## What no change touches -/

/-- The two tables have the same name and the same schema. -/
def SameHeading (table table' : Table) : Prop := table'.name = table.name ∧ table'.schema = table.schema

theorem SameHeading.refl (table : Table) : table.SameHeading table := ⟨rfl, rfl⟩

theorem SameHeading.trans {table table' table'' : Table} (h : table.SameHeading table')
    (h' : table'.SameHeading table'') : table.SameHeading table'' :=
  ⟨h'.1.trans h.1, h'.2.trans h.2⟩

theorem sameHeading_appendRow (row : Row) (table : Table) : table.SameHeading ((appendRow row).after table) := ⟨rfl, rfl⟩

theorem sameHeading_changeRow (offset : Nat) (changes : List (Nat × Value)) (table : Table) :
    table.SameHeading ((changeRow offset changes).after table) := by
  rw [after_changeRow]
  split
  · exact SameHeading.refl table
  · refine Action.forM_preserves ?_ (SameHeading.refl table)
    intro change _ between hbetween
    rcases changeValue_cases offset change.1 change.2 between with ⟨row, old, _, _, _, _, hafter⟩ | ⟨_, _, hafter⟩
    · rw [hafter]
      exact hbetween
    · rw [hafter]
      exact hbetween

theorem sameHeading_retireRow (offset : Nat) (table : Table) : table.SameHeading ((retireRow offset).after table) := by
  rcases retireRow_cases offset table with ⟨row, _, _, hafter⟩ | ⟨_, _, hafter⟩
  · rw [hafter]
    exact SameHeading.refl table
  · rw [hafter]
    exact SameHeading.refl table

theorem sameHeading_createIndex (name column : String) (table : Table) :
    table.SameHeading ((createIndex name column).after table) := by
  rcases createIndex_cases name column table with ⟨found, position, _, _, _, hafter⟩ | ⟨_, _, hafter⟩
  · rw [hafter]
    exact SameHeading.refl table
  · rw [hafter]
    exact SameHeading.refl table

end Table

end SqlEngine
