import SqlEngine.Proofs.Cursor
import SqlEngine.Proofs.Table.Slots

/-!
# Marks of deleted rows

A table keeps twice which of its rows are live: a row that was deleted leaves an empty slot and a mark. The table is marked
when exactly its empty slots have one, and every change, failing or not, leaves it so. On a marked table a cursor hands out the
live offsets (`rest_cursor`), and the slots without a mark are as many (`liveCount_eq_length`).
-/

namespace SqlEngine

namespace Table

/-- Exactly the empty slots are marked as deleted. -/
def Marked (table : Table) : Prop := table.deleted = table.slots.map Option.isNone

/-! ## Every change keeps the marks -/

theorem marked_empty (name : String) (schema : Schema) : (empty name schema).Marked := Array.map_empty.symm

theorem marked_appendRow {table : Table} (h : table.Marked) (row : Row) : ((appendRow row).after table).Marked := by
  rw [after_appendRow]
  show table.deleted.push false = (table.slots.push (some row)).map Option.isNone
  rw [h, Array.map_push, Option.isNone_some]

/-- A change of a value leaves the slot with a row, and without a mark. -/
theorem marked_changeValue {table : Table} (h : table.Marked) (offset position : Nat) (value : Value) :
    ((changeValue offset position value).after table).Marked := by
  rcases changeValue_cases offset position value table with ⟨row, old, -, hrow, -, -, hafter⟩ | ⟨-, -, hafter⟩
  · rw [hafter]
    show table.deleted = (table.slots.setIfInBounds offset (some (row.set position value))).map Option.isNone
    -- The mark that the new row asks for is the one that stands there.
    have hmark : (table.slots.map Option.isNone)[offset]? = some false := by
      rw [Array.getElem?_map, slot_of_row? hrow, Option.map_some, Option.isNone_some]
    obtain ⟨hlt, hget⟩ := Array.getElem?_eq_some_iff.mp hmark
    rw [h, Array.map_setIfInBounds, Option.isNone_some, ← hget, Array.setIfInBounds_def, dif_pos hlt, Array.set_getElem_self]
  · rwa [hafter]

theorem marked_changeRow {table : Table} (h : table.Marked) (offset : Nat) (changes : List (Nat × Value)) :
    ((changeRow offset changes).after table).Marked := by
  rw [after_changeRow]
  split
  · exact h
  · refine Action.forM_preserves (P := Marked) ?_ h
    intro change _ between hbetween
    exact marked_changeValue hbetween offset change.1 change.2

theorem marked_retireRow {table : Table} (h : table.Marked) (offset : Nat) : ((retireRow offset).after table).Marked := by
  rcases retireRow_cases offset table with ⟨row, -, -, hafter⟩ | ⟨-, -, hafter⟩
  · rw [hafter]
    show table.deleted.setIfInBounds offset true = (table.slots.setIfInBounds offset none).map Option.isNone
    rw [h, Array.map_setIfInBounds, Option.isNone_none]
  · rwa [hafter]

theorem marked_createIndex {table : Table} (h : table.Marked) (name column : String) :
    ((createIndex name column).after table).Marked := by
  rcases createIndex_cases name column table with ⟨found, position, -, -, -, hafter⟩ | ⟨-, -, hafter⟩
  · rw [hafter]
    exact h
  · rwa [hafter]

/-! ## What the marks show -/

/-- An offset is live when it has a slot without a mark. -/
theorem mark_eq {table : Table} (h : table.Marked) {offset : Nat} (hlt : offset < table.size) :
    table.deleted.toList[offset]?.getD false = (table.row? offset).isNone := by
  have hslot : table.slots[offset]? = some table.slots[offset] := Array.getElem?_eq_getElem hlt
  rw [Array.getElem?_toList, h, Array.getElem?_map, row?, hslot]
  rfl

/-- The cursor of a table hands out the live offsets in ascending order. -/
theorem rest_cursor {table : Table} (h : table.Marked) :
    table.cursor.rest = (List.range table.size).filter fun offset => (table.row? offset).isSome := by
  rw [cursor, Cursor.rest_new, Nat.sub_zero, ← List.range_eq_range']
  refine List.filter_congr ?_
  intro offset hoffset
  rw [mark_eq h (List.mem_range.mp hoffset), Option.not_isNone]

/-- The slots of a table hold the rows at its offsets. -/
theorem toList_slots (table : Table) : table.slots.toList = (List.range table.size).map table.row? := by
  refine List.ext_getElem? fun offset => ?_
  rw [Array.getElem?_toList, List.getElem?_map]
  by_cases hlt : offset < table.size
  · rw [List.getElem?_range hlt, Option.map_some, row?, Array.getElem?_eq_getElem hlt, Option.getD_some]
  · rw [Array.getElem?_eq_none (Nat.le_of_not_lt hlt), List.getElem?_eq_none (by simpa using hlt), Option.map_none]

/-- There are as many slots without a mark as the cursor hands out offsets. -/
theorem liveCount_eq_length {table : Table} (h : table.Marked) : table.liveCount = table.cursor.rest.length := by
  rw [rest_cursor h, ← List.countP_eq_length_filter, liveCount, h, ← Array.count_toList, Array.toList_map, toList_slots,
    List.count, List.countP_map, List.countP_map]
  exact List.countP_congr fun offset _ => by simp

end Table

end SqlEngine
