import SqlEngine.Condition
import SqlEngine.Cursor
import SqlEngine.Index
import SqlEngine.Outcome
import SqlEngine.Schema

/-!
# Tables

A table stores rows in slots and addresses them by offset. A row keeps its offset for life; deleting it leaves its slot empty for
ever and marks the offset as deleted, and a cursor goes by the marks. Indexes are kept in step with the rows: whatever changes a
row files the change in every index of the table.

Nothing in this module checks a row against the schema. A row may be too short, too long or of the wrong types; an index files
what the row holds at the position of its column, if the row reaches that far.
-/

namespace SqlEngine

/-- An index that is kept in step with the rows, with its name and the position of its column. -/
structure NamedIndex where
  name : String
  position : Nat
  index : Index
  deriving DecidableEq, Repr

/-- A table. `deleted` holds a mark for every slot; a column has at most one index in `indexes`; `retired` holds the names of those
that another one took the place of. -/
structure Table where
  name : String
  schema : Schema
  slots : Array (Option Row)
  deleted : Array Bool
  indexes : List NamedIndex
  retired : List String
  deriving DecidableEq, Repr

namespace NamedIndex

/-- Changes the index by the value that a row holds at its column; a row that does not reach the column changes nothing. -/
def onValue (entry : NamedIndex) (row : Row) (change : Index → Value → Index) : NamedIndex :=
  match row[entry.position]? with
  | some value => { entry with index := change entry.index value }
  | none => entry

/-- Files an offset under another value than before, if the index is on the column at the position. -/
def refile (entry : NamedIndex) (position offset : Nat) (old new : Value) : NamedIndex :=
  if entry.position = position then { entry with index := (entry.index.erase old offset).insert new offset } else entry

end NamedIndex

namespace Table

/-- The table without rows and without indexes. -/
def empty (name : String) (schema : Schema) : Table :=
  { name, schema, slots := #[], deleted := #[], indexes := [], retired := [] }

/-- The number of slots, those of deleted rows included. -/
def size (table : Table) : Nat := table.slots.size

/-- Whether no row was ever stored. -/
def isEmpty (table : Table) : Bool := table.slots.isEmpty

/-- The row at an offset, if it is live. -/
def row? (table : Table) (offset : Nat) : Option Row :=
  (table.slots[offset]?).getD none

/-- A cursor over the offsets that are not marked as deleted. -/
def cursor (table : Table) : Cursor :=
  .new 0 table.size table.deleted.toList

/-- The number of slots that are not marked as deleted. -/
def liveCount (table : Table) : Nat :=
  table.deleted.count false

/-! ## Indexes -/

/-- The index that is kept on a column. -/
def indexOn? (table : Table) (column : String) : Option NamedIndex :=
  table.indexes.find? (fun entry => entry.index.column == column)

/-- The names of all indexes that were created, in ascending order. -/
def indexNames (table : Table) : List String :=
  (table.retired ++ table.indexes.map NamedIndex.name).mergeSort (fun a b => (compare a b).isLE)

/-- The live offsets whose row reaches a position, with the value there. -/
def valuesAt (table : Table) (position : Nat) : List (Nat × Value) :=
  (List.range table.size).filterMap fun offset =>
    (table.row? offset).bind fun row => row[position]?.map (offset, ·)

/-- Creates an index on a column and files all live rows in it. An index that the column has already stays listed, but is kept
no longer. -/
def createIndex (name column : String) : Action Table Unit := do
  let table ← Action.state
  if name ∈ table.indexNames then
    Action.fail (.indexExists name table.name)
  else
    let (found, position) ← table.schema.locate column
    let index := (Index.empty column found.type).rebuild (table.valuesAt position)
    let superseded := (table.indexOn? column).map NamedIndex.name
    Outcome.report (.indexCreated table.name name column index.size index.height superseded)
    Action.put { table with
      indexes := table.indexes.filter (·.index.column != column) ++ [{ name, position, index }]
      retired := table.retired ++ superseded.toList }

/-- The offsets that the index on a column files under the values meeting a predicate. There is no answer where the column has no
index, and none to a wildcard match. -/
def lookup (table : Table) (column : String) (predicate : Predicate) : Except Error (Option Offsets) :=
  if predicate.operator = .like then .ok none
  else match table.indexOn? column with
    | none => .ok none
    | some entry =>
      if predicate.value.dataType ≠ entry.index.type then
        .error (.indexType column entry.index.type predicate.value)
      else
        (entry.index.lookup predicate.operator predicate.value).map some

/-! ## Rows -/

/-- Stores a row in a new slot and gives its offset. -/
def appendRow (row : Row) : Action Table Nat := do
  let table ← Action.state
  let offset := table.size
  Action.put { table with
    slots := table.slots.push (some row)
    deleted := table.deleted.push false
    indexes := table.indexes.map (·.onValue row (·.insert · offset)) }
  Outcome.report (.rowInserted table.name offset)
  return offset

/-- Puts a value in place of the one that the live row at an offset holds at a position. -/
def changeValue (offset position : Nat) (value : Value) : Action Table Unit := do
  let table ← Action.state
  if table.schema.size ≤ position then
    Action.fail (.positionUnknown position)
  else match (table.row? offset).bind (·.replace? position value) with
    | none => Action.fail (.valueMissing offset position)
    | some (old, row) =>
      Action.put { table with
        slots := table.slots.setIfInBounds offset (some row)
        indexes := table.indexes.map (·.refile position offset old value) }

/-- Makes changes to the live row at an offset, one after the other; those before an error stay. -/
def changeRow (offset : Nat) (changes : List (Nat × Value)) : Action Table Unit := do
  let table ← Action.state
  if (table.row? offset).isNone then
    Action.fail (.rowDeleted offset)
  else
    changes.forM fun (position, value) => changeValue offset position value
    Outcome.report (.rowUpdated table.name offset)

/-- Empties the slot of the live row at an offset and marks the offset as deleted. -/
def retireRow (offset : Nat) : Action Table Unit := do
  let table ← Action.state
  match table.row? offset with
  | none => Action.fail (.rowDeleted offset)
  | some row =>
    Action.put { table with
      slots := table.slots.setIfInBounds offset none
      deleted := table.deleted.setIfInBounds offset true
      indexes := table.indexes.map (·.onValue row (·.erase · offset)) }
    Outcome.report (.rowDeleted table.name offset)

end Table

end SqlEngine
