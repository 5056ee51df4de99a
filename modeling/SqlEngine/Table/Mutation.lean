import SqlEngine.Table.Query

/-!
# Checked changes

Inserting, updating and deleting rows as statements do. Each checks everything against the schema before it touches a row, and
finds the rows that it is about before it changes the first of them.
-/

namespace SqlEngine

/-- A value suits a column. -/
def Column.check (column : Column) (value : Value) : Except Error Unit :=
  if value.dataType = column.type then .ok () else .error (.valueType column.name column.type value.dataType)

/-- The change of a row that an assignment is. -/
def Assignment.change (schema : Schema) (assignment : Assignment) : Except Error (Nat × Value) := do
  let (column, position) ← schema.locate assignment.column
  column.check assignment.value
  return (position, assignment.value)

namespace Table

/-- Stores a row that has a value of the right type for every column and no more, and gives its offset. -/
def insert (row : Row) : Action Table Nat := do
  let table ← Action.state
  if row.length ≠ table.schema.size then
    Action.fail (.arity row.length table.name table.schema.size)
  else
    (table.schema.columns.zip row).forM fun (column, value) => column.check value
    appendRow row

variable [Pattern.Compiler]

/-- Makes assignments to the rows of a condition, and gives the number of rows. -/
def update (assignments : List Assignment) (condition : Option Condition) : Action Table Nat := do
  let table ← Action.state
  let changes ← (assignments.mapM (·.change table.schema) : Except Error (List (Nat × Value)))
  table.schema.check condition
  let offsets ← table.resolve condition
  offsets.toList.forM fun offset => changeRow offset changes
  Outcome.report (.rowsUpdated table.name offsets.size)
  return offsets.size

/-- Deletes the rows of a condition, and gives the number of rows. -/
def delete (condition : Option Condition) : Action Table Nat := do
  let table ← Action.state
  table.schema.check condition
  let offsets ← table.resolve condition
  offsets.toList.forM retireRow
  Outcome.report (.rowsDeleted table.name offsets.size)
  return offsets.size

end Table

end SqlEngine
