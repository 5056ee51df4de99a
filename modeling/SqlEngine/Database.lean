import SqlEngine.Statement.Reader
import SqlEngine.Table.Mutation

/-!
# Databases

A database is a set of tables with different names, kept in the order of their names. `Database.run` runs one statement, and
`Database.runScript` reads all statements of a text before it runs the first.
-/

namespace SqlEngine

/-- Tables in ascending order of their names. -/
structure Database where
  tables : List Table
  ascending : (tables.map Table.name).Pairwise (· < ·)
  deriving DecidableEq, Repr

namespace Database

/-- The database without tables. -/
def empty : Database := ⟨[], .nil⟩

/-- The table of a name. -/
def table? (database : Database) (name : String) : Option Table :=
  database.tables.find? (fun table => table.name == name)

/-- The names of all tables, in ascending order. -/
def tableNames (database : Database) : List String :=
  database.tables.map Table.name

/-- A list of tables with one more in its place, which takes the place of a table of its name. -/
def insertInto (table : Table) : List Table → List Table
  | [] => [table]
  | first :: rest =>
    if table.name < first.name then table :: first :: rest
    else if table.name = first.name then table :: rest
    else first :: insertInto table rest

theorem mem_names_insertInto {table : Table} {tables : List Table} {name : String} :
    name ∈ (insertInto table tables).map Table.name ↔ name = table.name ∨ name ∈ tables.map Table.name := by
  induction tables with
  | nil => simp [insertInto]
  | cons first rest ih =>
    unfold insertInto
    split
    · simp only [List.map_cons, List.mem_cons]
    · split
      · next heq => simp only [List.map_cons, List.mem_cons, heq, or_self_left]
      · rw [List.map_cons, List.mem_cons, ih, List.map_cons, List.mem_cons]
        exact or_left_comm

theorem ascending_insertInto {table : Table} {tables : List Table} (h : (tables.map Table.name).Pairwise (· < ·)) :
    ((insertInto table tables).map Table.name).Pairwise (· < ·) := by
  induction tables with
  | nil => simp [insertInto]
  | cons first rest ih =>
    rw [List.map_cons, List.pairwise_cons] at h
    unfold insertInto
    split
    · next hlt =>
      rw [List.map_cons, List.map_cons, List.pairwise_cons, List.pairwise_cons]
      refine ⟨fun name hname => ?_, h⟩
      rcases List.mem_cons.mp hname with rfl | hrest
      · exact hlt
      · exact String.lt_trans hlt (h.1 name hrest)
    · next hlt =>
      split
      · next heq =>
        rw [List.map_cons, List.pairwise_cons, heq]
        exact h
      · next hne =>
        rw [List.map_cons, List.pairwise_cons]
        refine ⟨fun name hname => ?_, ih h.2⟩
        rcases mem_names_insertInto.mp hname with rfl | hrest
        · exact Std.lt_of_le_of_ne (String.not_lt.mp hlt) (Ne.symm hne)
        · exact h.1 name hrest

/-- The database with a table, in place of the table of its name if there is one. -/
def put (database : Database) (table : Table) : Database :=
  ⟨insertInto table database.tables, ascending_insertInto database.ascending⟩

/-- The database without the table of a name. -/
def erase (database : Database) (name : String) : Database :=
  ⟨database.tables.filter (·.name != name), database.ascending.sublist (List.filter_sublist.map Table.name)⟩

/-- Creates a table without rows. -/
def createTable (name : String) (schema : Schema) : Action Database Unit := do
  let database ← Action.state
  if (database.table? name).isSome then
    Action.fail (.tableExists name)
  else
    Outcome.report (.tableCreated name schema.size)
    Action.put (database.put (.empty name schema))

/-- Drops a table with its rows and its indexes. -/
def dropTable (name : String) : Action Database Unit := do
  let database ← Action.state
  if (database.table? name).isSome then
    Action.put (database.erase name)
    Outcome.report (.tableDropped name)
  else
    Action.fail (.tableUnknown name)

/-- Acts on the table of a name. -/
def onTable {α : Type} (name : String) (action : Action Table α) : Action Database α := fun database =>
  match database.table? name with
  | none => Action.fail (.tableUnknown name) database
  | some table =>
    let (outcome, after) := action table
    (outcome, database.put after)

/-- Reads the table of a name. -/
def fromTable {α : Type} (name : String) (read : Table → Outcome α) : Action Database α := fun database =>
  match database.table? name with
  | none => Action.fail (.tableUnknown name) database
  | some table => (read table, database)

/-- One row of one column for every name. -/
def rowsOfNames (names : List String) : List Row :=
  names.map fun name => [.text name]

variable [Pattern.Compiler]

/-- Runs a statement and gives the rows that it shows; only queries and lists show any. -/
def run : Statement → Action Database (List Row)
  | .createTable name columns => do
    let schema ← Schema.ofColumns columns
    createTable name schema
    return []
  | .dropTable name => do
    dropTable name
    return []
  | .createIndex name table column => do
    onTable table (Table.createIndex name column)
    return []
  | .insert table row => do
    let _ ← onTable table (Table.insert row)
    return []
  | .select query => fromTable query.table (·.select query)
  | .update table assignments condition => do
    let _ ← onTable table (Table.update assignments condition)
    return []
  | .delete table condition => do
    let _ ← onTable table (Table.delete condition)
    return []
  | .showTables => return rowsOfNames (← Action.state).tableNames
  | .showIndex table => fromTable table fun table => return rowsOfNames table.indexNames

/-- Runs the one statement that a text is. -/
def runText (text : String) : Action Database (List Row) := do
  let statement ← (Statement.ofText text).mapError Error.parse
  run statement

/-- Runs the statements of a text up to the first that fails, and gives the rows that each one shows. -/
def runScript (text : String) : Action Database (List (List Row)) := do
  let script ← (Script.ofText text).mapError Error.parse
  script.mapM run

end Database

end SqlEngine
