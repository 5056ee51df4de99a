import Mathlib.Data.List.Forall2
import SqlEngine.Proofs.Database.Tables
import SqlEngine.Proofs.Table.Unindexed

/-!
# Indexes do not show

Creating indexes changes how rows are found and nothing else. A database without its indexes (`Database.unindexed`) goes
through the same steps under every other statement as the database with them, and it does not take part in the creation of
an index (`unindexed_run`). So a run of statements and the same run without those that create indexes show the same rows and
report the same errors, statement by statement, and leave the same rows in every table (`trace_without_indexes`).
-/

namespace SqlEngine

namespace Statement

/-- Whether the statement creates an index. -/
def createsIndex : Statement → Bool
  | createIndex _ _ _ => true
  | _ => false

/-- Whether the statement shows the indexes of a table. -/
def showsIndexes : Statement → Bool
  | showIndex _ => true
  | _ => false

end Statement

namespace Database

/-- The database without the indexes of its tables. -/
def unindexed (database : Database) : Database :=
  ⟨database.tables.map Table.unindexed, by rw [List.map_map]; exact database.ascending⟩

/-! ## Finding, putting and taking away -/

theorem table?_unindexed (database : Database) (name : String) :
    database.unindexed.table? name = (database.table? name).map Table.unindexed := by
  rw [table?, unindexed, List.find?_map]
  rfl

theorem tableNames_unindexed (database : Database) : database.unindexed.tableNames = database.tableNames := by
  rw [tableNames, unindexed, List.map_map]
  rfl

theorem map_insertInto_unindexed (table : Table) (tables : List Table) :
    (insertInto table tables).map Table.unindexed = insertInto table.unindexed (tables.map Table.unindexed) := by
  have hname : ∀ table : Table, table.unindexed.name = table.name := fun _ => rfl
  induction tables with
  | nil => rfl
  | cons first rest ih =>
    rw [insertInto, List.map_cons, insertInto, hname, hname, ← ih]
    split
    · rfl
    · split <;> rfl

theorem unindexed_put (database : Database) (table : Table) :
    (database.put table).unindexed = database.unindexed.put table.unindexed :=
  ext (map_insertInto_unindexed table database.tables)

theorem unindexed_erase (database : Database) (name : String) :
    (database.erase name).unindexed = database.unindexed.erase name := by
  refine ext ?_
  show (database.tables.filter _).map _ = (database.tables.map _).filter _
  rw [List.filter_map]
  rfl

/-! ## One statement -/

section

variable {α : Type} {database : Database} {name : String}

/-- What comes of a table does not depend on the indexes of the database if it does not depend on those of the table. -/
theorem onFound_unindexed {next : Table → Except Error α}
    (h : ∀ table, database.table? name = some table → next table = next table.unindexed) :
    database.onFound name next = database.unindexed.onFound name next := by
  unfold onFound
  rw [table?_unindexed]
  cases htable : database.table? name with
  | none => rfl
  | some table => exact h table htable

/-- Acting on a table does not depend on the indexes of the database if the action does not depend on those of the table. -/
theorem commutesAt_onTable {action : Action Table α}
    (h : ∀ table, database.table? name = some table → Action.CommutesAt Table.unindexed action table) :
    Action.CommutesAt unindexed (onTable name action) database := by
  constructor
  · rw [result_onTable, result_onTable]
    exact onFound_unindexed fun table htable => (h table htable).1
  · rw [after_onTable, after_onTable, table?_unindexed]
    cases htable : database.table? name with
    | none => rfl
    | some table =>
      dsimp only [Option.map_some]
      rw [unindexed_put, (h table htable).2]

/-- Reading a table does not depend on the indexes of the database if the reading does not depend on those of the table. -/
theorem commutesAt_fromTable {read : Table → Outcome α}
    (h : ∀ table, database.table? name = some table → (read table).result = (read table.unindexed).result) :
    Action.CommutesAt unindexed (fromTable name read) database := by
  constructor
  · rw [result_fromTable, result_fromTable]
    exact onFound_unindexed h
  · rw [after_fromTable, after_fromTable]

end

variable [Pattern.Compiler]

/-- On a database of sound tables a statement that neither creates nor shows indexes ends in the same without them and does
the same. -/
theorem commutesAt_run {database : Database} (h : database.Sound) {statement : Statement}
    (hcreates : statement.createsIndex = false) (hshows : statement.showsIndexes = false) :
    Action.CommutesAt unindexed (run statement) database := by
  cases statement with
  | createTable name columns =>
    refine Action.CommutesAt.bind ⟨rfl, rfl⟩ fun schema => Action.CommutesAt.bind ?_ fun _ => Action.commutes_pure [] _
    unfold Action.CommutesAt
    rw [result_createTable, result_createTable, after_createTable, after_createTable, Action.after_liftExcept,
      table?_unindexed, Option.isSome_map]
    refine ⟨rfl, ?_⟩
    split
    · rfl
    · exact unindexed_put database _
  | dropTable name =>
    refine Action.CommutesAt.bind ?_ fun _ => Action.commutes_pure [] _
    unfold Action.CommutesAt
    rw [result_dropTable, result_dropTable, after_dropTable, after_dropTable, table?_unindexed, Option.isSome_map]
    refine ⟨rfl, ?_⟩
    split
    · exact unindexed_erase database name
    · rfl
  | createIndex name table column => exact nomatch hcreates
  | insert table row =>
    refine Action.CommutesAt.bind (commutesAt_onTable fun table _ => ?_) fun _ => Action.commutes_pure [] _
    exact Table.commutes_insert row table
  | select query =>
    exact commutesAt_fromTable fun table htable => Table.result_select_unindexed (h.of_table? htable) query
  | update table assignments condition =>
    refine Action.CommutesAt.bind (commutesAt_onTable fun table htable => ?_) fun _ => Action.commutes_pure [] _
    exact Table.commutesAt_update (h.of_table? htable) condition assignments
  | delete table condition =>
    refine Action.CommutesAt.bind (commutesAt_onTable fun table htable => ?_) fun _ => Action.commutes_pure [] _
    exact Table.commutesAt_delete (h.of_table? htable) condition
  | showTables =>
    refine ⟨?_, rfl⟩
    show Except.ok (rowsOfNames database.tableNames) = .ok (rowsOfNames database.unindexed.tableNames)
    rw [tableNames_unindexed]
  | showIndex table => exact nomatch hshows

/-- A statement that creates no index does to a database of sound tables what it does without their indexes. -/
theorem unindexed_run {database : Database} (h : database.Sound) {statement : Statement}
    (hcreates : statement.createsIndex = false) :
    ((run statement).after database).unindexed = (run statement).after database.unindexed := by
  cases hshows : statement.showsIndexes with
  | false => exact (commutesAt_run h hcreates hshows).2
  | true =>
    cases statement with
    | showIndex name => rw [run, after_fromTable, after_fromTable]
    | _ => cases hshows

/-- A statement that creates an index changes nothing but indexes, whether or not it fails. -/
theorem unindexed_run_of_createsIndex (database : Database) {statement : Statement}
    (hcreates : statement.createsIndex = true) : ((run statement).after database).unindexed = database.unindexed := by
  cases statement with
  | createIndex name table column =>
    rw [run, Action.after_bind_pure, after_onTable]
    cases htable : database.table? table with
    | none => rfl
    | some found =>
      dsimp only
      rw [unindexed_put, Table.unindexed_createIndex, ← unindexed_put, put_of_table? htable]
  | _ => cases hcreates

/-! ## Runs -/

/-- A statement of a run, what it ended in, and the database after it. -/
structure Step where
  statement : Statement
  result : Except Error (List Row)
  after : Database

/-- The steps of a run; a statement that fails does not stop those after it. -/
def trace (database : Database) : List Statement → List Step
  | [] => []
  | statement :: rest =>
    { statement, result := (run statement).result database, after := (run statement).after database } ::
      trace ((run statement).after database) rest

/-- The two steps run the same statement, which ends in the same unless it shows indexes, and leave tables of the same names
with the same schemas and the same slots. -/
structure Step.Alike (step step' : Step) : Prop where
  statement : step.statement = step'.statement
  result : step.statement.showsIndexes = false → step.result = step'.result
  tables : ∀ name, (step.after.table? name).map (fun table => (table.schema, table.slots)) =
    (step'.after.table? name).map fun table => (table.schema, table.slots)

/-- The steps of a run from a database of sound tables that create no index, next to those of the run without indexes. -/
theorem trace_unindexed (statements : List Statement) : ∀ {database : Database}, database.Sound →
    List.Forall₂ Step.Alike ((database.trace statements).filter (!·.statement.createsIndex))
      (database.unindexed.trace (statements.filter (!·.createsIndex))) := by
  induction statements with
  | nil => exact fun _ => .nil
  | cons statement rest ih =>
    intro database h
    have hrest := ih (sound_run h statement)
    cases hcreates : statement.createsIndex with
    | true =>
      rw [unindexed_run_of_createsIndex database hcreates] at hrest
      simpa only [trace, List.filter_cons, hcreates, Bool.not_true, Bool.false_eq_true, if_false] using hrest
    | false =>
      have hafter := unindexed_run h hcreates
      rw [hafter] at hrest
      simp only [trace, List.filter_cons, hcreates, Bool.not_false, if_true]
      refine .cons ⟨rfl, fun hshows => (commutesAt_run h hcreates hshows).1, fun name => ?_⟩ hrest
      rw [← hafter, table?_unindexed, Option.map_map]
      rfl

/-- Run from nothing, the statements of a list that create no index, and those alone, end in the same in both runs, step by
step, and leave the same rows and the same empty slots in every table; only what the indexes are is not the same. -/
theorem trace_without_indexes (statements : List Statement) :
    List.Forall₂ Step.Alike ((empty.trace statements).filter (!·.statement.createsIndex))
      (empty.trace (statements.filter (!·.createsIndex))) :=
  trace_unindexed statements sound_empty

end Database

end SqlEngine
