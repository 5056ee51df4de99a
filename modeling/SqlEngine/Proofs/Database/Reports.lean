import SqlEngine.Proofs.Database.Failure

/-!
# Which errors statements end in

Some errors tell that the engine is out of step with itself: an offset without a row, a row that ends before its column, an
index asked what it does not answer. On a database of sound tables no statement ends in one of them (`reported_run`):
whatever fails, fails in a check of the statement against the tables as they are.
-/

namespace SqlEngine

open ExceptAux

/-- The error is about the statement, not about the engine. -/
def Error.Reported (cause : Error) : Prop :=
  cause.kind ≠ .consistency ∧ cause.kind ≠ .operatorUnsupported

/-- An error of another kind is about the statement. -/
theorem Error.reported_of_kind {cause : Error} (kind : ErrorKind) (h : cause.kind = kind)
    (hkind : kind ≠ .consistency ∧ kind ≠ .operatorUnsupported) : cause.Reported := by
  rw [Error.Reported, h]
  exact hkind

/-! ## Checks -/

namespace Schema

variable (schema : Schema)

theorem reported_locate (name : String) : FailsOnly Error.Reported (schema.locate name) := by
  unfold locate
  cases schema.find? name with
  | none => exact FailsOnly.error (Error.reported_of_kind .schema rfl (by decide))
  | some entry => exact FailsOnly.ok entry

theorem reported_position (name : String) : FailsOnly Error.Reported (schema.position name) :=
  (schema.reported_locate name).map Prod.snd

end Schema

theorem Column.reported_check (column : Column) (value : Value) : FailsOnly Error.Reported (column.check value) := by
  unfold Column.check
  split
  · exact FailsOnly.ok ()
  · exact FailsOnly.error (Error.reported_of_kind .typeMismatch rfl (by decide))

theorem Predicate.reported_check (schema : Schema) (predicate : Predicate) :
    FailsOnly Error.Reported (predicate.check schema) := by
  unfold Predicate.check
  refine (schema.reported_locate predicate.column).bind fun entry _ => ?_
  dsimp only
  split
  · exact FailsOnly.error (Error.reported_of_kind .typeMismatch rfl (by decide))
  · split
    · exact FailsOnly.error (Error.reported_of_kind .typeMismatch rfl (by decide))
    · split
      · exact FailsOnly.error (Error.reported_of_kind .typeMismatch rfl (by decide))
      · exact FailsOnly.ok ()

theorem Predicate.reported_prepare [Pattern.Compiler] (predicate : Predicate) : FailsOnly Error.Reported predicate.prepare := by
  refine FailsOnly.map ?_ _
  unfold Predicate.valueTest
  split
  · cases Pattern.compile _ with
    | error cause => exact FailsOnly.error (Error.reported_of_kind .parse rfl (by decide))
    | ok pattern => exact FailsOnly.ok _
  · exact FailsOnly.ok _
  · exact FailsOnly.ok _

theorem Condition.reported_prepare [Pattern.Compiler] (condition : Option Condition) :
    FailsOnly Error.Reported (condition.forM Condition.prepare) := by
  cases condition with
  | none => exact FailsOnly.ok ()
  | some condition => exact FailsOnly.forM_of_each fun predicate _ => predicate.reported_prepare

namespace Schema

variable (schema : Schema)

theorem reported_check (condition : Option Condition) : FailsOnly Error.Reported (schema.check condition) := by
  cases condition with
  | none => exact FailsOnly.ok ()
  | some condition =>
    rw [check, Condition.check_eq_forM]
    exact FailsOnly.forM_of_each fun predicate _ => predicate.reported_check schema

theorem reported_ready [Pattern.Compiler] (condition : Option Condition) : FailsOnly Error.Reported (schema.ready condition) :=
  (schema.reported_check condition).bind fun _ _ => Condition.reported_prepare condition

theorem reported_checkRow (table : String) (row : Row) : FailsOnly Error.Reported (schema.checkRow table row) := by
  unfold checkRow
  split
  · exact FailsOnly.error (Error.reported_of_kind .schema rfl (by decide))
  · exact FailsOnly.forM_of_each fun entry _ => entry.1.reported_check entry.2

theorem reported_changes [Pattern.Compiler] (assignments : List Assignment) (condition : Option Condition) :
    FailsOnly Error.Reported (schema.changes assignments condition) := by
  refine FailsOnly.bind (FailsOnly.mapM_of_each fun assignment _ => ?_) fun changes _ => ?_
  · refine (schema.reported_locate assignment.column).bind fun entry _ => ?_
    exact (entry.1.reported_check assignment.value).bind fun _ _ => FailsOnly.ok _
  · exact (schema.reported_ready condition).bind fun _ _ => FailsOnly.ok changes

theorem reported_projected (projection : Projection) : FailsOnly Error.Reported (schema.projected projection) := by
  cases projection with
  | all => exact FailsOnly.ok none
  | columns names =>
    unfold projected
    rw [List.forM_eq_forM]
    refine FailsOnly.bind (FailsOnly.forM_of_each fun name _ => ?_) fun _ _ => FailsOnly.ok _
    exact (schema.reported_locate name).map fun _ => ()

theorem reported_ofColumns (columns : List Column) : FailsOnly Error.Reported (ofColumns columns) := by
  unfold ofColumns
  split
  · exact FailsOnly.error (Error.reported_of_kind .schema rfl (by decide))
  · split
    · exact FailsOnly.error (Error.reported_of_kind .schema rfl (by decide))
    · exact FailsOnly.ok _

end Schema

theorem SliceClause.reported_count (clause : SliceClause) (count : Option Int64) :
    FailsOnly Error.Reported (clause.count count) := by
  cases count with
  | none => exact FailsOnly.ok none
  | some n =>
    dsimp only [SliceClause.count]
    split
    · exact FailsOnly.error (Error.reported_of_kind .range rfl (by decide))
    · exact FailsOnly.ok _

theorem Query.reported_plan (query : Query) (schema : Schema) : FailsOnly Error.Reported (query.plan schema) := by
  unfold Query.plan
  refine (schema.reported_check query.condition).bind fun _ _ => ?_
  refine (schema.reported_projected query.projection).bind fun positions _ => ?_
  refine FailsOnly.bind ?_ fun sort _ => ?_
  · cases query.sort with
    | none => exact FailsOnly.ok none
    | some key =>
      exact FailsOnly.bind ((schema.reported_position key.column).bind fun _ _ => FailsOnly.ok _) fun _ _ => FailsOnly.ok _
  · refine (SliceClause.offset.reported_count query.offset).bind fun skip _ => ?_
    exact (SliceClause.limit.reported_count query.limit).bind fun limit _ => FailsOnly.ok _

/-! ## Statements -/

namespace Database

/-- What comes of a table ends in an error about the statement if it does on every table of the name. -/
theorem reported_onFound {α : Type} {database : Database} {name : String} {next : Table → Except Error α}
    (h : ∀ table, database.table? name = some table → FailsOnly Error.Reported (next table)) :
    FailsOnly Error.Reported (database.onFound name next) := by
  unfold onFound
  cases htable : database.table? name with
  | none => exact FailsOnly.error (Error.reported_of_kind .schema rfl (by decide))
  | some table => exact h table htable

/-- On a database of sound tables a statement that fails ends in an error about the statement. -/
theorem reported_run [Pattern.Compiler] {database : Database} (h : database.Sound) (statement : Statement) :
    FailsOnly Error.Reported ((run statement).result database) := by
  cases statement with
  | createTable name columns =>
    rw [run, Action.result_bind]
    refine (Schema.reported_ofColumns columns).bind fun schema _ => ?_
    rw [Action.result_bind, Action.after_liftExcept, result_createTable]
    refine FailsOnly.bind ?_ fun _ _ => FailsOnly.ok []
    split
    · exact FailsOnly.error (Error.reported_of_kind .schema rfl (by decide))
    · exact FailsOnly.ok ()
  | dropTable name =>
    rw [run, Action.result_bind, result_dropTable]
    refine FailsOnly.bind ?_ fun _ _ => FailsOnly.ok []
    split
    · exact FailsOnly.ok ()
    · exact FailsOnly.error (Error.reported_of_kind .schema rfl (by decide))
  | createIndex name table column =>
    rw [run, Action.result_bind, result_onTable]
    refine FailsOnly.bind (reported_onFound fun table _ => ?_) fun _ _ => FailsOnly.ok []
    rw [Table.result_createIndex]
    split
    · exact FailsOnly.error (Error.reported_of_kind .schema rfl (by decide))
    · exact (table.schema.reported_locate column).bind fun _ _ => FailsOnly.ok ()
  | insert table row =>
    rw [run, Action.result_bind, result_onTable]
    refine FailsOnly.bind (reported_onFound fun table _ => ?_) fun _ _ => FailsOnly.ok []
    rw [Table.result_insert]
    exact (table.schema.reported_checkRow table.name row).bind fun _ _ => FailsOnly.ok _
  | select query =>
    rw [run, result_fromTable]
    refine reported_onFound fun table htable => ?_
    rw [Table.result_select (h.of_table? htable)]
    refine (query.reported_plan table.schema).bind fun plan _ => ?_
    exact (Condition.reported_prepare query.condition).bind fun _ _ => FailsOnly.ok _
  | update table assignments condition =>
    rw [run, Action.result_bind, result_onTable]
    refine FailsOnly.bind (reported_onFound fun table htable => ?_) fun _ _ => FailsOnly.ok []
    rw [Table.result_update (h.of_table? htable)]
    exact (table.schema.reported_changes assignments condition).bind fun _ _ => FailsOnly.ok _
  | delete table condition =>
    rw [run, Action.result_bind, result_onTable]
    refine FailsOnly.bind (reported_onFound fun table htable => ?_) fun _ _ => FailsOnly.ok []
    rw [Table.result_delete (h.of_table? htable)]
    exact (table.schema.reported_ready condition).bind fun _ _ => FailsOnly.ok _
  | showTables => exact FailsOnly.ok _
  | showIndex table =>
    rw [run, result_fromTable]
    exact reported_onFound fun table _ => FailsOnly.ok _

/-- After any statements, whether or not they failed, every live row has a value of the right type for every column and no
more; insertions, deletions, updates and queries fail exactly where there is no such table or its schema refuses what is
asked; and no statement ends in an error that would show the engine out of step with itself. -/
theorem rows_typed_and_failures_exact [Pattern.Compiler] (statements : List Statement) :
    let database := empty.ran statements
    (∀ table ∈ database.tables, ∀ offset row, table.row? offset = some row → row.length = table.schema.size ∧
      ∀ column value, (column, value) ∈ table.schema.columns.zip row → value.dataType = column.type) ∧
    (∀ name row, Fails ((run (.insert name row)).result database) ↔ database.Refuses name (·.RefusesRow row)) ∧
    (∀ name condition, Fails ((run (.delete name condition)).result database) ↔
      database.Refuses name (·.RefusesCondition condition)) ∧
    (∀ name assignments condition, Fails ((run (.update name assignments condition)).result database) ↔
      database.Refuses name fun schema =>
        schema.RefusesCondition condition ∨ ∃ assignment ∈ assignments, schema.RefusesAssignment assignment) ∧
    (∀ query, Fails ((run (.select query)).result database) ↔ database.Refuses query.table (·.RefusesQuery query)) ∧
    ∀ statement cause, (run statement).result database = .error cause →
      cause.kind ≠ .consistency ∧ cause.kind ≠ .operatorUnsupported := by
  intro database
  have h : database.Sound := sound_ran sound_empty statements
  have htyped : ∀ table ∈ database.tables, ∀ offset row, table.row? offset = some row → row.length = table.schema.size ∧
      ∀ column value, (column, value) ∈ table.schema.columns.zip row → value.dataType = column.type := by
    intro table htable offset row hrow
    exact Schema.admits_iff.mp ((h table htable).typed offset row hrow)
  exact ⟨htyped, fails_insert_iff, fails_delete_iff h, fails_update_iff h, fails_select_iff h, reported_run h⟩

end Database

end SqlEngine
