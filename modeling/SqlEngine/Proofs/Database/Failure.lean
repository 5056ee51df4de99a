import SqlEngine.Proofs.Database.Tables
import SqlEngine.Proofs.Table.Selection

/-!
# When statements fail

A schema refuses a row, a condition, an assignment or a query for the reasons that its checks look for, and on a database of
sound tables these are the only reasons for which a statement fails (`fails_insert_iff`, `fails_delete_iff`,
`fails_update_iff`, `fails_select_iff`). The errors that would show an index or an offset to be out of step with the rows
never come up (`reported_run`).
-/

namespace SqlEngine

open ExceptAux

/-! ## What a schema refuses -/

/-- Asking for a negative number of rows is the only way for a clause to fail. -/
theorem SliceClause.fails_count_iff {clause : SliceClause} {count : Option Int64} :
    Fails (clause.count count) ↔ ∃ n ∈ count, n < 0 := by
  cases count with
  | none => exact iff_of_false (not_fails_ok none) nofun
  | some n =>
    dsimp only [SliceClause.count]
    by_cases hneg : n < 0
    · rw [if_pos hneg]
      exact iff_of_true (fails_error _) ⟨n, rfl, hneg⟩
    · rw [if_neg hneg]
      refine iff_of_false (not_fails_ok _) ?_
      rintro ⟨m, hm, hm'⟩
      exact hneg (Option.some.inj hm ▸ hm')

namespace Schema

variable {schema : Schema}

/-- The row is too short or too long, or some value is not of the type of its column. -/
def RefusesRow (schema : Schema) (row : Row) : Prop :=
  row.length ≠ schema.size ∨ ∃ column value, (column, value) ∈ schema.columns.zip row ∧ value.dataType ≠ column.type

/-- Some predicate of the condition, at whatever depth, does not suit the schema or has a pattern that cannot be made ready.
-/
def RefusesCondition [Pattern.Compiler] (schema : Schema) (condition : Option Condition) : Prop :=
  ∃ clause ∈ condition, ∃ predicate ∈ clause.predicates, predicate.Unsuited schema ∨ ¬predicate.Compiles

/-- The assigned column is unknown, or the value is not of its type. -/
def RefusesAssignment (schema : Schema) (assignment : Assignment) : Prop :=
  schema.find? assignment.column = none ∨ ∃ column position, schema.find? assignment.column = some (column, position) ∧
    assignment.value.dataType ≠ column.type

/-- The condition is refused, a column shown or sorted on is unknown, or the limit or the offset is negative. -/
def RefusesQuery [Pattern.Compiler] (schema : Schema) (query : Query) : Prop :=
  schema.RefusesCondition query.condition ∨
    (∃ names, query.projection = .columns names ∧ ∃ name ∈ names, schema.find? name = none) ∨
    (∃ key ∈ query.sort, schema.find? key.column = none) ∨
    (∃ n ∈ query.limit, n < 0) ∨ ∃ n ∈ query.offset, n < 0

theorem fails_locate_iff {name : String} : Fails (schema.locate name) ↔ schema.find? name = none := by
  unfold locate
  cases schema.find? name with
  | none => exact iff_of_true (fails_error _) rfl
  | some entry => exact iff_of_false (not_fails_ok entry) nofun

theorem fails_checkRow_iff {table : String} {row : Row} :
    Fails (schema.checkRow table row) ↔ schema.RefusesRow row := by
  rw [fails_iff_ne_ok, ne_eq, checkRow_eq_ok_iff, admits_iff, not_and_or, RefusesRow]
  simp only [not_forall, exists_prop, ne_eq]

theorem fails_ready_iff [Pattern.Compiler] {condition : Option Condition} :
    Fails (schema.ready condition) ↔ schema.RefusesCondition condition := by
  rw [fails_iff_ne_ok, ne_eq, ready_eq_ok_iff, RefusesCondition]
  simp only [not_forall, not_and_or, exists_prop, ← Predicate.check_ne_ok_iff, ne_eq]

theorem fails_change_iff {assignment : Assignment} :
    Fails (assignment.change schema) ↔ schema.RefusesAssignment assignment := by
  unfold Assignment.change RefusesAssignment
  rw [fails_bind_iff, fails_locate_iff]
  refine or_congr_right ?_
  simp only [Prod.exists, locate_eq_ok_iff]
  refine exists_congr fun column => exists_congr fun position => and_congr_right fun _ => ?_
  exact fails_map_iff.trans (fails_iff_ne_ok.trans (not_congr Column.check_eq_ok_iff))

theorem fails_changes_iff [Pattern.Compiler] {assignments : List Assignment} {condition : Option Condition} :
    Fails (schema.changes assignments condition) ↔
      schema.RefusesCondition condition ∨ ∃ assignment ∈ assignments, schema.RefusesAssignment assignment := by
  have hrest : ∀ changes : List (Nat × Value),
      Fails (schema.ready condition >>= fun _ => pure changes) ↔ schema.RefusesCondition condition := by
    intro changes
    exact fails_map_iff.trans fails_ready_iff
  unfold changes
  rw [fails_bind_iff_or hrest, fails_mapM_iff, or_comm]
  simp only [fails_change_iff]

theorem fails_projected_iff {projection : Projection} : Fails (schema.projected projection) ↔
    ∃ names, projection = .columns names ∧ ∃ name ∈ names, schema.find? name = none := by
  cases projection with
  | all => exact iff_of_false (not_fails_ok none) nofun
  | columns names =>
    have hcheck : ∀ name, Fails (discard (schema.locate name) : Except Error Unit) ↔ schema.find? name = none := by
      intro name
      rw [← fails_locate_iff]
      exact fails_map_iff
    unfold projected
    rw [List.forM_eq_forM]
    refine fails_map_iff.trans ?_
    rw [fails_forM_iff]
    simp only [hcheck, Projection.columns.injEq, exists_eq_left']

theorem fails_position_iff {name : String} : Fails (schema.position name) ↔ schema.find? name = none := by
  rw [← fails_locate_iff]
  exact fails_map_iff

/-- A plan fails exactly where its condition fails its check or another of its parts is refused. -/
theorem fails_plan_iff {query : Query} : Fails (query.plan schema) ↔
    Fails (schema.check query.condition) ∨
      (∃ names, query.projection = .columns names ∧ ∃ name ∈ names, schema.find? name = none) ∨
      (∃ key ∈ query.sort, schema.find? key.column = none) ∨
      (∃ n ∈ query.limit, n < 0) ∨ ∃ n ∈ query.offset, n < 0 := by
  have hlimit : ∀ positions sort skip, Fails (SliceClause.limit.count query.limit >>= fun limit =>
      pure { positions, sort, skip, limit : Query.Plan }) ↔ ∃ n ∈ query.limit, n < 0 := by
    intro positions sort skip
    exact fails_map_iff.trans SliceClause.fails_count_iff
  have hsort : Fails (query.sort.mapM fun key => do return (← schema.position key.column, key.direction)) ↔
      ∃ key ∈ query.sort, schema.find? key.column = none := by
    cases query.sort with
    | none => exact iff_of_false (not_fails_ok none) nofun
    | some key =>
      simp only [Option.mem_some_iff, exists_eq_left']
      exact fails_map_iff.trans (fails_map_iff.trans fails_position_iff)
  unfold Query.plan
  refine fails_bind_iff_or fun _ => ?_
  refine (fails_bind_iff_or fun positions => ?_).trans (or_congr fails_projected_iff Iff.rfl)
  refine (fails_bind_iff_or fun sort => ?_).trans (or_congr hsort Iff.rfl)
  rw [or_comm]
  exact (fails_bind_iff_or fun skip => hlimit positions sort (skip.getD 0)).trans (or_congr_left SliceClause.fails_count_iff)

end Schema

/-! ## What a database refuses -/

namespace Database

/-- There is no table of the name, or the schema of the table has the fault. -/
def Refuses (database : Database) (name : String) (fault : Schema → Prop) : Prop :=
  database.table? name = none ∨ ∃ table, database.table? name = some table ∧ fault table.schema

/-- What comes of a table fails exactly where there is no such table or it fails on the one there is. -/
theorem fails_onFound_iff {α : Type} {database : Database} {name : String} {fault : Schema → Prop}
    {next : Table → Except Error α}
    (h : ∀ table, database.table? name = some table → (Fails (next table) ↔ fault table.schema)) :
    Fails (database.onFound name next) ↔ database.Refuses name fault := by
  unfold onFound Refuses
  cases htable : database.table? name with
  | none => exact iff_of_true (fails_error _) (Or.inl rfl)
  | some table => simp [h table htable]

section

variable [Pattern.Compiler] {database : Database}

/-- An insertion fails exactly where there is no such table or its schema refuses the row. -/
theorem fails_insert_iff (name : String) (row : Row) :
    Fails ((run (.insert name row)).result database) ↔ database.Refuses name (·.RefusesRow row) := by
  rw [run, Action.result_bind, result_onTable]
  refine fails_map_iff.trans (fails_onFound_iff fun table _ => ?_)
  rw [Table.result_insert]
  exact fails_map_iff.trans Schema.fails_checkRow_iff

variable (h : database.Sound)

include h

/-- A deletion fails exactly where there is no such table or its schema refuses the condition. -/
theorem fails_delete_iff (name : String) (condition : Option Condition) :
    Fails ((run (.delete name condition)).result database) ↔ database.Refuses name (·.RefusesCondition condition) := by
  rw [run, Action.result_bind, result_onTable]
  refine fails_map_iff.trans (fails_onFound_iff fun table htable => ?_)
  rw [Table.result_delete (h.of_table? htable)]
  exact fails_map_iff.trans Schema.fails_ready_iff

/-- An update fails exactly where there is no such table or its schema refuses the condition or an assignment. -/
theorem fails_update_iff (name : String) (assignments : List Assignment) (condition : Option Condition) :
    Fails ((run (.update name assignments condition)).result database) ↔ database.Refuses name fun schema =>
      schema.RefusesCondition condition ∨ ∃ assignment ∈ assignments, schema.RefusesAssignment assignment := by
  rw [run, Action.result_bind, result_onTable]
  refine fails_map_iff.trans (fails_onFound_iff fun table htable => ?_)
  rw [Table.result_update (h.of_table? htable)]
  exact fails_map_iff.trans Schema.fails_changes_iff

/-- A query fails exactly where there is no such table or its schema refuses the query. -/
theorem fails_select_iff (query : Query) :
    Fails ((run (.select query)).result database) ↔ database.Refuses query.table (·.RefusesQuery query) := by
  rw [run, result_fromTable]
  refine fails_onFound_iff fun table htable => ?_
  rw [Table.result_select (h.of_table? htable)]
  refine (fails_bind_iff_or fun plan => fails_map_iff).trans ?_
  rw [Schema.fails_plan_iff, Schema.RefusesQuery, ← Schema.fails_ready_iff, Schema.ready]
  exact or_right_comm.trans (or_congr_left (fails_bind_iff_or fun _ => Iff.rfl).symm)

end

end Database

end SqlEngine
