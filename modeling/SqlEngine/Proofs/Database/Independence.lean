import SqlEngine.Proofs.Database.Tables

/-!
# Tables are independent of each other

A statement that names a table keeps to it (`keepsTo_run`): what it ends in and what it leaves under the name come of the table
found there alone, and what stands under every other name stays. So two statements that name different tables do the same in
either order (`run_commutes`), whether or not they fail.
-/

namespace SqlEngine

/-- The table that a statement names. -/
def Statement.table? : Statement → Option String
  | createTable name _ | dropTable name => some name
  | createIndex _ table _ | insert table _ | update table _ _ | delete table _ | showIndex table => some table
  | select query => some query.table
  | showTables => none

namespace Database

/-! ## Keeping to a table -/

/-- From the database, the action looks at no other table than the one of the name, and leaves all others alone. -/
structure KeepsTo {α : Type} (name : String) (action : Action Database α) (database : Database) : Prop where
  others : ∀ other, other ≠ name → (action.after database).table? other = database.table? other
  result : ∀ database' : Database, database'.table? name = database.table? name → action.result database' = action.result database
  own : ∀ database' : Database, database'.table? name = database.table? name →
    (action.after database').table? name = (action.after database).table? name

section

variable {α β : Type} {name : String} {database : Database}

/-- An action that never changes the database keeps to the one table that it looks at. -/
theorem keepsTo_of_after_eq {action : Action Database α} (hafter : ∀ database, action.after database = database)
    (hresult : ∀ database' : Database, database'.table? name = database.table? name →
      action.result database' = action.result database) : KeepsTo name action database := by
  refine ⟨fun other _ => ?_, hresult, fun database' hsame => ?_⟩
  · rw [hafter]
  · rw [hafter, hafter, hsame]

/-- To make something else of what an action ends in keeps to the same table. -/
theorem KeepsTo.bind_pure {action : Action Database α} (h : KeepsTo name action database) (f : α → β) :
    KeepsTo name (action >>= fun value => pure (f value)) database := by
  refine ⟨fun other hother => ?_, fun database' hsame => ?_, fun database' hsame => ?_⟩
  · rw [Action.after_bind_pure, h.others other hother]
  · rw [Action.result_bind, Action.result_bind, h.result database' hsame]
    rfl
  · rw [Action.after_bind_pure, Action.after_bind_pure, h.own database' hsame]

/-- A check before an action keeps to the table that the action keeps to. -/
theorem KeepsTo.after_check {check : Except Error β} {next : β → Action Database α}
    (h : ∀ value, KeepsTo name (next value) database) : KeepsTo name ((liftM check : Action Database β) >>= next) database := by
  cases check with
  | error cause => exact keepsTo_of_after_eq (fun _ => rfl) fun _ _ => rfl
  | ok value => exact ⟨(h value).others, (h value).result, (h value).own⟩

/-- Acting on a table that keeps its name keeps to it. -/
theorem keepsTo_onTable {action : Action Table α}
    (h : ∀ table, database.table? name = some table → (action.after table).name = table.name) :
    KeepsTo name (onTable name action) database := by
  have hname : ∀ table, database.table? name = some table → (action.after table).name = name := fun table htable =>
    (h table htable).trans (of_table? htable).2
  refine ⟨fun other hother => ?_, fun database' hsame => ?_, fun database' hsame => ?_⟩
  · rw [after_onTable]
    cases htable : database.table? name with
    | none => rfl
    | some table => exact (table?_put _ _ _).trans (if_neg (hname table htable ▸ hother))
  · rw [result_onTable, result_onTable, onFound, onFound, hsame]
  · rw [after_onTable, after_onTable, hsame]
    cases htable : database.table? name with
    | none => exact hsame.trans rfl
    | some table =>
      dsimp only
      rw [table?_put, table?_put, if_pos (hname table htable).symm, if_pos (hname table htable).symm]

theorem keepsTo_fromTable (read : Table → Outcome α) : KeepsTo name (fromTable name read) database := by
  refine keepsTo_of_after_eq (fun _ => after_fromTable read) fun database' hsame => ?_
  rw [result_fromTable, result_fromTable, onFound, onFound, hsame]

theorem keepsTo_createTable (schema : Schema) : KeepsTo name (createTable name schema) database := by
  have hname : name = (Table.empty name schema).name := rfl
  refine ⟨fun other hother => ?_, fun database' hsame => ?_, fun database' hsame => ?_⟩
  · rw [after_createTable]
    split
    · rfl
    · exact (table?_put _ _ _).trans (if_neg hother)
  · rw [result_createTable, result_createTable, hsame]
  · rw [after_createTable, after_createTable, hsame]
    split
    · exact hsame
    · rw [table?_put, table?_put, if_pos hname, if_pos hname]

theorem keepsTo_dropTable : KeepsTo name (dropTable name) database := by
  refine ⟨fun other hother => ?_, fun database' hsame => ?_, fun database' hsame => ?_⟩
  · rw [after_dropTable]
    split
    · rw [table?_erase, if_neg hother]
    · rfl
  · rw [result_dropTable, result_dropTable, hsame]
  · rw [after_dropTable, after_dropTable, hsame]
    split
    · rw [table?_erase, table?_erase, if_pos rfl, if_pos rfl]
    · exact hsame

end

variable [Pattern.Compiler]

/-- On a database of sound tables a statement keeps to the table that it names. -/
theorem keepsTo_run {database : Database} (h : database.Sound) {statement : Statement} {name : String}
    (hname : statement.table? = some name) : KeepsTo name (run statement) database := by
  cases statement with
  | createTable own columns =>
    obtain rfl := Option.some.inj hname
    exact KeepsTo.after_check fun schema => (keepsTo_createTable schema).bind_pure fun _ => []
  | dropTable own =>
    obtain rfl := Option.some.inj hname
    exact keepsTo_dropTable.bind_pure fun _ => []
  | createIndex index own column =>
    obtain rfl := Option.some.inj hname
    exact (keepsTo_onTable fun table _ => (Table.sameHeading_createIndex index column table).1).bind_pure fun _ => []
  | insert own row =>
    obtain rfl := Option.some.inj hname
    exact (keepsTo_onTable fun table _ => (Table.sameHeading_insert row table).1).bind_pure fun _ => []
  | select query =>
    obtain rfl := Option.some.inj hname
    exact keepsTo_fromTable _
  | update own assignments condition =>
    obtain rfl := Option.some.inj hname
    refine (keepsTo_onTable fun table htable => ?_).bind_pure fun _ => []
    exact (Table.sameHeading_update (h.of_table? htable) condition assignments).1
  | delete own condition =>
    obtain rfl := Option.some.inj hname
    refine (keepsTo_onTable fun table htable => ?_).bind_pure fun _ => []
    exact (Table.sameHeading_delete (h.of_table? htable) condition).1
  | showTables => exact nomatch hname
  | showIndex own =>
    obtain rfl := Option.some.inj hname
    exact keepsTo_fromTable _

/-! ## Other tables -/

section

variable {database : Database} (h : database.Sound)

include h

/-- A statement leaves a table that it does not name as it is. -/
theorem table?_run_of_ne {statement : Statement} {name : String} (hne : statement.table? ≠ some name) :
    ((run statement).after database).table? name = database.table? name := by
  cases hown : statement.table? with
  | none =>
    cases statement with
    | showTables => rfl
    | _ => exact nomatch hown
  | some own => exact (keepsTo_run h hown).others name fun heq => hne (heq ▸ hown)

/-- Two statements that name different tables end in the same in either order, and leave the same database. -/
theorem run_commutes {first second : Statement} {name other : String} (hfirst : first.table? = some name)
    (hsecond : second.table? = some other) (hne : name ≠ other) :
    (run second).result ((run first).after database) = (run second).result database ∧
      (run second).after ((run first).after database) = (run first).after ((run second).after database) := by
  have hfirst' := keepsTo_run h hfirst
  have hsecond' := keepsTo_run h hsecond
  have hafter := keepsTo_run (sound_run h first) hsecond
  have hafter' := keepsTo_run (sound_run h second) hfirst
  refine ⟨hsecond'.result _ (hfirst'.others other hne.symm), ext_table? fun found => ?_⟩
  -- Under each of the two names one statement acts, on the same table in either order; elsewhere neither does.
  by_cases hname : found = name
  · subst hname
    rw [hafter.others found hne, hfirst'.own _ (hsecond'.others found hne)]
  · by_cases hother : found = other
    · subst hother
      rw [hafter'.others found hname, hsecond'.own _ (hfirst'.others found hname)]
    · rw [hafter.others found hother, hfirst'.others found hname, hafter'.others found hname, hsecond'.others found hother]

/-- Statements that do not name a table leave it as it is. -/
theorem table?_ran_of_ne {name : String} {statements : List Statement}
    (hne : ∀ statement ∈ statements, statement.table? ≠ some name) :
    (database.ran statements).table? name = database.table? name := by
  induction statements generalizing database with
  | nil => rfl
  | cons statement rest ih =>
    obtain ⟨hfirst, hrest⟩ := List.forall_mem_cons.mp hne
    exact (ih (sound_run h statement) hrest).trans (table?_run_of_ne h hfirst)

end

/-! ## Dropping and creating again -/

/-- After a statement that drops a table, whether or not it fails, there is no such table. -/
theorem table?_run_dropTable (name : String) (database : Database) :
    ((run (.dropTable name)).after database).table? name = none := by
  rw [run, Action.after_bind_pure, after_dropTable]
  split
  · rw [table?_erase, if_pos rfl]
  next hunknown => exact Option.not_isSome_iff_eq_none.mp hunknown

/-- Where there is no such table, a statement that creates one with columns of different names succeeds, and the table has neither
rows nor indexes. -/
theorem run_createTable_of_none {database : Database} {name : String} (hnone : database.table? name = none) {columns : List Column}
    {schema : Schema} (hschema : Schema.ofColumns columns = .ok schema) :
    (run (.createTable name columns)).result database = .ok [] ∧
      ((run (.createTable name columns)).after database).table? name = some (.empty name schema) := by
  have hvacant : ¬(database.table? name).isSome = true := Option.not_isSome_iff_eq_none.mpr hnone
  constructor
  · rw [run, Action.result_bind, Action.result_liftExcept, hschema, ExceptAux.ok_bind, Action.result_bind, Action.after_liftExcept,
      result_createTable, if_neg hvacant]
    rfl
  · rw [run, Action.after_bind_of_ok ((Action.result_liftExcept _ _).trans hschema), Action.after_liftExcept,
      Action.after_bind_pure, after_createTable, if_neg hvacant]
    exact (table?_put _ _ _).trans (if_pos rfl)

/-- On a database that any statements lead to, two statements that name different tables end in the same in either order, and leave
the same database; a statement leaves every table as it is that it does not name. A table that is created after one of its name was
dropped has no rows and no indexes, whatever was done to other tables in between, and the first row stored in it gets the first
offset. -/
theorem statements_independent (statements : List Statement) :
    let database := empty.ran statements
    (∀ (first second : Statement) (name other : String), first.table? = some name → second.table? = some other → name ≠ other →
      (run first).result ((run second).after database) = (run first).result database ∧
      (run second).result ((run first).after database) = (run second).result database ∧
      (run second).after ((run first).after database) = (run first).after ((run second).after database)) ∧
    (∀ (statement : Statement) (name : String), statement.table? ≠ some name →
      ((run statement).after database).table? name = database.table? name) ∧
    ∀ (name : String) (between : List Statement) (columns : List Column) (schema : Schema),
      (∀ statement ∈ between, statement.table? ≠ some name) → Schema.ofColumns columns = .ok schema →
      let vacant := ((run (.dropTable name)).after database).ran between
      (run (.createTable name columns)).result vacant = .ok [] ∧
      ∃ table, ((run (.createTable name columns)).after vacant).table? name = some table ∧ table.schema = schema ∧
        (∀ offset, table.row? offset = none) ∧ table.indexNames = [] ∧ (∀ column, table.indexOn? column = none) ∧
        ∀ row, (Table.appendRow row).result table = .ok 0 := by
  intro database
  have h : database.Sound := sound_ran sound_empty statements
  refine ⟨fun first second name other hfirst hsecond hne => ?_, fun _ _ => table?_run_of_ne h, ?_⟩
  · obtain ⟨hresult, hafter⟩ := run_commutes h hfirst hsecond hne
    exact ⟨(run_commutes h hsecond hfirst hne.symm).1, hresult, hafter⟩
  · intro name between columns schema hbetween hschema vacant
    have hvacant : vacant.table? name = none :=
      (table?_ran_of_ne (sound_run h (.dropTable name)) hbetween).trans (table?_run_dropTable name database)
    obtain ⟨hresult, hafter⟩ := run_createTable_of_none hvacant hschema
    exact ⟨hresult, .empty name schema, hafter, rfl, fun _ => rfl, List.mergeSort_nil, fun _ => rfl, fun _ => rfl⟩

end Database

end SqlEngine
