import SqlEngine.Proofs.Database.Independence
import SqlEngine.Proofs.Table.Events

/-!
# What statements report

On a database of sound tables a statement reports nothing but events of its own kind, about the table that it names (`reports_run`),
and if it fails it reports nothing but how its condition was resolved (`failsQuietly_run`).
-/

namespace SqlEngine

namespace Event

/-- The table that the event is about. -/
def table : Event → String
  | tableCreated table _ | tableDropped table | indexCreated table _ _ _ _ _ | resolvedThroughIndex table _ _
  | resolvedByScan table _ _ | rowInserted table _ | rowUpdated table _ | rowDeleted table _ | rowsUpdated table _
  | rowsDeleted table _ => table

theorem Resolves.table_eq {name : String} {event : Event} (h : event.Resolves name) : event.table = name := by
  cases h <;> rfl

end Event

/-! ## Events of statements -/

/-- The event is one that the statement may report. -/
inductive Statement.Reports : Statement → Event → Prop where
  | tableCreated (name : String) (columns : List Column) (count : Nat) :
      Reports (.createTable name columns) (.tableCreated name count)
  | tableDropped (name : String) : Reports (.dropTable name) (.tableDropped name)
  | indexCreated (name table column : String) (values height : Nat) (superseded : Option String) :
      Reports (.createIndex name table column) (.indexCreated table name column values height superseded)
  | rowInserted (table : String) (row : Row) (offset : Nat) : Reports (.insert table row) (.rowInserted table offset)
  | selecting (query : Query) {event : Event} (h : event.Resolves query.table) : Reports (.select query) event
  | updating (table : String) (assignments : List Assignment) (condition : Option Condition) {event : Event}
      (h : event.Resolves table) : Reports (.update table assignments condition) event
  | rowUpdated (table : String) (assignments : List Assignment) (condition : Option Condition) (offset : Nat) :
      Reports (.update table assignments condition) (.rowUpdated table offset)
  | rowsUpdated (table : String) (assignments : List Assignment) (condition : Option Condition) (rows : Nat) :
      Reports (.update table assignments condition) (.rowsUpdated table rows)
  | deleting (table : String) (condition : Option Condition) {event : Event} (h : event.Resolves table) :
      Reports (.delete table condition) event
  | rowDeleted (table : String) (condition : Option Condition) (offset : Nat) :
      Reports (.delete table condition) (.rowDeleted table offset)
  | rowsDeleted (table : String) (condition : Option Condition) (rows : Nat) :
      Reports (.delete table condition) (.rowsDeleted table rows)

/-- A statement reports events about the table that it names. -/
theorem Statement.Reports.table?_eq {statement : Statement} {event : Event} (h : statement.Reports event) :
    statement.table? = some event.table := by
  cases h with
  | selecting query h => exact congrArg some h.table_eq.symm
  | updating _ _ _ h => exact congrArg some h.table_eq.symm
  | deleting _ _ h => exact congrArg some h.table_eq.symm
  | _ => rfl

namespace Table

theorem reports_createIndex {table : Table} {name column : String} {event : Event}
    (hevent : event ∈ (createIndex name column).events table) : (Statement.createIndex name table.name column).Reports event := by
  rcases events_createIndex name column table with ⟨⟨values, height, superseded, hevents⟩, -⟩ | ⟨hevents, -⟩
  · rw [hevents, List.mem_singleton] at hevent
    exact hevent ▸ .indexCreated name table.name column values height superseded
  · rw [hevents] at hevent
    exact nomatch hevent

theorem reports_insert {table : Table} {row : Row} {event : Event} (hevent : event ∈ (insert row).events table) :
    (Statement.insert table.name row).Reports event := by
  rw [events_insert] at hevent
  split at hevent
  · exact List.mem_singleton.mp hevent ▸ .rowInserted table.name row table.size
  · exact nomatch hevent

variable [Pattern.Compiler]

theorem reports_delete {table : Table} (h : table.Sound) {condition : Option Condition} {event : Event}
    (hevent : event ∈ (delete condition).events table) : (Statement.delete table.name condition).Reports event := by
  rcases delete_cases h condition with hrefuses | hdoes
  · exact .deleting _ _ (hrefuses.events event hevent)
  · rcases hdoes.mem_events h hevent with hresolves | ⟨offset, rfl⟩ | ⟨rows, rfl, -⟩
    · exact .deleting _ _ hresolves
    · exact .rowDeleted _ _ offset
    · exact .rowsDeleted _ _ rows

theorem reports_update {table : Table} (h : table.Sound) {assignments : List Assignment} {condition : Option Condition}
    {event : Event} (hevent : event ∈ (update assignments condition).events table) :
    (Statement.update table.name assignments condition).Reports event := by
  rcases update_cases h condition assignments with hrefuses | ⟨changes, hdoes⟩
  · exact .updating _ _ _ (hrefuses.events event hevent)
  · rcases hdoes.mem_events h hevent with hresolves | ⟨offset, rfl⟩ | ⟨rows, rfl, -⟩
    · exact .updating _ _ _ hresolves
    · exact .rowUpdated _ _ _ offset
    · exact .rowsUpdated _ _ _ rows

/-- Where a deletion reports a number of rows, it has reported the rows of its condition. -/
theorem reportsRows_delete {table : Table} (h : table.Sound) {condition : Option Condition} {name : String} {rows : Nat}
    (hmem : .rowsDeleted name rows ∈ (delete condition).events table) :
    table.ReportsRows condition .rowDeleted .rowsDeleted ((delete condition).events table) rows := by
  rcases delete_cases h condition with hrefuses | hdoes
  · exact nomatch hrefuses.events _ hmem
  · rcases hdoes.mem_events h hmem with hresolves | ⟨offset, heq⟩ | ⟨_, heq, hreports⟩
    · exact nomatch hresolves
    · exact nomatch heq
    · obtain ⟨-, rfl⟩ := Event.rowsDeleted.inj heq
      exact hreports

/-- Where an update reports a number of rows, it has reported the rows of its condition. -/
theorem reportsRows_update {table : Table} (h : table.Sound) {assignments : List Assignment} {condition : Option Condition}
    {name : String} {rows : Nat} (hmem : .rowsUpdated name rows ∈ (update assignments condition).events table) :
    table.ReportsRows condition .rowUpdated .rowsUpdated ((update assignments condition).events table) rows := by
  rcases update_cases h condition assignments with hrefuses | ⟨changes, hdoes⟩
  · exact nomatch hrefuses.events _ hmem
  · rcases hdoes.mem_events h hmem with hresolves | ⟨offset, heq⟩ | ⟨_, heq, hreports⟩
    · exact nomatch hresolves
    · exact nomatch heq
    · obtain ⟨-, rfl⟩ := Event.rowsUpdated.inj heq
      exact hreports

end Table

/-! ## Failing quietly -/

namespace Action

variable {σ α β : Type} {action : Action σ α} {state : σ}

/-- If the action fails from the state, it reports nothing but how conditions were resolved. -/
def FailsQuietly (action : Action σ α) (state : σ) : Prop :=
  ∀ cause, action.result state = .error cause → ∀ event ∈ action.events state, ∃ table, event.Resolves table

theorem failsQuietly_of_events_eq_nil (h : action.events state = []) : action.FailsQuietly state := by
  intro cause _ event hevent
  rw [h] at hevent
  exact nomatch hevent

/-- To make something else of what an action ends in does not make it fail. -/
theorem FailsQuietly.bind_pure (h : action.FailsQuietly state) (f : α → β) :
    (action >>= fun value => pure (f value)).FailsQuietly state := by
  intro cause hcause
  rw [result_bind] at hcause
  rw [events_bind_pure]
  rcases ExceptAux.bind_eq_error_iff.mp hcause with herror | ⟨value, -, herror⟩
  · exact h cause herror
  · exact nomatch herror

/-- A check before an action fails quietly if the action does. -/
theorem FailsQuietly.after_check {check : Except Error β} {next : β → Action σ α} (h : ∀ value, (next value).FailsQuietly state) :
    ((liftM check : Action σ β) >>= next).FailsQuietly state := by
  cases check with
  | error cause => exact failsQuietly_of_events_eq_nil rfl
  | ok value => exact h value

end Action

namespace Table

theorem failsQuietly_createIndex (name column : String) (table : Table) : (createIndex name column).FailsQuietly table := by
  rcases events_createIndex name column table with ⟨-, hresult⟩ | ⟨hevents, -⟩
  · intro cause hcause
    exact nomatch hresult.symm.trans hcause
  · exact Action.failsQuietly_of_events_eq_nil hevents

theorem failsQuietly_insert (row : Row) (table : Table) : (insert row).FailsQuietly table := by
  intro cause hcause
  rw [result_insert] at hcause
  rw [events_insert]
  split
  next hadmits =>
    rw [Schema.checkRow_eq_ok_iff.mpr hadmits] at hcause
    exact nomatch hcause
  next => exact nofun

theorem Refuses.failsQuietly {α : Type} {table : Table} {action : Action Table α} (h : table.Refuses action) :
    action.FailsQuietly table := fun _ _ event hevent => ⟨table.name, h.events event hevent⟩

theorem DoesForRows.failsQuietly [Pattern.Compiler] {table : Table} {condition : Option Condition} {action : Action Table Nat}
    {step : Nat → Action Table Unit} {each total : String → Nat → Event}
    (h : table.DoesForRows condition action step each total) : action.FailsQuietly table := fun _ hcause =>
  nomatch h.result.symm.trans hcause

end Table

namespace Database

section

variable {α : Type} {database : Database} {name : String}

theorem events_onTable (action : Action Table α) : (onTable name action).events database =
    match database.table? name with
    | none => []
    | some table => action.events table := by
  dsimp only [onTable, Action.events, Action.run]
  cases database.table? name <;> rfl

theorem events_fromTable (read : Table → Outcome α) : (fromTable name read).events database =
    match database.table? name with
    | none => []
    | some table => (read table).events := by
  dsimp only [fromTable, Action.events, Action.run]
  cases database.table? name <;> rfl

theorem events_createTable (schema : Schema) : (createTable name schema).events database =
    if (database.table? name).isSome then [] else [.tableCreated name schema.size] := by
  unfold createTable
  rw [Action.events_state_bind]
  split <;> rfl

theorem events_dropTable : (dropTable name).events database =
    if (database.table? name).isSome then [.tableDropped name] else [] := by
  unfold dropTable
  rw [Action.events_state_bind]
  split <;> rfl

/-- Acting on a table reports what the action reports on the table of the name. -/
theorem exists_of_mem_events_onTable {action : Action Table α} {event : Event}
    (hevent : event ∈ (onTable name action).events database) :
    ∃ table, database.table? name = some table ∧ table.name = name ∧ event ∈ action.events table := by
  rw [events_onTable] at hevent
  split at hevent
  next => exact nomatch hevent
  next table htable => exact ⟨table, htable, (of_table? htable).2, hevent⟩

/-- What fails quietly on a table fails quietly on the database. -/
theorem failsQuietly_onTable {action : Action Table α}
    (h : ∀ table, database.table? name = some table → action.FailsQuietly table) : (onTable name action).FailsQuietly database := by
  intro cause hcause event hevent
  rw [result_onTable, onFound] at hcause
  obtain ⟨table, htable, -, hmem⟩ := exists_of_mem_events_onTable hevent
  rw [htable] at hcause
  exact h table htable cause hcause event hmem

end

variable [Pattern.Compiler]

/-- On a database of sound tables a statement reports events of its own kind. -/
theorem reports_run {database : Database} (h : database.Sound) {statement : Statement} {event : Event}
    (hevent : event ∈ (run statement).events database) : statement.Reports event := by
  cases statement with
  | createTable name columns =>
    rw [run, Action.events_bind, Action.events_liftExcept, Action.result_liftExcept, Action.after_liftExcept,
      List.nil_append] at hevent
    split at hevent
    next => exact absurd hevent List.not_mem_nil
    next schema _ =>
      rw [Action.events_bind_pure, events_createTable] at hevent
      split at hevent
      · exact absurd hevent List.not_mem_nil
      · exact List.mem_singleton.mp hevent ▸ .tableCreated name columns schema.size
  | dropTable name =>
    rw [run, Action.events_bind_pure, events_dropTable] at hevent
    split at hevent
    · exact List.mem_singleton.mp hevent ▸ .tableDropped name
    · exact absurd hevent List.not_mem_nil
  | createIndex name own column =>
    rw [run, Action.events_bind_pure] at hevent
    obtain ⟨table, -, rfl, hmem⟩ := exists_of_mem_events_onTable hevent
    exact Table.reports_createIndex hmem
  | insert own row =>
    rw [run, Action.events_bind_pure] at hevent
    obtain ⟨table, -, rfl, hmem⟩ := exists_of_mem_events_onTable hevent
    exact Table.reports_insert hmem
  | select query =>
    rw [run, events_fromTable] at hevent
    split at hevent
    next => exact absurd hevent List.not_mem_nil
    next table htable => exact .selecting query ((of_table? htable).2 ▸ table.resolves_select query event hevent)
  | update own assignments condition =>
    rw [run, Action.events_bind_pure] at hevent
    obtain ⟨table, htable, rfl, hmem⟩ := exists_of_mem_events_onTable hevent
    exact Table.reports_update (h.of_table? htable) hmem
  | delete own condition =>
    rw [run, Action.events_bind_pure] at hevent
    obtain ⟨table, htable, rfl, hmem⟩ := exists_of_mem_events_onTable hevent
    exact Table.reports_delete (h.of_table? htable) hmem
  | showTables => exact absurd hevent List.not_mem_nil
  | showIndex own =>
    rw [run, events_fromTable] at hevent
    split at hevent
    next => exact absurd hevent List.not_mem_nil
    next => exact absurd hevent List.not_mem_nil

section

variable {database : Database} (h : database.Sound) {own name : String} {rows : Nat}

include h

/-- An update that reports a number of rows has reported the rows of its condition in the table that it names. -/
theorem reportsRows_run_update {assignments : List Assignment} {condition : Option Condition}
    (hmem : .rowsUpdated name rows ∈ (run (.update own assignments condition)).events database) :
    ∃ table, database.table? own = some table ∧ table.ReportsRows condition .rowUpdated .rowsUpdated
      ((run (.update own assignments condition)).events database) rows := by
  rw [run, Action.events_bind_pure] at hmem ⊢
  obtain ⟨table, htable, -, hreported⟩ := exists_of_mem_events_onTable hmem
  refine ⟨table, htable, ?_⟩
  rw [events_onTable, htable]
  exact Table.reportsRows_update (h.of_table? htable) hreported

/-- A deletion that reports a number of rows has reported the rows of its condition in the table that it names. -/
theorem reportsRows_run_delete {condition : Option Condition}
    (hmem : .rowsDeleted name rows ∈ (run (.delete own condition)).events database) :
    ∃ table, database.table? own = some table ∧ table.ReportsRows condition .rowDeleted .rowsDeleted
      ((run (.delete own condition)).events database) rows := by
  rw [run, Action.events_bind_pure] at hmem ⊢
  obtain ⟨table, htable, -, hreported⟩ := exists_of_mem_events_onTable hmem
  refine ⟨table, htable, ?_⟩
  rw [events_onTable, htable]
  exact Table.reportsRows_delete (h.of_table? htable) hreported

end

/-! ## What failing statements report -/

/-- On a database of sound tables a statement that fails reports nothing but how its condition was resolved. -/
theorem failsQuietly_run {database : Database} (h : database.Sound) (statement : Statement) :
    (run statement).FailsQuietly database := by
  cases statement with
  | createTable name columns =>
    refine Action.FailsQuietly.after_check fun schema => Action.FailsQuietly.bind_pure ?_ fun _ => []
    intro cause hcause
    rw [result_createTable] at hcause
    rw [events_createTable]
    split at hcause
    next hexists =>
      rw [if_pos hexists]
      exact nofun
    next => exact nomatch hcause
  | dropTable name =>
    refine Action.FailsQuietly.bind_pure ?_ fun _ => []
    intro cause hcause
    rw [result_dropTable] at hcause
    rw [events_dropTable]
    split at hcause
    next => exact nomatch hcause
    next hunknown =>
      rw [if_neg hunknown]
      exact nofun
  | createIndex name own column =>
    exact (failsQuietly_onTable fun table _ => Table.failsQuietly_createIndex name column table).bind_pure fun _ => []
  | insert own row => exact (failsQuietly_onTable fun table _ => Table.failsQuietly_insert row table).bind_pure fun _ => []
  | select query =>
    intro cause _ event hevent
    cases reports_run h hevent with
    | selecting _ hresolves => exact ⟨query.table, hresolves⟩
  | update own assignments condition =>
    refine (failsQuietly_onTable fun table htable => ?_).bind_pure fun _ => []
    rcases Table.update_cases (h.of_table? htable) condition assignments with hrefuses | ⟨changes, hdoes⟩
    · exact hrefuses.failsQuietly
    · exact hdoes.failsQuietly
  | delete own condition =>
    refine (failsQuietly_onTable fun table htable => ?_).bind_pure fun _ => []
    rcases Table.delete_cases (h.of_table? htable) condition with hrefuses | hdoes
    · exact hrefuses.failsQuietly
    · exact hdoes.failsQuietly
  | showTables => exact Action.failsQuietly_of_events_eq_nil rfl
  | showIndex own =>
    intro cause _ event hevent
    exact nomatch reports_run h hevent

end Database

end SqlEngine
