import Mathlib.Data.List.DropRight
import SqlEngine.Proofs.Database.Events
import SqlEngine.Proofs.Table.Replay

/-!
# The log replays to the rows

Whoever keeps the events that a database has reported can tell from them which rows are live: since its creation was last
reported, a table has reported each of its rows once as inserted, and once more as deleted if it is not live any more
(`log_replays`). What one statement reports keeps the log of every table so (`loggedIn_run`).
-/

namespace SqlEngine

namespace Event

/-- Whether the event tells that a table of the name was created. -/
def creates (name : String) : Event → Bool
  | tableCreated table _ => table == name
  | _ => false

/-- The event tells nothing of the slots of a table of the name. -/
def SilentOn (name : String) (event : Event) : Prop :=
  event.creates name = false ∧ ∀ offset, event ≠ .rowInserted name offset ∧ event ≠ .rowDeleted name offset

theorem silentOn_of_ne {name : String} {event : Event} (h : event.table ≠ name) : event.SilentOn name := by
  refine ⟨?_, fun offset => ⟨?_, ?_⟩⟩
  · cases event with
    | tableCreated table columns => exact beq_false_of_ne h
    | _ => rfl
  · rintro rfl
    exact h rfl
  · rintro rfl
    exact h rfl

theorem Resolves.silentOn {table : String} {event : Event} (h : event.Resolves table) (name : String) : event.SilentOn name := by
  cases h with
  | throughIndex column operator => exact ⟨rfl, fun offset => ⟨nofun, nofun⟩⟩
  | byScan column operator => exact ⟨rfl, fun offset => ⟨nofun, nofun⟩⟩

end Event

/-- Only what creates a table is reported as the creation of one. -/
theorem Statement.Reports.creates_eq_false {statement : Statement} {event : Event} (h : statement.Reports event) {name : String}
    (hne : ∀ columns, statement ≠ .createTable name columns) : event.creates name = false := by
  cases h with
  | tableCreated own columns count => exact beq_false_of_ne fun heq => hne columns (heq ▸ rfl)
  | selecting _ h => exact (h.silentOn name).1
  | updating _ _ _ h => exact (h.silentOn name).1
  | deleting _ _ h => exact (h.silentOn name).1
  | _ => rfl

namespace Database

/-! ## The log of a table -/

/-- The events that a list of statements reports, each of which is run whether or not those before it failed. -/
def log [Pattern.Compiler] (database : Database) : List Statement → List Event
  | [] => []
  | statement :: rest => (run statement).events database ++ log ((run statement).after database) rest

/-- The events after the last one that tells that a table of the name was created. -/
def sinceCreated (name : String) (log : List Event) : List Event :=
  log.rtakeWhile fun event => !event.creates name

theorem sinceCreated_append {name : String} {log more : List Event} (hmore : ∀ event ∈ more, event.creates name = false) :
    sinceCreated name (log ++ more) = sinceCreated name log ++ more := by
  have hall : ∀ event ∈ more.reverse, (!event.creates name) = true := by
    intro event hevent
    rw [hmore event (List.mem_reverse.mp hevent), Bool.not_false]
  rw [sinceCreated, List.rtakeWhile, List.reverse_append, List.takeWhile_append_of_pos hall, List.reverse_append,
    List.reverse_reverse]
  rfl

theorem sinceCreated_created (name : String) (log : List Event) (columns : Nat) :
    sinceCreated name (log ++ [.tableCreated name columns]) = [] := by
  rw [sinceCreated, List.rtakeWhile_concat_neg]
  simp [Event.creates]

/-- If there is a table of the name, the log tells of its creation, and what it goes on with accounts for the slots of the table. -/
def LoggedIn (database : Database) (log : List Event) (name : String) : Prop :=
  ∀ table, database.table? name = some table →
    (∃ columns, .tableCreated name columns ∈ log) ∧ table.AccountedBy (sinceCreated name log)

section

variable {database : Database} {log : List Event} {name : String}

/-- Events that tell nothing of a table leave its log as it is. -/
theorem LoggedIn.append (h : database.LoggedIn log name) {database' : Database}
    (hsame : database'.table? name = database.table? name) {more : List Event} (hmore : ∀ event ∈ more, event.SilentOn name) :
    database'.LoggedIn (log ++ more) name := by
  intro table htable
  rw [hsame] at htable
  obtain ⟨⟨columns, hcreated⟩, hlog⟩ := h table htable
  refine ⟨⟨columns, List.mem_append_left _ hcreated⟩, ?_⟩
  rw [sinceCreated_append fun event hevent => (hmore event hevent).1]
  refine hlog.append rfl rfl (fun _ => rfl) fun offset => ?_
  rw [(of_table? htable).2]
  exact ⟨fun hmem => ((hmore _ hmem).2 offset).1 rfl, fun hmem => ((hmore _ hmem).2 offset).2 rfl⟩

/-- The log of a table goes on with what an action on the table reports, if that is what is to be added. -/
theorem loggedIn_onTable {α β : Type} (h : database.LoggedIn log name) {action : Action Table α} (f : α → β)
    (hname : ∀ table, database.table? name = some table → (action.after table).name = table.name)
    (haccounted : ∀ table events, database.table? name = some table → table.AccountedBy events →
      (action.after table).AccountedBy (events ++ action.events table))
    (hcreates : ∀ event ∈ (onTable name action >>= fun value => pure (f value)).events database, event.creates name = false) :
    ((onTable name action >>= fun value => pure (f value)).after database).LoggedIn
      (log ++ (onTable name action >>= fun value => pure (f value)).events database) name := by
  intro table htable
  rw [sinceCreated_append hcreates]
  rw [Action.after_bind_pure, after_onTable] at htable
  rw [Action.events_bind_pure, events_onTable]
  cases hfound : database.table? name with
  | none =>
    rw [hfound] at htable
    exact nomatch hfound.symm.trans htable
  | some found =>
    obtain ⟨⟨columns, hcreated⟩, hlog⟩ := h found hfound
    have hown : name = (action.after found).name := ((hname found hfound).trans (of_table? hfound).2).symm
    simp only [hfound] at htable
    rw [table?_put, if_pos hown] at htable
    obtain rfl := Option.some.inj htable
    exact ⟨⟨columns, List.mem_append_left _ hcreated⟩, haccounted found _ hfound hlog⟩

/-- The log of a table begins with its creation. -/
theorem loggedIn_createTable (h : database.LoggedIn log name) (schema : Schema) :
    ((createTable name schema).after database).LoggedIn (log ++ (createTable name schema).events database) name := by
  rw [after_createTable, events_createTable]
  split
  · rw [List.append_nil]
    exact h
  · intro table htable
    have hname : name = (Table.empty name schema).name := rfl
    rw [table?_put, if_pos hname] at htable
    obtain rfl := Option.some.inj htable
    rw [sinceCreated_created]
    exact ⟨⟨schema.size, List.mem_append_right _ List.mem_cons_self⟩, Table.accountedBy_empty name schema⟩

theorem loggedIn_run_createTable [Pattern.Compiler] (h : database.LoggedIn log name) (columns : List Column) :
    ((run (.createTable name columns)).after database).LoggedIn
      (log ++ (run (.createTable name columns)).events database) name := by
  rw [run]
  cases Schema.ofColumns columns with
  | error cause => exact h.append rfl (List.forall_mem_nil _)
  | ok schema =>
    rw [Action.after_bind_of_ok (Action.result_liftExcept _ _), Action.events_bind_of_ok (Action.result_liftExcept _ _),
      Action.after_liftExcept, Action.events_liftExcept, List.nil_append, Action.after_bind_pure, Action.events_bind_pure]
    exact loggedIn_createTable h schema

end

variable [Pattern.Compiler]

/-- What a statement reports on a database of sound tables is what is to be added to the log of every table, whether or not the
statement fails. -/
theorem loggedIn_run {database : Database} (h : database.Sound) {log : List Event} {name : String}
    (hlog : database.LoggedIn log name) (statement : Statement) :
    ((run statement).after database).LoggedIn (log ++ (run statement).events database) name := by
  by_cases hown : statement.table? = some name
  · have hcreates : (∀ columns, statement ≠ .createTable name columns) → ∀ event ∈ (run statement).events database,
        event.creates name = false := fun hne event hevent => (reports_run h hevent).creates_eq_false hne
    cases statement with
    | createTable own columns =>
      obtain rfl := Option.some.inj hown
      exact loggedIn_run_createTable hlog columns
    | dropTable own =>
      -- There is no table left to account for.
      obtain rfl := Option.some.inj hown
      intro table htable
      exact nomatch (table?_run_dropTable own database).symm.trans htable
    | createIndex index own column =>
      obtain rfl := Option.some.inj hown
      exact loggedIn_onTable hlog (fun _ => []) (fun table _ => (Table.sameHeading_createIndex index column table).1)
        (fun table events _ haccounted => Table.accountedBy_createIndex haccounted index column) (hcreates nofun)
    | insert own row =>
      obtain rfl := Option.some.inj hown
      exact loggedIn_onTable hlog (fun _ => []) (fun table _ => (Table.sameHeading_insert row table).1)
        (fun table events _ haccounted => Table.accountedBy_insert haccounted row) (hcreates nofun)
    | select query =>
      refine hlog.append (congrArg (table? · name) (after_fromTable _)) fun event hevent => ?_
      cases reports_run h hevent with
      | selecting _ hresolves => exact hresolves.silentOn name
    | update own assignments condition =>
      obtain rfl := Option.some.inj hown
      refine loggedIn_onTable hlog (fun _ => []) (fun table htable => ?_) (fun table events htable haccounted => ?_)
        (hcreates nofun)
      · exact (Table.sameHeading_update (h.of_table? htable) condition assignments).1
      · exact Table.accountedBy_update haccounted (h.of_table? htable) assignments condition
    | delete own condition =>
      obtain rfl := Option.some.inj hown
      refine loggedIn_onTable hlog (fun _ => []) (fun table htable => ?_) (fun table events htable haccounted => ?_)
        (hcreates nofun)
      · exact (Table.sameHeading_delete (h.of_table? htable) condition).1
      · exact Table.accountedBy_delete haccounted (h.of_table? htable) condition
    | showTables => exact nomatch hown
    | showIndex own =>
      exact hlog.append (congrArg (table? · name) (after_fromTable _)) fun event hevent => nomatch reports_run h hevent
  · refine hlog.append (table?_run_of_ne h hown) fun event hevent => Event.silentOn_of_ne fun heq => hown ?_
    rw [(reports_run h hevent).table?_eq, heq]

/-- What any statements report on a database of sound tables is what is to be added to the log of every table. -/
theorem loggedIn_ran {name : String} (statements : List Statement) : ∀ {database : Database} {log : List Event}, database.Sound →
    database.LoggedIn log name → (database.ran statements).LoggedIn (log ++ database.log statements) name := by
  induction statements with
  | nil =>
    intro database log _ hlog
    rw [Database.log, List.append_nil]
    exact hlog
  | cons statement rest ih =>
    intro database log h hlog
    rw [Database.log, ← List.append_assoc]
    exact ih (sound_run h statement) (loggedIn_run h hlog statement)

/-- Of any run of statements from the empty database, the log tells which rows are live at its end: for every table there is, its
creation is in the log, and its live rows are those that the log reports as inserted and not as deleted since then; no row is
reported twice as either, and none as deleted before it is as inserted. A statement that fails reports nothing but how its condition
was resolved, and one that reports a number of rows updated or deleted has reported each of them: the rows on which its condition
evaluated to true before it ran, in ascending order. -/
theorem log_replays (statements : List Statement) :
    let database := empty.ran statements
    let log := empty.log statements
    (∀ name table, database.table? name = some table → (∃ columns, .tableCreated name columns ∈ log) ∧
      let since := sinceCreated name log
      (∀ offset, (table.row? offset).isSome = true ↔ .rowInserted name offset ∈ since ∧ .rowDeleted name offset ∉ since) ∧
      (∀ offset, since.count (.rowInserted name offset) ≤ 1 ∧ since.count (.rowDeleted name offset) ≤ 1) ∧
      ∀ i offset, since[i]? = some (.rowDeleted name offset) → .rowInserted name offset ∈ since.take i) ∧
    (∀ statement cause, (run statement).result database = .error cause →
      ∀ event ∈ (run statement).events database, ∃ name, event.Resolves name) ∧
    (∀ statement name rows, .rowsUpdated name rows ∈ (run statement).events database → ∃ assignments condition table,
      statement = .update name assignments condition ∧ database.table? name = some table ∧
      table.ReportsRows condition .rowUpdated .rowsUpdated ((run statement).events database) rows) ∧
    ∀ statement name rows, .rowsDeleted name rows ∈ (run statement).events database → ∃ condition table,
      statement = .delete name condition ∧ database.table? name = some table ∧
      table.ReportsRows condition .rowDeleted .rowsDeleted ((run statement).events database) rows := by
  intro database log
  have h : database.Sound := sound_ran sound_empty statements
  refine ⟨fun name table htable => ?_, failsQuietly_run h, fun statement name rows hmem => ?_, fun statement name rows hmem => ?_⟩
  · have hlogged : database.LoggedIn ([] ++ log) name := loggedIn_ran statements sound_empty nofun
    rw [List.nil_append] at hlogged
    obtain ⟨hcreated, haccounted⟩ := hlogged table htable
    refine ⟨hcreated, ?_⟩
    obtain rfl : table.name = name := (of_table? htable).2
    refine ⟨haccounted.live_iff, fun offset => ⟨?_, ?_⟩, haccounted.ordered⟩
    · rw [haccounted.inserted]
      split <;> decide
    · rw [haccounted.deleted]
      split <;> decide
  · cases reports_run h hmem with
    | rowsUpdated _ assignments condition _ =>
      obtain ⟨table, htable, hreports⟩ := reportsRows_run_update h hmem
      exact ⟨assignments, condition, table, rfl, htable, hreports⟩
    | selecting _ hresolves => exact nomatch hresolves
    | updating _ _ _ hresolves => exact nomatch hresolves
    | deleting _ _ hresolves => exact nomatch hresolves
  · cases reports_run h hmem with
    | rowsDeleted _ condition _ =>
      obtain ⟨table, htable, hreports⟩ := reportsRows_run_delete h hmem
      exact ⟨condition, table, rfl, htable, hreports⟩
    | selecting _ hresolves => exact nomatch hresolves
    | updating _ _ _ hresolves => exact nomatch hresolves
    | deleting _ _ hresolves => exact nomatch hresolves

end Database

end SqlEngine
