import SqlEngine.Proofs.Database.Tables

/-!
# Failures leave no trace

A statement is done as a whole or not at all: on a database of sound tables a statement that fails leaves the database as it
was (`atomicAt_run`). Nothing undoes what was done before an error; it is the checks that come first which leave nothing to
fail once a row has been touched. A script is read as a whole before its first statement is run, and then its statements are
run up to the first that fails (`mapM_run_of_runs`, `mapM_run_of_failure`), so what a failing script leaves is what the
statements before the failing one leave (`failures_leave_no_trace`).
-/

namespace SqlEngine

/-! ## Actions that fail without a trace -/

namespace Action

variable {σ α β : Type} {action : Action σ α} {state : σ}

/-- If the action fails from the state, it leaves the state as it is. -/
def AtomicAt (action : Action σ α) (state : σ) : Prop :=
  ∀ cause, action.result state = .error cause → action.after state = state

/-- An action that never changes the state fails without a trace. -/
theorem atomicAt_of_after_eq (h : action.after state = state) : action.AtomicAt state := fun _ _ => h

/-- To make something else of what an action ends in does not make it fail. -/
theorem AtomicAt.bind_pure (h : action.AtomicAt state) (f : α → β) :
    (action >>= fun value => pure (f value)).AtomicAt state := by
  intro cause hcause
  rw [result_bind] at hcause
  rw [after_bind_pure]
  rcases ExceptAux.bind_eq_error_iff.mp hcause with herror | ⟨value, -, herror⟩
  · exact h cause herror
  · exact nomatch herror

/-- A check before an action fails without a trace if the action does. -/
theorem AtomicAt.after_check {check : Except Error β} {next : β → Action σ α}
    (h : ∀ value, check = .ok value → (next value).AtomicAt state) :
    ((liftM check : Action σ β) >>= next).AtomicAt state := by
  intro cause hcause
  rw [result_bind, result_liftExcept, after_liftExcept] at hcause
  rw [after_bind, result_liftExcept, after_liftExcept]
  cases hcheck : check with
  | error _ => rfl
  | ok value =>
    rw [hcheck, ExceptAux.ok_bind] at hcause
    exact h value hcheck cause hcause

end Action

/-! ## Changes of one table -/

namespace Table

variable {table : Table}

/-- A row that is refused is not stored. -/
theorem atomicAt_insert (row : Row) : (insert row).AtomicAt table := by
  intro cause hcause
  rw [result_insert] at hcause
  rw [after_insert]
  rcases ExceptAux.bind_eq_error_iff.mp hcause with hrefused | ⟨_, -, hsize⟩
  · have hadmits : ¬table.schema.Admits row := by
      intro hadmits
      rw [Schema.checkRow_eq_ok_iff.mpr hadmits] at hrefused
      exact nomatch hrefused
    rw [if_neg hadmits]
  · exact nomatch hsize

/-- An index that is refused is not created. -/
theorem atomicAt_createIndex (name column : String) : (createIndex name column).AtomicAt table := by
  intro cause hcause
  rcases createIndex_cases name column table with ⟨_, _, -, -, hresult, -⟩ | ⟨-, -, hafter⟩
  · rw [hresult] at hcause
    exact nomatch hcause
  · exact hafter

variable [Pattern.Compiler]

/-- A deletion that fails has retired no row. -/
theorem atomicAt_delete (h : table.Sound) (condition : Option Condition) : (delete condition).AtomicAt table := by
  intro cause hcause
  rw [result_delete h] at hcause
  rw [after_delete h]
  cases hready : table.schema.ready condition with
  | error _ => rfl
  | ok _ =>
    rw [hready] at hcause
    exact nomatch hcause

/-- An update that fails has changed no row. -/
theorem atomicAt_update (h : table.Sound) (condition : Option Condition) (assignments : List Assignment) :
    (update assignments condition).AtomicAt table := by
  intro cause hcause
  rw [result_update h] at hcause
  rw [after_update h]
  cases hchanges : table.schema.changes assignments condition with
  | error _ => rfl
  | ok _ =>
    rw [hchanges] at hcause
    exact nomatch hcause

end Table

namespace Database

/-! ## Statements -/

/-- What fails on a table without a trace fails without a trace on the database. -/
theorem atomicAt_onTable {α : Type} {database : Database} {name : String} {action : Action Table α}
    (h : ∀ table, database.table? name = some table → action.AtomicAt table) :
    (onTable name action).AtomicAt database := by
  intro cause hcause
  rw [result_onTable, onFound] at hcause
  rw [after_onTable]
  cases htable : database.table? name with
  | none => rfl
  | some table =>
    simp only [htable] at hcause
    show database.put (action.after table) = database
    rw [h table htable cause hcause]
    exact put_of_table? htable

variable [Pattern.Compiler]

/-- On a database of sound tables a statement that fails leaves the database as it is. -/
theorem atomicAt_run {database : Database} (h : database.Sound) (statement : Statement) :
    (run statement).AtomicAt database := by
  cases statement with
  | createTable name columns =>
    refine Action.AtomicAt.after_check fun schema _ => Action.AtomicAt.bind_pure ?_ fun _ => []
    intro cause hcause
    rw [result_createTable] at hcause
    rw [after_createTable]
    split at hcause
    next hexists => rw [if_pos hexists]
    next => exact nomatch hcause
  | dropTable name =>
    refine Action.AtomicAt.bind_pure ?_ fun _ => []
    intro cause hcause
    rw [result_dropTable] at hcause
    rw [after_dropTable]
    split at hcause
    next => exact nomatch hcause
    next hunknown => rw [if_neg hunknown]
  | createIndex name table column =>
    exact (atomicAt_onTable fun _ _ => Table.atomicAt_createIndex name column).bind_pure fun _ => []
  | insert table row => exact (atomicAt_onTable fun _ _ => Table.atomicAt_insert row).bind_pure fun _ => []
  | select query => exact Action.atomicAt_of_after_eq (after_fromTable _)
  | update table assignments condition =>
    refine (atomicAt_onTable fun found hfound => ?_).bind_pure fun _ => []
    exact Table.atomicAt_update (h.of_table? hfound) condition assignments
  | delete table condition =>
    refine (atomicAt_onTable fun found hfound => ?_).bind_pure fun _ => []
    exact Table.atomicAt_delete (h.of_table? hfound) condition
  | showTables => exact Action.atomicAt_of_after_eq rfl
  | showIndex table => exact Action.atomicAt_of_after_eq (after_fromTable _)

/-! ## Scripts -/

/-- The statements succeed one after the other, from the first database to the second, and show these rows. -/
inductive Runs : Database → Script → List (List Row) → Database → Prop where
  | nil (database : Database) : Runs database [] [] database
  | cons {database last : Database} {statement : Statement} {rest : Script} {rows : List Row} {results : List (List Row)}
      (hfirst : (run statement).result database = .ok rows)
      (hrest : Runs ((run statement).after database) rest results last) :
      Runs database (statement :: rest) (rows :: results) last

/-- Every statement that succeeds leaves sound tables, so any number of them do. -/
theorem Runs.sound {database last : Database} {script : Script} {results : List (List Row)}
    (h : database.Runs script results last) (hsound : database.Sound) : last.Sound := by
  induction h with
  | nil _ => exact hsound
  | cons _ _ ih => exact ih (sound_run hsound _)

/-- Statements that succeed one after the other are all run, and their results are given in order. -/
theorem mapM_run_of_runs {database last : Database} {script : Script} {results : List (List Row)}
    (h : database.Runs script results last) :
    (script.mapM run).result database = .ok results ∧ (script.mapM run).after database = last := by
  induction h with
  | nil database => exact ⟨rfl, rfl⟩
  | cons hfirst _ ih =>
    obtain ⟨hresult, hafter⟩ := ih
    constructor
    · rw [List.mapM_cons, Action.result_bind, hfirst, ExceptAux.ok_bind, Action.result_bind, hresult]
      rfl
    · rw [List.mapM_cons, Action.after_bind_of_ok hfirst, Action.after_bind_pure, hafter]

/-- After statements that succeed, one that fails ends the run with its error; those after it are not run. -/
theorem mapM_run_of_failure {database between : Database} {done : Script} {results : List (List Row)}
    (h : database.Runs done results between) {failing : Statement} {cause : Error}
    (hfailing : (run failing).result between = .error cause) (rest : Script) :
    ((done ++ failing :: rest).mapM run).result database = .error cause ∧
      ((done ++ failing :: rest).mapM run).after database = (run failing).after between := by
  induction h with
  | nil database =>
    constructor
    · rw [List.nil_append, List.mapM_cons, Action.result_bind, hfailing, ExceptAux.error_bind]
    · rw [List.nil_append, List.mapM_cons, Action.after_bind_of_error hfailing]
  | cons hfirst _ ih =>
    obtain ⟨hresult, hafter⟩ := ih hfailing
    constructor
    · rw [List.cons_append, List.mapM_cons, Action.result_bind, hfirst, ExceptAux.ok_bind, Action.result_bind, hresult,
        ExceptAux.error_bind]
    · rw [List.cons_append, List.mapM_cons, Action.after_bind_of_ok hfirst, Action.after_bind_pure, hafter]

/-- Either all statements of a script succeed one after the other, or there is a first one that fails. -/
theorem runs_or_fails (script : Script) : ∀ database : Database,
    (∃ results last, database.Runs script results last) ∨
      ∃ done failing rest results between cause, script = done ++ failing :: rest ∧ database.Runs done results between ∧
        (run failing).result between = .error cause := by
  induction script with
  | nil => exact fun database => Or.inl ⟨[], database, .nil database⟩
  | cons statement rest ih =>
    intro database
    cases hfirst : (run statement).result database with
    | error cause => exact Or.inr ⟨[], statement, rest, [], database, cause, rfl, .nil database, hfirst⟩
    | ok rows =>
      rcases ih ((run statement).after database) with ⟨results, last, hruns⟩ |
        ⟨done, failing, others, results, between, cause, rfl, hruns, hfailing⟩
      · exact Or.inl ⟨rows :: results, last, .cons hfirst hruns⟩
      · exact Or.inr ⟨statement :: done, failing, others, rows :: results, between, cause, rfl, .cons hfirst hruns, hfailing⟩

/-- A text that is no script is not run. -/
theorem runScript_of_error {text : String} {cause : ParseError} (h : Script.ofText text = .error cause)
    (database : Database) :
    (runScript text).result database = .error (.parse cause) ∧ (runScript text).after database = database := by
  unfold runScript
  rw [h]
  exact ⟨rfl, rfl⟩

/-- A text that is a script is run as the script. -/
theorem runScript_of_ok {text : String} {script : Script} (h : Script.ofText text = .ok script) (database : Database) :
    (runScript text).result database = (script.mapM run).result database ∧
      (runScript text).after database = (script.mapM run).after database := by
  unfold runScript
  rw [h]
  exact ⟨rfl, rfl⟩

/-! ## Whatever was asked before -/

/-- What a database can be asked: to run a statement, the one statement that a text is, or the script that a text is. -/
inductive Request where
  | statement (statement : Statement)
  | text (text : String)
  | script (text : String)
  deriving Repr

/-- The database after a request, whether or not it failed. -/
def afterRequest (database : Database) : Request → Database
  | .statement statement => (run statement).after database
  | .text text => (runText text).after database
  | .script text => (runScript text).after database

/-- The database after requests, one after the other; one that fails does not stop those after it. -/
def served (database : Database) (requests : List Request) : Database :=
  requests.foldl afterRequest database

/-- Running the statements of a script leaves sound tables, wherever the run stops. -/
theorem sound_mapM_run (script : Script) : ∀ {database : Database}, database.Sound →
    ((script.mapM run).after database).Sound := by
  intro database h
  rcases runs_or_fails script database with ⟨results, last, hruns⟩ |
    ⟨done, failing, rest, results, between, cause, rfl, hruns, hfailing⟩
  · rw [(mapM_run_of_runs hruns).2]
    exact hruns.sound h
  · rw [(mapM_run_of_failure hruns hfailing rest).2]
    exact sound_run (hruns.sound h) failing

/-- Every request leaves sound tables. -/
theorem sound_afterRequest {database : Database} (h : database.Sound) (request : Request) :
    (database.afterRequest request).Sound := by
  cases request with
  | statement statement => exact sound_run h statement
  | text text =>
    show ((runText text).after database).Sound
    unfold runText
    cases Statement.ofText text with
    | error cause => exact h
    | ok statement => exact sound_run h statement
  | script text =>
    show ((runScript text).after database).Sound
    cases hscript : Script.ofText text with
    | error cause => rwa [(runScript_of_error hscript database).2]
    | ok script =>
      rw [(runScript_of_ok hscript database).2]
      exact sound_mapM_run script h

/-- Whatever a database of sound tables is asked, its tables stay sound. -/
theorem sound_served (requests : List Request) : ∀ {database : Database}, database.Sound →
    (database.served requests).Sound := by
  induction requests with
  | nil => exact fun h => h
  | cons request rest ih =>
    intro database h
    exact ih (sound_afterRequest h request)

/-- Whatever was asked before, a statement that fails leaves the database as it is. So a text that is no script leaves it as
it is too, and a script does what its statements do one after the other: if all of them succeed it gives all their results,
and else it stops at the first that fails, in its error and in the database that those before it leave. -/
theorem failures_leave_no_trace (requests : List Request) :
    let database := empty.served requests
    (∀ statement cause, (run statement).result database = .error cause → (run statement).after database = database) ∧
    ∀ text,
      (∀ cause, Script.ofText text = .error cause →
        (runScript text).result database = .error (.parse cause) ∧ (runScript text).after database = database) ∧
      ∀ script, Script.ofText text = .ok script →
        (∃ results last, database.Runs script results last ∧
          (runScript text).result database = .ok results ∧ (runScript text).after database = last) ∨
        ∃ done failing rest results between cause, script = done ++ failing :: rest ∧
          database.Runs done results between ∧ (run failing).result between = .error cause ∧
          (runScript text).result database = .error cause ∧ (runScript text).after database = between := by
  intro database
  have h : database.Sound := sound_served requests sound_empty
  refine ⟨atomicAt_run h, fun text => ⟨fun cause hcause => runScript_of_error hcause database, fun script hscript => ?_⟩⟩
  obtain ⟨hresult, hafter⟩ := runScript_of_ok hscript database
  rw [hresult, hafter]
  rcases runs_or_fails script database with ⟨results, last, hruns⟩ |
    ⟨done, failing, rest, results, between, cause, rfl, hruns, hfailing⟩
  · exact Or.inl ⟨results, last, hruns, mapM_run_of_runs hruns⟩
  · obtain ⟨hstops, hstate⟩ := mapM_run_of_failure hruns hfailing rest
    -- The failing statement itself leaves no trace, since those before it have left sound tables.
    rw [atomicAt_run (hruns.sound h) failing cause hfailing] at hstate
    exact Or.inr ⟨done, failing, rest, results, between, cause, rfl, hruns, hfailing, hstops, hstate⟩

end Database

end SqlEngine
