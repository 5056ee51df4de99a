import SqlEngine.Proofs.Events
import SqlEngine.Proofs.Table.Checked
import SqlEngine.Proofs.Table.Permanence

/-!
# What a change of a table reports

A change of a row reports one event where it is made, and none where it fails (`events_changeRow`, `events_retireRow`); resolving a
condition reports how its predicates are resolved and nothing else (`resolves_resolve`). A deletion or an update is either refused
as a whole, and then reports nothing more, or it goes on with an event for each row of its condition and one with their number
(`delete_cases`, `update_cases`).
-/

namespace SqlEngine

/-- The event tells how a predicate was resolved on the table of the name. -/
inductive Event.Resolves (table : String) : Event → Prop where
  | throughIndex (column : String) (operator : Operator) : Resolves table (.resolvedThroughIndex table column operator)
  | byScan (column : String) (operator : Operator) : Resolves table (.resolvedByScan table column operator)

namespace Table

/-! ## Changes without checks -/

theorem events_appendRow (row : Row) (table : Table) : (appendRow row).events table = [.rowInserted table.name table.size] := rfl

/-- The change of a single value is not reported. -/
theorem events_changeValue (offset position : Nat) (value : Value) (table : Table) :
    (changeValue offset position value).events table = [] := by
  unfold changeValue
  rw [Action.events_state_bind]
  split
  · rfl
  · split <;> rfl

/-- A change of a row is reported if all of it was made. -/
theorem events_changeRow (offset : Nat) (changes : List (Nat × Value)) (table : Table) :
    (changeRow offset changes).events table =
      match (changeRow offset changes).result table with
      | .error _ => []
      | .ok _ => [.rowUpdated table.name offset] := by
  have hchanges : (forM changes fun change => changeValue offset change.1 change.2).events table = [] :=
    Action.events_forM_eq_nil (fun change _ between => events_changeValue offset change.1 change.2 between) table
  rw [result_changeRow]
  unfold changeRow
  rw [Action.events_state_bind]
  split
  · rfl
  · rw [List.forM_eq_forM, Action.events_bind, hchanges, List.nil_append]
    cases (forM changes fun change => changeValue offset change.1 change.2).result table <;> rfl

/-- A row is reported as deleted if there was one. -/
theorem events_retireRow (offset : Nat) (table : Table) : (retireRow offset).events table =
    if (table.row? offset).isSome then [.rowDeleted table.name offset] else [] := by
  unfold retireRow
  rw [Action.events_state_bind]
  cases table.row? offset <;> rfl

/-- An index is reported if it was created. -/
theorem events_createIndex (name column : String) (table : Table) :
    (∃ values height superseded, (createIndex name column).events table =
      [.indexCreated table.name name column values height superseded]) ∧
      (createIndex name column).result table = .ok () ∨
    (createIndex name column).events table = [] ∧ ∃ cause, (createIndex name column).result table = .error cause := by
  rw [result_createIndex]
  unfold createIndex
  rw [Action.events_state_bind]
  split
  · exact Or.inr ⟨rfl, _, rfl⟩
  · rw [Action.events_bind, Action.result_liftExcept]
    cases table.schema.locate column with
    | error cause => exact Or.inr ⟨rfl, cause, rfl⟩
    | ok found => exact Or.inl ⟨⟨_, _, _, rfl⟩, rfl⟩

/-- Live rows that are retired one after the other, each once, are all reported. -/
theorem events_retireEach {table : Table} {offsets : List Nat} (hdistinct : offsets.Nodup)
    (hlive : ∀ offset ∈ offsets, (table.row? offset).isSome = true) :
    (forM offsets retireRow).events table = offsets.map (.rowDeleted table.name) := by
  refine Action.forM_reports (P := fun offsets between => between.name = table.name ∧ offsets.Nodup ∧
    ∀ offset ∈ offsets, (between.row? offset).isSome = true) ?_ offsets ⟨rfl, hdistinct, hlive⟩
  rintro offset rest between ⟨hname, hdistinct, hlive⟩
  obtain ⟨hfirst, hothers⟩ := List.nodup_cons.mp hdistinct
  obtain ⟨hrow, hrest⟩ := List.forall_mem_cons.mp hlive
  refine ⟨result_retireRow_of_live hrow, ?_, (sameHeading_retireRow offset between).1.trans hname, hothers, ?_⟩
  · rw [events_retireRow, if_pos hrow, hname]
  · intro other hother
    have hne : other ≠ offset := fun heq => hfirst (heq ▸ hother)
    rw [row?_retireRow, if_neg hne]
    exact hrest other hother

/-- Changes that suit the schema, made to live rows one after the other, are all reported. -/
theorem events_changeEach {table : Table} (h : table.Sound) {offsets : List Nat}
    (hlive : ∀ offset ∈ offsets, (table.row? offset).isSome = true) {changes : List (Nat × Value)}
    (hchanges : ∀ change ∈ changes, table.schema.Takes change) :
    (forM offsets fun offset => changeRow offset changes).events table = offsets.map (.rowUpdated table.name) := by
  refine Action.forM_reports (P := fun offsets between => table.Revision between ∧ between.name = table.name ∧
    ∀ offset ∈ offsets, (table.row? offset).isSome = true) ?_ offsets ⟨Revision.refl h, rfl, hlive⟩
  rintro offset rest between ⟨hrevision, hname, hlive⟩
  obtain ⟨hrow, hrest⟩ := List.forall_mem_cons.mp hlive
  obtain ⟨hresult, hafter⟩ := revision_changeRow hrevision.sound ((hrevision.live offset).trans hrow)
    (hrevision.schema.symm ▸ hchanges)
  refine ⟨hresult, ?_, hrevision.trans hafter, (sameHeading_changeRow offset changes between).1.trans hname, hrest⟩
  rw [events_changeRow, hresult, hname]

/-! ## Resolving conditions -/

section

variable [Pattern.Compiler] (table : Table)

theorem resolves_resolvePredicate (predicate : Predicate) :
    (table.resolvePredicate predicate).ReportsOnly (Event.Resolves table.name) := by
  unfold resolvePredicate
  refine Outcome.ReportsOnly.bind nofun fun answer => ?_
  cases answer with
  | none =>
    refine Outcome.ReportsOnly.bind ?_ fun _ => nofun
    rintro event ⟨⟩
    · exact .byScan _ _
    next hnone => exact nomatch hnone
  | some found =>
    refine Outcome.ReportsOnly.bind ?_ fun _ => nofun
    rintro event ⟨⟩
    · exact .throughIndex _ _
    next hnone => exact nomatch hnone

theorem resolves_narrow {clauses : List Condition}
    (h : ∀ clause ∈ clauses, (table.resolveCondition clause).ReportsOnly (Event.Resolves table.name)) :
    ∀ found, (table.narrow found clauses).ReportsOnly (Event.Resolves table.name) := by
  induction clauses with
  | nil => exact fun found => nofun
  | cons clause rest ih =>
    obtain ⟨hclause, hrest⟩ := List.forall_mem_cons.mp h
    exact fun found => hclause.bind fun others => ih hrest _

theorem resolves_widen {clauses : List Condition}
    (h : ∀ clause ∈ clauses, (table.resolveCondition clause).ReportsOnly (Event.Resolves table.name)) :
    ∀ found, (table.widen found clauses).ReportsOnly (Event.Resolves table.name) := by
  induction clauses with
  | nil => exact fun found => nofun
  | cons clause rest ih =>
    obtain ⟨hclause, hrest⟩ := List.forall_mem_cons.mp h
    exact fun found => hclause.bind fun others => ih hrest _

theorem resolves_resolveCondition (condition : Condition) :
    (table.resolveCondition condition).ReportsOnly (Event.Resolves table.name) := by
  induction condition with
  | node own ands ors ihands ihors =>
    unfold resolveCondition
    refine (table.resolves_resolvePredicate own).bind fun found => ?_
    exact (table.resolves_narrow ihands found).bind fun narrowed => table.resolves_widen ihors narrowed

/-- Resolving a condition reports how its predicates are resolved. -/
theorem resolves_resolve (condition : Option Condition) :
    (table.resolve condition).ReportsOnly (Event.Resolves table.name) := by
  cases condition with
  | none => exact nofun
  | some condition => exact table.resolves_resolveCondition condition

/-- A query reports how its condition is resolved. -/
theorem resolves_select (query : Query) : (table.select query).ReportsOnly (Event.Resolves table.name) := by
  unfold select
  refine Outcome.ReportsOnly.bind nofun fun plan => ?_
  exact (table.resolves_resolve query.condition).bind fun offsets => Outcome.ReportsOnly.bind nofun fun rows => nofun

end

/-! ## Checked changes -/

/-- A row is reported as inserted if it suits the schema. -/
theorem events_insert (row : Row) (table : Table) : (insert row).events table =
    if table.schema.Admits row then [.rowInserted table.name table.size] else [] := by
  have hrow : table.schema.checkRow table.name row = .ok () ↔ table.schema.Admits row := Schema.checkRow_eq_ok_iff
  unfold insert
  rw [Action.events_state_bind]
  unfold Schema.checkRow at hrow
  split
  next hlength =>
    rw [if_pos hlength] at hrow
    rw [if_neg fun h => nomatch hrow.mpr h]
    rfl
  next hlength =>
    rw [if_neg hlength] at hrow
    rw [List.forM_eq_forM, Action.events_bind, Action.result_forM_check, Action.after_forM_check,
      Action.events_forM_eq_nil fun _ _ _ => rfl]
    split
    next herror => rw [if_neg fun h => nomatch herror.symm.trans (hrow.mpr h)]; rfl
    next hok => rw [if_pos (hrow.mp hok)]; rfl

variable [Pattern.Compiler]

section

variable {table : Table} (h : table.Sound) {condition : Option Condition}

include h

/-- What is done to all rows of a condition is reported once the condition has been resolved, and with the number of rows at the
end; nothing of it is where the condition cannot be used. -/
theorem events_eachRow {step : Nat → Action Table Unit} (event : Nat → Event)
    (hloop : (forM (table.offsetsWhere (table.schema.selects condition)).toList step).result table = .ok ()) :
    ∃ resolution, (∀ event ∈ resolution, event.Resolves table.name) ∧
      (table.eachRow condition step event).events table = resolution ++
        match table.schema.ready condition with
        | .error _ => []
        | .ok _ => (forM (table.offsetsWhere (table.schema.selects condition)).toList step).events table ++
            [event (table.offsetsWhere (table.schema.selects condition)).size] := by
  unfold eachRow Schema.ready
  rw [Action.events_bind, Action.result_liftExcept, Action.after_liftExcept]
  cases hcheck : table.schema.check condition with
  | error cause => exact ⟨[], nofun, rfl⟩
  | ok _ =>
    refine ⟨(table.resolve condition).events, table.resolves_resolve condition, ?_⟩
    dsimp only
    rw [ExceptAux.ok_bind, Action.events_bind, Action.result_liftOutcome, Action.after_liftOutcome, result_resolve h hcheck]
    cases condition.forM Condition.prepare with
    | error cause => rfl
    | ok _ =>
      dsimp only [ExceptAux.ok_bind]
      rw [List.forM_eq_forM, Action.events_bind_of_ok hloop]
      rfl

end

/-! ## The rows of a condition -/

/-- The events tell how a condition is resolved on the table, then of each of its rows in ascending order, and last of the number
of rows; the rows are those live ones on which the condition evaluates to true. -/
def ReportsRows (table : Table) (condition : Option Condition) (each total : String → Nat → Event) (events : List Event)
    (rows : Nat) : Prop :=
  ∃ (resolution : List Event) (offsets : List Nat),
    events = resolution ++ (offsets.map (each table.name) ++ [total table.name rows]) ∧
    (∀ event ∈ resolution, event.Resolves table.name) ∧ rows = offsets.length ∧ offsets.Pairwise (· < ·) ∧
    ∀ offset, offset ∈ offsets ↔
      ∃ row, table.row? offset = some row ∧ ∀ clause ∈ condition, clause.truth table.schema row = .ok true

section

variable {table : Table} (h : table.Sound) {condition : Option Condition}

include h

/-- On a sound table, to tell of the rows of a condition that can be used is to tell of the rows on which it evaluates to true. -/
theorem reportsRows_of_ready (hready : table.schema.ready condition = .ok ()) {resolution : List Event}
    (hresolution : ∀ event ∈ resolution, event.Resolves table.name) (each total : String → Nat → Event) :
    table.ReportsRows condition each total
      (resolution ++ ((table.offsetsWhere (table.schema.selects condition)).toList.map (each table.name) ++
        [total table.name (table.offsetsWhere (table.schema.selects condition)).size]))
      (table.offsetsWhere (table.schema.selects condition)).size := by
  refine ⟨resolution, _, rfl, hresolution, rfl, (table.offsetsWhere _).ascending, fun offset => ?_⟩
  refine mem_offsetsWhere.trans (exists_congr fun row => and_congr_right fun hrow => ?_)
  exact Schema.selects_iff hready (h.typed offset row hrow)

end

/-! ## Deleting and updating -/

/-- The action fails, leaves the table as it is, and reports nothing but how conditions are resolved. -/
structure Refuses {α : Type} (table : Table) (action : Action Table α) : Prop where
  result : ∃ cause, action.result table = .error cause
  after : action.after table = table
  events : ∀ event ∈ action.events table, event.Resolves table.name

/-- The action resolves the condition, takes the step for each of its rows, and reports `each` of them and their number as the
`total`. -/
structure DoesForRows (table : Table) (condition : Option Condition) (action : Action Table Nat) (step : Nat → Action Table Unit)
    (each total : String → Nat → Event) : Prop where
  usable : table.schema.ready condition = .ok ()
  result : action.result table = .ok (table.offsetsWhere (table.schema.selects condition)).size
  after : action.after table = (forM (table.offsetsWhere (table.schema.selects condition)).toList step).after table
  steps : (forM (table.offsetsWhere (table.schema.selects condition)).toList step).events table =
    (table.offsetsWhere (table.schema.selects condition)).toList.map (each table.name)
  events : ∃ resolution, (∀ event ∈ resolution, event.Resolves table.name) ∧ action.events table = resolution ++
    ((forM (table.offsetsWhere (table.schema.selects condition)).toList step).events table ++
      [total table.name (table.offsetsWhere (table.schema.selects condition)).size])

/-- Such an action reports how the condition is resolved, some of the rows, and, if it reports a number of rows, all of them. -/
theorem DoesForRows.mem_events {table : Table} (h : table.Sound) {condition : Option Condition} {action : Action Table Nat}
    {step : Nat → Action Table Unit} {each total : String → Nat → Event}
    (hdoes : table.DoesForRows condition action step each total) {event : Event} (hmem : event ∈ action.events table) :
    event.Resolves table.name ∨ (∃ offset, event = each table.name offset) ∨
      ∃ rows, event = total table.name rows ∧ table.ReportsRows condition each total (action.events table) rows := by
  obtain ⟨resolution, hresolution, hevents⟩ := hdoes.events
  rw [hdoes.steps] at hevents
  have hreports := reportsRows_of_ready h hdoes.usable hresolution each total
  rw [← hevents] at hreports
  rw [hevents] at hmem
  rcases List.mem_append.mp hmem with hresolves | hrest
  · exact Or.inl (hresolution event hresolves)
  · rcases List.mem_append.mp hrest with heach | htotal
    · obtain ⟨offset, -, rfl⟩ := List.mem_map.mp heach
      exact Or.inr (Or.inl ⟨offset, rfl⟩)
    · exact Or.inr (Or.inr ⟨_, List.mem_singleton.mp htotal, hreports⟩)

section

variable {table : Table} (h : table.Sound) (condition : Option Condition)

include h

/-- A deletion retires the rows of its condition, or it is refused. -/
theorem delete_cases : table.Refuses (delete condition) ∨
    table.DoesForRows condition (delete condition) retireRow .rowDeleted .rowsDeleted := by
  have hloop := (retireEach_offsetsWhere h (table.schema.selects condition)).1
  obtain ⟨resolution, hresolution, hevents⟩ := events_eachRow h (.rowsDeleted table.name) hloop
  have hresult := result_delete h condition
  have hafter := after_delete h condition
  have hreported : (delete condition).events table =
      (table.eachRow condition retireRow (.rowsDeleted table.name)).events table := by
    rw [delete_eq, Action.events_state_bind]
  rw [hevents] at hreported
  cases hready : table.schema.ready condition with
  | error cause =>
    rw [hready] at hresult hafter hreported
    refine Or.inl ⟨⟨cause, hresult⟩, hafter, fun event hmem => hresolution event ?_⟩
    rwa [hreported, List.append_nil] at hmem
  | ok _ =>
    rw [hready] at hresult hafter hreported
    refine Or.inr ⟨hready, hresult, hafter, ?_, resolution, hresolution, hreported⟩
    exact events_retireEach ((table.offsetsWhere _).ascending.imp Nat.ne_of_lt) (live_of_mem_offsetsWhere table _)

/-- An update changes the rows of its condition, each in the same way, or it is refused. -/
theorem update_cases (assignments : List Assignment) : table.Refuses (update assignments condition) ∨
    ∃ changes, table.DoesForRows condition (update assignments condition) (changeRow · changes) .rowUpdated .rowsUpdated := by
  have hresult := result_update h condition assignments
  have hafter := after_update h condition assignments
  cases hassigned : assignments.mapM (·.change table.schema) with
  | error cause =>
    have hchanges : table.schema.changes assignments condition = .error cause := by
      rw [Schema.changes, hassigned, ExceptAux.error_bind]
    rw [hchanges] at hresult hafter
    refine Or.inl ⟨⟨cause, hresult⟩, hafter, ?_⟩
    rw [update_eq, Action.events_state_bind, hassigned]
    exact nofun
  | ok changes =>
    have hsuits := Assignment.takes_of_mapM hassigned
    have hlive := live_of_mem_offsetsWhere table (table.schema.selects condition)
    obtain ⟨resolution, hresolution, hevents⟩ := events_eachRow h (.rowsUpdated table.name)
      (revision_changeEach h hlive hsuits).1
    have hreported : (update assignments condition).events table =
        (table.eachRow condition (changeRow · changes) (.rowsUpdated table.name)).events table := by
      rw [update_eq, Action.events_state_bind, hassigned]
      rfl
    rw [hevents] at hreported
    have hchanges : table.schema.changes assignments condition = table.schema.ready condition >>= fun _ => .ok changes := by
      rw [Schema.changes, hassigned, ExceptAux.ok_bind]
      rfl
    cases hready : table.schema.ready condition with
    | error cause =>
      rw [hchanges, hready] at hresult hafter
      rw [hready] at hreported
      refine Or.inl ⟨⟨cause, hresult⟩, hafter, fun event hmem => hresolution event ?_⟩
      rwa [hreported, List.append_nil] at hmem
    | ok _ =>
      rw [hchanges, hready] at hresult hafter
      rw [hready] at hreported
      exact Or.inr ⟨changes, hready, hresult, hafter, events_changeEach h hlive hsuits, resolution, hresolution, hreported⟩

end

end Table

end SqlEngine
