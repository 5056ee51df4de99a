import SqlEngine.Table.Mutation
import SqlEngine.Proofs.Table.Soundness

/-!
# Checked changes

What `insert`, `update` and `delete` check before they touch a row, and that this is enough: on a sound table they end in
what their checks end in (`result_insert`, `result_delete`, `result_update`), make all the changes that they are about or
none of them (`after_insert`, `after_delete`, `after_update`), and leave a sound table either way.
-/

namespace SqlEngine

/-! ## Checks -/

/-- A value passes the check of a column exactly when it is of its type. -/
theorem Column.check_eq_ok_iff {column : Column} {value : Value} :
    column.check value = .ok () ↔ value.dataType = column.type := by
  unfold Column.check
  split
  next h => exact iff_of_true rfl h
  next h => exact iff_of_false nofun h

namespace Schema

/-- The check of a row to be inserted into the table of a name: of its length first, and then of its values in order. -/
def checkRow (schema : Schema) (table : String) (row : Row) : Except Error Unit :=
  if row.length ≠ schema.size then .error (.arity row.length table schema.size)
  else forM (schema.columns.zip row) fun entry => entry.1.check entry.2

/-- A row passes its check exactly when it suits the schema. -/
theorem checkRow_eq_ok_iff {schema : Schema} {table : String} {row : Row} :
    schema.checkRow table row = .ok () ↔ schema.Admits row := by
  rw [admits_iff, checkRow]
  by_cases hlength : row.length = schema.size
  · rw [if_neg (not_not.mpr hlength), ExceptAux.forM_eq_ok_iff]
    simp only [Column.check_eq_ok_iff, hlength, true_and, Prod.forall]
  · rw [if_pos hlength]
    exact iff_of_false nofun fun h => hlength h.1

/-- Whether the row is one of a condition; without a condition every row is. -/
def selects (schema : Schema) (condition : Option Condition) (row : Row) : Bool :=
  condition.all (·.holds schema row)

variable [Pattern.Compiler]

/-- Checks a condition, where there is one, and makes it ready. -/
def ready (schema : Schema) (condition : Option Condition) : Except Error Unit := do
  schema.check condition
  condition.forM Condition.prepare

/-- A condition can be used on the tables of a schema exactly when all its predicates suit it and their patterns can be made
ready. -/
theorem ready_eq_ok_iff {schema : Schema} {condition : Option Condition} : schema.ready condition = .ok () ↔
    ∀ clause ∈ condition, ∀ predicate ∈ clause.predicates, predicate.check schema = .ok () ∧ predicate.Compiles := by
  unfold ready
  cases condition with
  | none => exact iff_of_true rfl nofun
  | some clause =>
    simp only [ExceptAux.check_bind_eq_ok_iff, check, Option.forM, Condition.check_eq_ok_iff, Condition.prepare_eq_ok_iff,
      Option.mem_some_iff, forall_eq', forall_and]

/-- A condition that can be used selects the rows on which it evaluates to true. -/
theorem selects_iff {schema : Schema} {condition : Option Condition} (hready : schema.ready condition = .ok ()) {row : Row}
    (hrow : schema.Admits row) :
    schema.selects condition row = true ↔ ∀ clause ∈ condition, clause.truth schema row = .ok true := by
  rw [ready_eq_ok_iff] at hready
  cases condition with
  | none => exact iff_of_true rfl nofun
  | some clause =>
    have hclause := hready clause rfl
    have htruth := Condition.truth_eq_holds hrow (fun predicate hmem => (hclause predicate hmem).1)
      (fun predicate hmem => (hclause predicate hmem).2)
    simp [selects, htruth]

end Schema

/-- An assignment passes its check exactly when its column exists and its value is of the column's type. -/
theorem Assignment.change_eq_ok_iff {schema : Schema} {assignment : Assignment} {change : Nat × Value} :
    assignment.change schema = .ok change ↔ ∃ column position, schema.find? assignment.column = some (column, position) ∧
      assignment.value.dataType = column.type ∧ change = (position, assignment.value) := by
  unfold Assignment.change
  rw [ExceptAux.bind_eq_ok_iff]
  simp only [Prod.exists, Schema.locate_eq_ok_iff, ExceptAux.check_bind_eq_ok_iff, Column.check_eq_ok_iff]
  refine exists_congr fun column => exists_congr fun position => and_congr_right fun _ => and_congr_right fun _ => ?_
  exact ⟨fun h => (Except.ok.inj h).symm, fun h => congrArg Except.ok h.symm⟩

/-- Changes that come of assignments suit the schema. -/
theorem Assignment.takes_of_mapM {schema : Schema} {assignments : List Assignment} {changes : List (Nat × Value)}
    (h : assignments.mapM (·.change schema) = .ok changes) : ∀ change ∈ changes, schema.Takes change := by
  intro change hchange
  have hmem : Except.ok change ∈ assignments.map (·.change schema) := by
    rw [ExceptAux.mapM_eq_ok_iff.mp h]
    exact List.mem_map_of_mem hchange
  obtain ⟨assignment, -, heq⟩ := List.mem_map.mp hmem
  obtain ⟨column, position, hfind, htype, rfl⟩ := change_eq_ok_iff.mp heq
  exact ⟨column, (Schema.find?_eq_some_iff.mp hfind).1, htype⟩

/-- The changes that assignments come to, if they all suit the schema and the condition, where there is one, can be used. -/
def Schema.changes [Pattern.Compiler] (schema : Schema) (assignments : List Assignment)
    (condition : Option Condition) : Except Error (List (Nat × Value)) := do
  let changes ← assignments.mapM (·.change schema)
  schema.ready condition
  return changes

/-- The changes suit the schema. -/
theorem Schema.takes_of_changes [Pattern.Compiler] {schema : Schema} {assignments : List Assignment}
    {condition : Option Condition} {changes : List (Nat × Value)} (h : schema.changes assignments condition = .ok changes) :
    ∀ change ∈ changes, schema.Takes change := by
  obtain ⟨found, hfound, hrest⟩ := ExceptAux.bind_eq_ok_iff.mp h
  obtain ⟨-, heq⟩ := ExceptAux.check_bind_eq_ok_iff.mp hrest
  obtain rfl := Except.ok.inj heq
  exact Assignment.takes_of_mapM hfound

namespace Table

/-! ## Inserting -/

/-- Inserting a row checks it and then stores it. -/
theorem result_insert (row : Row) (table : Table) :
    (insert row).result table = table.schema.checkRow table.name row >>= fun _ => .ok table.size := by
  unfold insert Schema.checkRow
  rw [Action.result_state_bind]
  split
  · rfl
  · rw [Action.result_bind, List.forM_eq_forM, Action.result_forM_check, Action.after_forM_check]
    rfl

/-- A row that suits the schema is stored; any other leaves the table alone. -/
theorem after_insert (row : Row) (table : Table) :
    (insert row).after table = if table.schema.Admits row then (appendRow row).after table else table := by
  have hrow : table.schema.checkRow table.name row = .ok () ↔ table.schema.Admits row := Schema.checkRow_eq_ok_iff
  unfold insert
  rw [Action.after_state_bind]
  unfold Schema.checkRow at hrow
  split
  next hlength =>
    rw [if_pos hlength] at hrow
    rw [if_neg fun h => nomatch hrow.mpr h]
    rfl
  next hlength =>
    rw [if_neg hlength] at hrow
    rw [List.forM_eq_forM, Action.after_bind, Action.result_forM_check, Action.after_forM_check]
    split
    next herror => rw [if_neg fun h => nomatch herror.symm.trans (hrow.mpr h)]
    next hok => rw [if_pos (hrow.mp hok)]

/-- Inserting a row leaves a sound table, whether or not the row suits the schema. -/
theorem sound_insert {table : Table} (h : table.Sound) (row : Row) : ((insert row).after table).Sound := by
  rw [after_insert]
  split
  next hrow => exact sound_appendRow h hrow
  next => exact h

theorem sameHeading_insert (row : Row) (table : Table) : table.SameHeading ((insert row).after table) := by
  rw [after_insert]
  split
  · exact sameHeading_appendRow row table
  · exact SameHeading.refl table

/-! ## The rows of a condition -/

/-- The rows that a test selects can all be retired. -/
theorem retireEach_offsetsWhere {table : Table} (h : table.Sound) (test : Row → Bool) :
    (forM (table.offsetsWhere test).toList retireRow).result table = .ok () ∧
      ((forM (table.offsetsWhere test).toList retireRow).after table).Sound :=
  retireEach_of_live h ((table.offsetsWhere test).ascending.imp Nat.ne_of_lt) (live_of_mem_offsetsWhere table test)

variable [Pattern.Compiler]

/-- On a sound table a condition that passes its check is resolved to the live offsets whose row is one of it, once it has
been made ready. -/
theorem result_resolve {table : Table} (h : table.Sound) {condition : Option Condition}
    (hcheck : table.schema.check condition = .ok ()) : (table.resolve condition).result =
      condition.forM Condition.prepare >>= fun _ => .ok (table.offsetsWhere (table.schema.selects condition)) := by
  cases condition with
  | none => exact scan_eq h.marked fun _ => true
  | some condition => exact result_resolveCondition h.consistent h.marked h.typed (Condition.check_eq_ok_iff.mp hcheck)

/-- Checking a condition and resolving it is making sure that it can be used and then taking the offsets of its rows. -/
theorem result_check_resolve {table : Table} (h : table.Sound) (condition : Option Condition) :
    (table.schema.check condition >>= fun _ => (table.resolve condition).result) =
      table.schema.ready condition >>= fun _ => .ok (table.offsetsWhere (table.schema.selects condition)) := by
  unfold Schema.ready
  rw [bind_assoc]
  cases hcheck : table.schema.check condition with
  | error cause => rfl
  | ok _ => exact result_resolve h hcheck

/-! ## Doing the same to all rows of a condition -/

/-- What deletions and updates have in common: one thing is done to all rows of a condition, and their number is given. -/
def eachRow (table : Table) (condition : Option Condition) (step : Nat → Action Table Unit) (event : Nat → Event) :
    Action Table Nat := do
  table.schema.check condition
  let offsets ← table.resolve condition
  offsets.toList.forM step
  Outcome.report (event offsets.size)
  return offsets.size

theorem delete_eq (condition : Option Condition) : delete condition =
    Action.state >>= fun table => table.eachRow condition retireRow (.rowsDeleted table.name) := rfl

theorem update_eq (assignments : List Assignment) (condition : Option Condition) : update assignments condition =
    Action.state >>= fun table => liftM (assignments.mapM (·.change table.schema)) >>= fun changes =>
      table.eachRow condition (changeRow · changes) (.rowsUpdated table.name) := rfl

section

variable {table : Table} (h : table.Sound) {condition : Option Condition} {step : Nat → Action Table Unit}
  {event : Nat → Event}
  (hloop : (forM (table.offsetsWhere (table.schema.selects condition)).toList step).result table = .ok ())

include h hloop

/-- If it can be done to all rows of the condition, nothing fails but the condition. -/
theorem result_eachRow : (table.eachRow condition step event).result table =
    table.schema.ready condition >>= fun _ => .ok (table.offsetsWhere (table.schema.selects condition)).size := by
  unfold eachRow
  rw [Action.result_bind, Action.result_liftExcept, Action.after_liftExcept]
  simp only [Action.result_bind, Action.result_liftOutcome, Action.after_liftOutcome]
  rw [← bind_assoc, result_check_resolve h, bind_assoc]
  refine bind_congr fun _ => ?_
  rw [ExceptAux.ok_bind, List.forM_eq_forM, hloop]
  rfl

/-- It is done to the rows of a condition that can be used; any other condition leaves the table alone. -/
theorem after_eachRow : (table.eachRow condition step event).after table =
    match table.schema.ready condition with
    | .error _ => table
    | .ok _ => (forM (table.offsetsWhere (table.schema.selects condition)).toList step).after table := by
  unfold eachRow Schema.ready
  rw [Action.after_bind, Action.result_liftExcept, Action.after_liftExcept]
  cases hcheck : table.schema.check condition with
  | error cause => rfl
  | ok _ =>
    dsimp only
    rw [ExceptAux.ok_bind, Action.after_bind, Action.result_liftOutcome, Action.after_liftOutcome, result_resolve h hcheck]
    cases condition.forM Condition.prepare with
    | error cause => rfl
    | ok _ =>
      dsimp only [ExceptAux.ok_bind]
      rw [List.forM_eq_forM, Action.after_bind_of_ok hloop]
      rfl

end

/-! ## Deleting and updating -/

section

variable {table : Table} (h : table.Sound) (condition : Option Condition)

include h

/-- On a sound table a deletion fails only where its condition cannot be used. -/
theorem result_delete : (delete condition).result table =
    table.schema.ready condition >>= fun _ => .ok (table.offsetsWhere (table.schema.selects condition)).size := by
  rw [delete_eq, Action.result_state_bind, result_eachRow h (retireEach_offsetsWhere h _).1]

/-- A deletion whose condition can be used retires the rows of the condition; any other leaves the table alone. -/
theorem after_delete : (delete condition).after table =
    match table.schema.ready condition with
    | .error _ => table
    | .ok _ => (forM (table.offsetsWhere (table.schema.selects condition)).toList retireRow).after table := by
  rw [delete_eq, Action.after_state_bind, after_eachRow h (retireEach_offsetsWhere h _).1]

/-- Deleting leaves a sound table, whether or not it fails. -/
theorem sound_delete : ((delete condition).after table).Sound := by
  rw [after_delete h]
  split
  · exact h
  · exact (retireEach_offsetsWhere h _).2

theorem sameHeading_delete : table.SameHeading ((delete condition).after table) := by
  rw [after_delete h]
  split
  · exact SameHeading.refl table
  · exact Action.forM_preserves (fun offset _ between hbetween => hbetween.trans (sameHeading_retireRow offset between))
      (SameHeading.refl table)

/-- On a sound table an update fails only where an assignment does not suit the schema or its condition cannot be used. -/
theorem result_update (assignments : List Assignment) : (update assignments condition).result table =
    table.schema.changes assignments condition >>= fun _ =>
      .ok (table.offsetsWhere (table.schema.selects condition)).size := by
  unfold Schema.changes
  rw [update_eq, Action.result_state_bind, Action.result_bind, Action.result_liftExcept, Action.after_liftExcept, bind_assoc]
  cases hchanges : assignments.mapM (·.change table.schema) with
  | error cause => rfl
  | ok changes =>
    have hloop := revision_changeEach h (live_of_mem_offsetsWhere table (table.schema.selects condition))
      (Assignment.takes_of_mapM hchanges)
    rw [ExceptAux.ok_bind, ExceptAux.ok_bind, result_eachRow h hloop.1, bind_assoc]
    rfl

/-- An update that passes its checks changes the rows of its condition; any other leaves the table alone. -/
theorem after_update (assignments : List Assignment) : (update assignments condition).after table =
    match table.schema.changes assignments condition with
    | .error _ => table
    | .ok changes =>
      (forM (table.offsetsWhere (table.schema.selects condition)).toList fun offset => changeRow offset changes).after
        table := by
  unfold Schema.changes
  rw [update_eq, Action.after_state_bind, Action.after_bind, Action.result_liftExcept, Action.after_liftExcept]
  cases hchanges : assignments.mapM (·.change table.schema) with
  | error cause => rfl
  | ok changes =>
    have hloop := revision_changeEach h (live_of_mem_offsetsWhere table (table.schema.selects condition))
      (Assignment.takes_of_mapM hchanges)
    dsimp only
    rw [ExceptAux.ok_bind, after_eachRow h hloop.1]
    cases table.schema.ready condition with
    | error cause => rfl
    | ok _ => rfl

/-- Updating leaves a sound table, whether or not it fails. -/
theorem sound_update (assignments : List Assignment) : ((update assignments condition).after table).Sound := by
  rw [after_update h]
  split
  · exact h
  next changes hchanges =>
    exact (revision_changeEach h (live_of_mem_offsetsWhere table _) (Schema.takes_of_changes hchanges)).2.sound

theorem sameHeading_update (assignments : List Assignment) :
    table.SameHeading ((update assignments condition).after table) := by
  rw [after_update h]
  split
  · exact SameHeading.refl table
  next changes _ =>
    exact Action.forM_preserves
      (fun offset _ between hbetween => hbetween.trans (sameHeading_changeRow offset changes between)) (SameHeading.refl table)

end

end Table

end SqlEngine
