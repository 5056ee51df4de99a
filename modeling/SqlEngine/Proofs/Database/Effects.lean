import SqlEngine.Proofs.Database.Failure
import SqlEngine.Proofs.Table.Effects

/-!
# What updates and deletions do

An update or a deletion that its table does not refuse is about the rows that met its condition before it ran, and about these
only: it gives their number, makes its assignments in each of them or takes each of them away, and leaves all else as it was
(`statements_change_matched_rows`). Whether an index led to a row, or is on a column that is assigned to, does not matter.
-/

namespace SqlEngine

namespace Database

/-- What a statement makes of the table that it names is found under the name afterwards. -/
theorem table?_after_onTable {α : Type} {database : Database} {name : String} {table : Table}
    (htable : database.table? name = some table) {action : Action Table α} (hname : (action.after table).name = table.name) :
    ((onTable name action).after database).table? name = some (action.after table) := by
  rw [after_onTable, htable]
  exact (table?_put _ _ _).trans (if_pos (hname.trans (of_table? htable).2).symm)

/-- In any database that statements lead to, a condition that suits a table and whose patterns can be made ready selects the live
rows on which it evaluates to true. An update with it whose assignments suit the table too gives the number of these rows and leaves
under the name of the table one in which they have the values assigned last; a deletion with it gives their number and leaves one
without them. All other rows, and what else there is of the table, stay as they were. -/
theorem statements_change_matched_rows [Pattern.Compiler] (statements : List Statement) (name : String) (table : Table)
    (htable : (empty.ran statements).table? name = some table) (condition : Option Condition)
    (hcondition : ¬table.schema.RefusesCondition condition) :
    ∃ matched : Offsets,
      (∀ offset, offset ∈ matched ↔
        ∃ row, table.row? offset = some row ∧ ∀ clause ∈ condition, clause.truth table.schema row = .ok true) ∧
      (∀ assignments : List Assignment, (∀ assignment ∈ assignments, ¬table.schema.RefusesAssignment assignment) →
        (Table.update assignments condition).result table = .ok matched.size ∧
        ∃ after, ((run (.update name assignments condition)).after (empty.ran statements)).table? name = some after ∧
          table.AssignedAt matched assignments after) ∧
      (Table.delete condition).result table = .ok matched.size ∧
      ∃ after, ((run (.delete name condition)).after (empty.ran statements)).table? name = some after ∧
        table.RetiredAt matched after := by
  have h : table.Sound := (sound_ran sound_empty statements).of_table? htable
  have hready : table.schema.ready condition = .ok () := by
    rw [← Schema.fails_ready_iff, ExceptAux.fails_iff_ne_ok, not_not] at hcondition
    exact hcondition
  refine ⟨table.offsetsWhere (table.schema.selects condition), fun offset => ?_, fun assignments hassignments => ?_, ?_, ?_⟩
  · rw [Table.mem_offsetsWhere]
    exact exists_congr fun row => and_congr_right fun hrow => Schema.selects_iff hready (h.typed offset row hrow)
  · have hpasses : ¬ExceptAux.Fails (table.schema.changes assignments condition) := by
      rw [Schema.fails_changes_iff, not_or, not_exists]
      exact ⟨hcondition, fun assignment hmem => hassignments assignment hmem.1 hmem.2⟩
    cases hchanges : table.schema.changes assignments condition with
    | error cause => exact absurd ⟨cause, hchanges⟩ hpasses
    | ok changes =>
      have hassigned := Table.assignedAt_update h hchanges
      refine ⟨by rw [Table.result_update h, hchanges]; rfl, _, ?_, hassigned⟩
      rw [run, Action.after_bind_pure]
      exact table?_after_onTable htable hassigned.heading.1
  · rw [Table.result_delete h, hready]
    rfl
  · have hretired := Table.retiredAt_delete h hready
    refine ⟨_, ?_, hretired⟩
    rw [run, Action.after_bind_pure]
    exact table?_after_onTable htable hretired.heading.1

/-- The columns of a table of people and what they are paid. -/
def staffSchema : Schema := ⟨[⟨"pay", .int⟩, ⟨"name", .text⟩], by decide, by decide⟩

/-- A table of three people, with an index on their pay. -/
def staff : List Statement :=
  [.createTable "staff" staffSchema.columns, .createIndex "by pay" "staff" "pay", .insert "staff" [.int 1, .text "ann"],
    .insert "staff" [.int 9, .text "bob"], .insert "staff" [.int 5, .text "cy"]]

/-- Being paid less than six. -/
def lowPaid : Condition := .ofPredicate ⟨"pay", .lt, .int 6⟩

/-- Paying three, and then seven instead. -/
def raises : List Assignment := [⟨"pay", .int 3⟩, ⟨"pay", .int 7⟩]

/-- An update of the column that its condition and an index are on reaches a person once, who has then got the last of the values
and does not meet the condition any more; a person who did not meet it stays as before. -/
theorem statements_change_matched_rows_staff :
    letI : Pattern.Compiler := .unbounded
    ∃ table after, (empty.ran staff).table? "staff" = some table ∧ ¬table.schema.RefusesCondition (some lowPaid) ∧
      (∀ assignment ∈ raises, ¬table.schema.RefusesAssignment assignment) ∧
      ((run (.update "staff" raises (some lowPaid))).after (empty.ran staff)).table? "staff" = some after ∧
      after.row? 0 = some [.int 7, .text "ann"] ∧ after.slots[1]? = some (some [.int 9, .text "bob"]) := by
  let : Pattern.Compiler := .unbounded
  have hfound : ((empty.ran staff).table? "staff").map (fun table => (table.schema, table.row? 0, table.slots[1]?)) =
      some (staffSchema, some [.int 1, .text "ann"], some (some [.int 9, .text "bob"])) := by cbv
  obtain ⟨table, htable, hstaff⟩ := Option.map_eq_some_iff.mp hfound
  obtain ⟨hschema, hrows⟩ := Prod.mk.inj hstaff
  obtain ⟨hann, hbob⟩ := Prod.mk.inj hrows
  have hcondition : ¬table.schema.RefusesCondition (some lowPaid) := by
    rw [hschema, ← Schema.fails_ready_iff, ExceptAux.fails_iff_ne_ok, not_not]
    cbv
  have hassignments : ∀ assignment ∈ raises, ¬table.schema.RefusesAssignment assignment := by
    have hfind : staffSchema.find? "pay" = some (⟨"pay", .int⟩, 0) := by cbv
    simp [hschema, raises, Schema.RefusesAssignment, hfind, Value.dataType]
  obtain ⟨matched, hmatched, hupdate, -⟩ :=
    statements_change_matched_rows staff "staff" table htable (some lowPaid) hcondition
  obtain ⟨-, after, hafter, hassigned⟩ := hupdate raises hassignments
  rw [hschema] at hmatched
  have hfirst : 0 ∈ matched := by
    refine (hmatched 0).mpr ⟨_, hann, ?_⟩
    rintro _ ⟨⟩
    cbv
  have hsecond : 1 ∉ matched := by
    intro hmem
    obtain ⟨row, hrow, htruth⟩ := (hmatched 1).mp hmem
    obtain rfl := Option.some.inj (Option.some.inj ((Table.slot_of_row? hrow).symm.trans hbob))
    have hfalse : lowPaid.truth staffSchema [.int 9, .text "bob"] = .ok false := by cbv
    exact Bool.false_ne_true (Except.ok.inj (hfalse.symm.trans (htruth lowPaid rfl)))
  obtain ⟨row, hrow, hchanged⟩ := hassigned.rows 0 hfirst
  obtain rfl := Option.some.inj (hrow.symm.trans hann)
  refine ⟨table, after, htable, hcondition, hassignments, hafter, ?_, (hassigned.others 1 hsecond).trans hbob⟩
  rw [hchanged, hschema]
  decide

end Database

end SqlEngine
