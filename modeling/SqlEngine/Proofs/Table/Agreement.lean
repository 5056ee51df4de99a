import Mathlib
import SqlEngine.Proofs.Table.Checked

/-!
# Resolving and evaluating agree

A table that checked changes lead to is sound, whatever they were and whichever of them failed. On such a table there are
two ways to tell the rows of a condition: resolving it to a set of offsets, node by node, through indexes and by scans, and
evaluating it on one row after the other. Both go by the truth of the condition (`resolve_and_evaluate`).
-/

namespace SqlEngine

/-- A call that changes a table after checking the change against the schema. -/
inductive Change where
  | insert (row : Row)
  | update (assignments : List Assignment) (condition : Option Condition)
  | delete (condition : Option Condition)
  | createIndex (name column : String)

/-- What a call does. -/
def Change.action [Pattern.Compiler] : Change → Action Table Unit
  | insert row => discard (Table.insert row)
  | update assignments condition => discard (Table.update assignments condition)
  | delete condition => discard (Table.delete condition)
  | createIndex name column => Table.createIndex name column

namespace Table

section

variable [Pattern.Compiler]

/-- The table after a list of calls; a call that fails does not stop those after it. -/
def changed (table : Table) (changes : List Change) : Table :=
  Action.afterEach Change.action changes table

/-- Checked changes leave a sound table. -/
theorem sound_changed {table : Table} (h : table.Sound) (changes : List Change) : (table.changed changes).Sound := by
  refine Action.afterEach_preserves ?_ changes h
  intro change between hbetween
  cases change with
  | insert row =>
    rw [Change.action, Action.after_discard]
    exact sound_insert hbetween row
  | update assignments condition =>
    rw [Change.action, Action.after_discard]
    exact sound_update hbetween condition assignments
  | delete condition =>
    rw [Change.action, Action.after_discard]
    exact sound_delete hbetween condition
  | createIndex name column => exact sound_createIndex hbetween name column

/-- After any checked changes and with any indexes, a condition that suits the schema and whose patterns can be made ready
is resolved to the live offsets on whose row it holds, and evaluates on every live row to whether it holds there. -/
theorem resolve_and_evaluate (name : String) (schema : Schema) (changes : List Change) (condition : Condition)
    (hcheck : condition.check ((empty name schema).changed changes).schema = .ok ())
    (hcompiles : ∀ predicate ∈ condition.predicates, predicate.Compiles) :
    let table := (empty name schema).changed changes
    (∃ offsets, (table.resolve (some condition)).result = .ok offsets ∧
      ∀ offset, offset ∈ offsets ↔ ∃ row, table.row? offset = some row ∧ condition.holds table.schema row = true) ∧
    ∀ offset row, table.row? offset = some row →
      condition.truth table.schema row = .ok (condition.holds table.schema row) := by
  intro table
  have h : table.Sound := sound_changed (sound_empty name schema) changes
  constructor
  · refine ⟨table.offsetsWhere (condition.holds table.schema), ?_, fun offset => mem_offsetsWhere⟩
    have hready : condition.prepare = .ok () := Condition.prepare_eq_ok_iff.mpr hcompiles
    have hschema : table.schema.check (some condition) = .ok () := hcheck
    rw [result_resolve h hschema, Option.forM, hready]
    rfl
  · intro offset row hrow
    exact Condition.truth_eq_holds (h.typed offset row hrow) (Condition.check_eq_ok_iff.mp hcheck) hcompiles

end

/-- The columns of a table of guests. -/
def guestSchema : Schema := ⟨[⟨"age", .int⟩, ⟨"name", .text⟩], by decide, by decide⟩

/-- An index is created, four guests come, and one leaves. -/
def guestChanges : List Change :=
  [.createIndex "by age" "age", .insert [.int 1, .text "ann"], .insert [.int 3, .text "abe"], .insert [.int 4, .text "bob"],
    .insert [.int 5, .text "ada"], .delete (some (.ofPredicate ⟨"age", .eq, .int 5⟩))]

/-- Guests from the age of three on with an a in the name, or else of one name. -/
def guestCondition : Condition :=
  .node ⟨"age", .ge, .int 3⟩ [.ofPredicate ⟨"name", .like, .text "a%"⟩] [.ofPredicate ⟨"name", .eq, .text "ann"⟩]

/-- The condition is resolved to the first two guests, through the index and by scans; the third guest does not meet it, and
the fourth is gone. -/
theorem resolve_and_evaluate_guests :
    letI : Pattern.Compiler := .unbounded
    ∃ offsets, (((empty "guests" guestSchema).changed guestChanges).resolve (some guestCondition)).result = .ok offsets ∧
      0 ∈ offsets ∧ 1 ∈ offsets ∧ 2 ∉ offsets ∧ 3 ∉ offsets := by
  let : Pattern.Compiler := .unbounded
  have hcheck : guestCondition.check ((empty "guests" guestSchema).changed guestChanges).schema = .ok () := by cbv
  have hcompiles : ∀ predicate ∈ guestCondition.predicates, predicate.Compiles := by
    rw [← Condition.prepare_eq_ok_iff]
    cbv
  obtain ⟨⟨offsets, hresult, hoffsets⟩, -⟩ :=
    resolve_and_evaluate "guests" guestSchema guestChanges guestCondition hcheck hcompiles
  simp only [← Option.any_eq_true] at hoffsets
  refine ⟨offsets, hresult, ?_⟩
  rw [hoffsets, hoffsets, hoffsets, hoffsets, Bool.not_eq_true, Bool.not_eq_true]
  refine ⟨?_, ?_, ?_, ?_⟩
  · cbv
  · cbv
  · cbv
  · cbv

end Table

end SqlEngine
