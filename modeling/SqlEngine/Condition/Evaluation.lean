import SqlEngine.Condition.ValueTest
import SqlEngine.Schema

/-!
# Checking and evaluating conditions

`Condition.check` checks a condition against a schema, without any row: its columns exist and its literals and operators suit
their types. `Condition.truth` gives its truth on a row; clauses that the truth does not depend on are not looked at, so an
error in them does not show.
-/

namespace SqlEngine

/-- A predicate suits a schema: its column exists, its literal has the column's type, and its operator fits that type. -/
def Predicate.check (schema : Schema) (predicate : Predicate) : Except Error Unit := do
  let (column, _) ← schema.locate predicate.column
  if predicate.value.dataType ≠ column.type then
    .error (.literalType predicate.column column.type predicate.value)
  else if predicate.operator.isOrdering ∧ column.type ≠ .int then
    .error (.orderingNeedsInt predicate.operator predicate.column column.type)
  else if predicate.operator = .like ∧ column.type ≠ .text then
    .error (.likeNeedsText predicate.column column.type)
  else
    .ok ()

/-- Whether a predicate holds on a row. -/
def Predicate.truth [Pattern.Compiler] (schema : Schema) (row : Row) (predicate : Predicate) : Except Error Bool := do
  let position ← schema.position predicate.column
  match row[position]? with
  | none => .error (.columnMissing predicate.column)
  | some value => return (← predicate.valueTest).passes value

namespace Condition

mutual

/-- Every predicate of the condition suits the schema; the node's own one is checked first, then the and-clauses, then the
or-clauses. -/
def check (schema : Schema) : Condition → Except Error Unit
  | node own ands ors => do
    own.check schema
    checkEach schema ands
    checkEach schema ors

/-- Every condition of a list suits the schema. -/
def checkEach (schema : Schema) : List Condition → Except Error Unit
  | [] => .ok ()
  | clause :: rest => do
    check schema clause
    checkEach schema rest

end

variable [Pattern.Compiler]

mutual

/-- Whether the condition holds on a row. -/
def truth (schema : Schema) (row : Row) : Condition → Except Error Bool
  | node own ands ors => do
    if ← own.truth schema row then
      if ← allHold schema row ands then .ok true else anyHolds schema row ors
    else
      anyHolds schema row ors

/-- Whether all conditions of a list hold on a row; the first that does not settles it. -/
def allHold (schema : Schema) (row : Row) : List Condition → Except Error Bool
  | [] => .ok true
  | clause :: rest => do
    if ← truth schema row clause then allHold schema row rest else .ok false

/-- Whether some condition of a list holds on a row; the first that does settles it. -/
def anyHolds (schema : Schema) (row : Row) : List Condition → Except Error Bool
  | [] => .ok false
  | clause :: rest => do
    if ← truth schema row clause then .ok true else anyHolds schema row rest

end

end Condition

end SqlEngine
