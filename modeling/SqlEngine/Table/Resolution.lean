import SqlEngine.Condition.Evaluation
import SqlEngine.Table

/-!
# Resolving conditions to offsets

The rows of a condition are found as a set of offsets before any of them is read or changed. A predicate is answered by the index
on its column, if there is one that can, and else by a scan of all live rows. And-clauses cut the set down to what they share
with it, and or-clauses add to it, which comes to the truth of the condition row by row.
-/

namespace SqlEngine

namespace Table

/-- The offsets, of those that a cursor handed out, whose row passes a test. -/
def passing (table : Table) (test : Row → Bool) : List Nat → Except Error (List Nat)
  | [] => .ok []
  | offset :: rest =>
    match table.row? offset with
    | none => .error (.cursorAstray offset)
    | some row => (table.passing test rest).map fun found => if test row then offset :: found else found

/-- The live offsets whose row passes a test. -/
def scan (table : Table) (test : Row → Bool) : Except Error Offsets :=
  (table.passing test table.cursor.rest).map Offsets.ofList

variable [Pattern.Compiler]

/-- The live offsets whose row has a value that meets a predicate. -/
def scanPredicate (table : Table) (predicate : Predicate) : Except Error Offsets := do
  let test ← predicate.valueTest
  let position ← table.schema.position predicate.column
  table.scan fun row => row[position]?.any test.passes

/-- The offsets of a predicate, through an index or by a scan. -/
def resolvePredicate (table : Table) (predicate : Predicate) : Outcome Offsets := do
  match ← table.lookup predicate.column predicate with
  | some found =>
    Outcome.report (.resolvedThroughIndex table.name predicate.column predicate.operator)
    return found
  | none =>
    Outcome.report (.resolvedByScan table.name predicate.column predicate.operator)
    table.scanPredicate predicate

mutual

/-- The offsets of a condition. -/
def resolveCondition (table : Table) : Condition → Outcome Offsets
  | .node own ands ors => do
    let found ← table.resolvePredicate own
    let narrowed ← table.narrow found ands
    table.widen narrowed ors

/-- What a set shares with the offsets of every condition of a list. -/
def narrow (table : Table) (found : Offsets) : List Condition → Outcome Offsets
  | [] => return found
  | clause :: rest => do
    let others ← table.resolveCondition clause
    table.narrow (found.inter others) rest

/-- A set with the offsets of every condition of a list. -/
def widen (table : Table) (found : Offsets) : List Condition → Outcome Offsets
  | [] => return found
  | clause :: rest => do
    let others ← table.resolveCondition clause
    table.widen (found.union others) rest

end

/-- The offsets of a condition; without one, those of all live rows. -/
def resolve (table : Table) : Option Condition → Outcome Offsets
  | none => table.scan fun _ => true
  | some condition => table.resolveCondition condition

end Table

end SqlEngine
