import SqlEngine.Statement
import SqlEngine.Table.Resolution

/-!
# Running queries

A query is checked first and then run in stages: its condition is resolved to offsets, their rows are fetched in ascending order,
sorted on one column, cut to a slice, and reduced to the columns shown. Sorting is stable in both directions, and it comes before
the reduction, so a query may sort on a column that it does not show.
-/

namespace SqlEngine

/-- A condition, where there is one, suits the schema. -/
def Schema.check (schema : Schema) : Option Condition → Except Error Unit
  | none => .ok ()
  | some condition => condition.check schema

/-- The positions that a projection keeps, in the order of the schema and each once; none where it keeps the whole row. -/
def Schema.projected (schema : Schema) : Projection → Except Error (Option (List Nat))
  | .all => .ok none
  | .columns names => do
    names.forM fun name => discard (schema.locate name)
    return some ((schema.columns.zipIdx.filter (·.1.name ∈ names)).map Prod.snd)

/-- The values of a row at the given positions. -/
def Row.project (row : Row) (positions : List Nat) : Row :=
  positions.filterMap (row[·]?)

/-- Whether a row may stand before another when both are sorted on a position; a row that does not reach the position comes
before every row that does. -/
def Direction.precedes (direction : Direction) (position : Nat) (a b : Row) : Bool :=
  match direction with
  | .ascending => (compare a[position]? b[position]?).isLE
  | .descending => (compare b[position]? a[position]?).isLE

/-- The number of rows that a clause of a query asks for, if the query has it. -/
def SliceClause.count (clause : SliceClause) : Option Int64 → Except Error (Option Nat)
  | none => .ok none
  | some n => if n < 0 then .error (.negative clause n) else .ok (some n.toInt.toNat)

/-- A query against a table, with every part found to be in order. -/
structure Query.Plan where
  positions : Option (List Nat)
  sort : Option (Nat × Direction)
  skip : Nat
  limit : Option Nat
  deriving DecidableEq, Repr

/-- Checks a query against the schema of its table: first the condition, then the columns shown, the column to sort on, the
offset and the limit. -/
def Query.plan (query : Query) (schema : Schema) : Except Error Query.Plan := do
  schema.check query.condition
  let positions ← schema.projected query.projection
  let sort ← query.sort.mapM fun key => return (← schema.position key.column, key.direction)
  let skip ← SliceClause.offset.count query.offset
  let limit ← SliceClause.limit.count query.limit
  return { positions, sort, skip := skip.getD 0, limit }

/-- The rows that a query shows, out of the rows of its condition. -/
def Query.Plan.apply (plan : Query.Plan) (rows : List Row) : List Row :=
  let sorted := match plan.sort with
    | none => rows
    | some (position, direction) => rows.mergeSort (direction.precedes position)
  let rest := sorted.drop plan.skip
  let slice := match plan.limit with
    | none => rest
    | some limit => rest.take limit
  match plan.positions with
  | none => slice
  | some positions => slice.map (·.project positions)

namespace Table

/-- The row at an offset that a condition was resolved to. -/
def fetch (table : Table) (offset : Nat) : Except Error Row :=
  match table.row? offset with
  | none => .error (.rowMissing offset)
  | some row => .ok row

/-- The rows of a query. -/
def select [Pattern.Compiler] (table : Table) (query : Query) : Outcome (List Row) := do
  let plan ← query.plan table.schema
  let offsets ← table.resolve query.condition
  let rows ← (offsets.toList.mapM table.fetch : Except Error (List Row))
  return plan.apply rows

end Table

end SqlEngine
