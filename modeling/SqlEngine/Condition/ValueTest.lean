import SqlEngine.Condition
import SqlEngine.Text.Pattern

/-!
# Testing values

A predicate is made ready once (`Predicate.valueTest`, which fails where its wildcard pattern is refused) and then tested against
many values. Equality compares any two values; an ordering holds between integers only, and a wildcard match of texts only.
-/

namespace SqlEngine

/-- A predicate made ready for testing values. -/
inductive ValueTest where
  | comparison (operator : Operator) (right : Value)
  | wildcard (pattern : Pattern)
  | never
  deriving DecidableEq, Repr

/-- The predicate made ready; a wildcard match with an integer never holds. -/
def Predicate.valueTest [Pattern.Compiler] (predicate : Predicate) : Except Error ValueTest :=
  match predicate.operator, predicate.value with
  | .like, .text pattern => ((Pattern.compile pattern).map ValueTest.wildcard).mapError Error.parse
  | .like, .int _ => .ok .never
  | operator, right => .ok (.comparison operator right)

/-- Whether an operator may compare values of these two types. -/
def Operator.compares (operator : Operator) (left right : DataType) : Bool :=
  !operator.isOrdering || (left == .int && right == .int)

/-- Whether a value passes the test. -/
def ValueTest.passes : ValueTest → Value → Bool
  | .comparison operator right, left =>
    operator.compares left.dataType right.dataType && operator.accepts (compare left right)
  | .wildcard pattern, .text s => pattern.matchesWithin s
  | .wildcard _, .int _ => false
  | .never, _ => false

end SqlEngine
