import SqlEngine.Value

/-!
# Comparison operators

An operator is met in two ways. Between two values it is decided by their order (`accepts`), which is how an index answers it;
in a condition it also asks for operands of the right type (`SqlEngine.Condition.ValueTest`).
-/

namespace SqlEngine

/-- The operator of a predicate; `like` is the wildcard match. -/
inductive Operator where
  | eq | ne | gt | ge | lt | le | like
  deriving DecidableEq, Repr

namespace Operator

/-- The operator as it is written. -/
def symbol : Operator → String
  | .eq => "="
  | .ne => "!="
  | .gt => ">"
  | .ge => ">="
  | .lt => "<"
  | .le => "<="
  | .like => "LIKE"

/-- Whether the operator asks which operand is the greater, and so needs integers. -/
def isOrdering : Operator → Bool
  | .gt | .ge | .lt | .le => true
  | .eq | .ne | .like => false

theorem isOrdering_iff {operator : Operator} : operator.isOrdering = true ↔ operator ∈ [gt, ge, lt, le] := by
  cases operator <;> decide

/-- Whether a left operand that compares so with the right one meets the operator; no comparison decides a wildcard match. -/
def accepts : Operator → Ordering → Bool
  | .eq, o => o.isEq
  | .ne, o => o.isNe
  | .gt, o => o.isGT
  | .ge, o => o.isGE
  | .lt, o => o.isLT
  | .le, o => o.isLE
  | .like, _ => false

end Operator

end SqlEngine
