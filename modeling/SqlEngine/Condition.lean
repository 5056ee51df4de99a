import SqlEngine.Operator

/-!
# Conditions

A condition is a predicate on one column, narrowed by and-clauses and widened by or-clauses, which are conditions again. It holds
when its predicate and all its and-clauses hold, or else when one of its or-clauses holds.
-/

namespace SqlEngine

/-- The comparison of a column with a literal. -/
structure Predicate where
  column : String
  operator : Operator
  value : Value
  deriving DecidableEq, Repr

/-- A predicate with its and-clauses and its or-clauses. -/
inductive Condition where
  | node (own : Predicate) (ands ors : List Condition)
  deriving Repr

namespace Condition

/-- The predicate of the node. -/
def own : Condition → Predicate
  | node own _ _ => own

/-- The clauses that must hold with the predicate. -/
def ands : Condition → List Condition
  | node _ ands _ => ands

/-- The clauses each of which is enough. -/
def ors : Condition → List Condition
  | node _ _ ors => ors

/-- A condition without clauses. -/
def ofPredicate (own : Predicate) : Condition :=
  node own [] []

/-- The condition widened by one more clause. -/
def disjoin : Condition → Condition → Condition
  | node own ands ors, clause => node own ands (ors ++ [clause])

mutual

/-- The condition that holds when both hold: the other one narrows the node and, in the same way, each of its or-clauses. -/
def conjoin : Condition → Condition → Condition
  | node own ands ors, other => node own (ands ++ [other]) (conjoinEach ors other)

/-- Every condition of a list, narrowed by one and the same. -/
def conjoinEach : List Condition → Condition → List Condition
  | [], _ => []
  | clause :: rest, other => clause.conjoin other :: conjoinEach rest other

end

theorem conjoinEach_eq_map (clauses : List Condition) (other : Condition) :
    conjoinEach clauses other = clauses.map (·.conjoin other) := by
  induction clauses with
  | nil => rfl
  | cons clause rest ih => rw [conjoinEach, ih, List.map_cons]

end Condition

end SqlEngine
