import SqlEngine.Condition
import SqlEngine.Token.Reader

/-!
# Reading conditions

A condition is alternatives between `OR`, an alternative is operands between `AND`, and an operand is a comparison or a condition
in parentheses; so `AND` binds tighter than `OR`. An alternative after the first becomes an or-clause of what stands before it,
and an operand after the first is conjoined with what stands before it.

Every call uses one unit of fuel. Along a chain of calls at least every third one takes a token, so `Condition.reader` gives more
than enough for the tokens at hand. Only a list that ends in an opening parenthesis can use it up, since that token is never left.
-/

namespace SqlEngine

/-- The operator that a token stands for. -/
def Token.operator? : Token → Option Operator
  | .symbol .equal => some .eq
  | .symbol .notEqual => some .ne
  | .symbol .greater => some .gt
  | .symbol .greaterEqual => some .ge
  | .symbol .lower => some .lt
  | .symbol .lowerEqual => some .le
  | .keyword .like => some .like
  | _ => none

namespace Reader

/-- Takes an operator. -/
def operator : Reader Operator := do
  let found ← peek
  match found.operator? with
  | some operator => advance; return operator
  | none => fail .comparison found

/-- Takes the comparison of a column with a literal. -/
def predicate : Reader Predicate := do
  let column ← identifier
  let operator ← operator
  let value ← literal
  return { column, operator, value }

mutual

/-- Takes alternatives. -/
def disjunction : (fuel : Nat) → Reader Condition
  | 0 => throw .endless
  | fuel + 1 => do
    let first ← conjunction fuel
    furtherAlternatives fuel first

/-- Takes the alternatives that follow what was taken before. -/
def furtherAlternatives : (fuel : Nat) → Condition → Reader Condition
  | 0, _ => throw .endless
  | fuel + 1, before => do
    if ← eatKeyword .or then
      let next ← conjunction fuel
      furtherAlternatives fuel (before.disjoin next)
    else
      return before

/-- Takes one alternative. -/
def conjunction : (fuel : Nat) → Reader Condition
  | 0 => throw .endless
  | fuel + 1 => do
    let first ← operand fuel
    furtherOperands fuel first

/-- Takes the operands that follow what was taken before. -/
def furtherOperands : (fuel : Nat) → Condition → Reader Condition
  | 0, _ => throw .endless
  | fuel + 1, before => do
    if ← eatKeyword .and then
      let next ← operand fuel
      furtherOperands fuel (before.conjoin next)
    else
      return before

/-- Takes one operand. -/
def operand : (fuel : Nat) → Reader Condition
  | 0 => throw .endless
  | fuel + 1 => do
    if ← eat (.symbol .leftParen) then
      let inner ← disjunction fuel
      symbol .rightParen
      return inner
    else
      return .ofPredicate (← predicate)

end

end Reader

/-- Takes a condition. -/
def Condition.reader : Reader Condition := do
  Reader.disjunction (4 * (← get).length + 4)

end SqlEngine
