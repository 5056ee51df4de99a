import SqlEngine.Condition.Reader
import SqlEngine.Proofs.Token.Reader

/-!
# The grammar of conditions

A condition is written as alternatives with `OR` between them, an alternative as operands with `AND` between them, and an operand
as a predicate or as a condition in parentheses. `Condition.Written` says of tokens at which of these ranks they stand for which
condition. Tokens that stand for a condition are read as that condition (`read_of_written`), wherever the list goes on with
something else than `AND` or `OR`.
-/

namespace SqlEngine

open Reader

/-! ## Predicates -/

/-- The token of an operator. -/
def Operator.token : Operator → Token
  | .eq => .symbol .equal
  | .ne => .symbol .notEqual
  | .gt => .symbol .greater
  | .ge => .symbol .greaterEqual
  | .lt => .symbol .lower
  | .le => .symbol .lowerEqual
  | .like => .keyword .like

/-- A predicate is written as its column, its operator and its literal. -/
def Predicate.tokens (predicate : Predicate) : List Token :=
  [.ident predicate.column, predicate.operator.token, predicate.value.token]

@[simp] theorem Operator.operator?_token (operator : Operator) : operator.token.operator? = some operator := by
  cases operator <;> rfl

theorem Reader.run_operator {rest : List Token} (h : rest ≠ []) (operator : Operator) :
    Reader.operator.run (operator.token :: rest) = .ok (operator, rest) := by
  rw [Reader.operator, run_bind_of_ok (run_peek _), List.headD_cons, Operator.operator?_token]
  exact run_bind_of_ok (run_advance h operator.token)

theorem Reader.run_predicate {rest : List Token} (h : rest ≠ []) (own : Predicate) :
    Reader.predicate.run (own.tokens ++ rest) = .ok (own, rest) := by
  rw [Reader.predicate, Predicate.tokens, List.cons_append, run_bind_of_ok (run_identifier (by simp) own.column)]
  rw [List.cons_append, run_bind_of_ok (run_operator (by simp) own.operator)]
  rw [List.cons_append, run_bind_of_ok (run_literal (by simpa using h) own.value)]
  rfl

namespace Condition

/-! ## Conditions -/

/-- What tokens may stand for: an operand of `AND`, an alternative of `OR`, or a whole condition. -/
inductive Rank where
  | operand | conjunction | disjunction
  deriving DecidableEq, Repr

/-- At the rank, the tokens stand for the condition. -/
inductive Written : Rank → List Token → Condition → Prop where
  | predicate (own : Predicate) : Written .operand own.tokens (.ofPredicate own)
  | parentheses {tokens : List Token} {condition : Condition} (h : Written .disjunction tokens condition) :
      Written .operand (.symbol .leftParen :: (tokens ++ [.symbol .rightParen])) condition
  | operand {tokens : List Token} {condition : Condition} (h : Written .operand tokens condition) :
      Written .conjunction tokens condition
  | and {tokens others : List Token} {condition other : Condition} (h : Written .conjunction tokens condition)
      (hother : Written .operand others other) :
      Written .conjunction (tokens ++ .keyword .and :: others) (condition.conjoin other)
  | conjunction {tokens : List Token} {condition : Condition} (h : Written .conjunction tokens condition) :
      Written .disjunction tokens condition
  | or {tokens others : List Token} {condition other : Condition} (h : Written .disjunction tokens condition)
      (hother : Written .conjunction others other) :
      Written .disjunction (tokens ++ .keyword .or :: others) (condition.disjoin other)

/-! ## Reading -/

section

variable {fuel : Nat} {before : Condition} {rest : List Token}

/-- Without `AND` there are no further operands. -/
theorem run_furtherOperands_of_goesOn (hrest : GoesOn [.keyword .and] rest) :
    (furtherOperands (fuel + 1) before).run rest = .ok (before, rest) := by
  rw [furtherOperands, run_bind_of_ok (run_eatKeyword_of_goesOn hrest)]
  rfl

/-- Without `OR` there are no further alternatives. -/
theorem run_furtherAlternatives_of_goesOn (hrest : GoesOn [.keyword .or] rest) :
    (furtherAlternatives (fuel + 1) before).run rest = .ok (before, rest) := by
  rw [furtherAlternatives, run_bind_of_ok (run_eatKeyword_of_goesOn hrest)]
  rfl

end

/-- What reading does with tokens that stand for a condition at a rank. An operand is taken as a whole; of an alternative, and of
a condition, the reader comes to the point where it looks for more of them. There `steps` units of fuel have been used, which are
no more than there are tokens. -/
def IsRead : Rank → List Token → Condition → Prop
  | .operand, tokens, condition => ∀ fuel rest, 4 * tokens.length ≤ fuel + 3 → rest ≠ [] →
      (Reader.operand fuel).run (tokens ++ rest) = .ok (condition, rest)
  | .conjunction, tokens, condition => ∃ steps, 1 ≤ steps ∧ steps ≤ tokens.length ∧
      ∀ fuel rest, 4 * tokens.length ≤ fuel + steps + 2 → rest ≠ [] →
        (Reader.conjunction (fuel + steps)).run (tokens ++ rest) = (furtherOperands fuel condition).run rest
  | .disjunction, tokens, condition => ∃ steps, 1 ≤ steps ∧ steps ≤ tokens.length ∧
      ∀ fuel rest, 4 * tokens.length ≤ fuel + steps + 1 → GoesOn [.keyword .and] rest →
        (Reader.disjunction (fuel + steps)).run (tokens ++ rest) = (furtherAlternatives fuel condition).run rest

/-- An alternative is taken as a whole where no `AND` follows. -/
theorem IsRead.conjunction_whole {tokens : List Token} {condition : Condition} (h : IsRead .conjunction tokens condition)
    {fuel : Nat} (hfuel : 4 * tokens.length ≤ fuel + 2) {rest : List Token} (hrest : GoesOn [.keyword .and] rest) :
    (Reader.conjunction fuel).run (tokens ++ rest) = .ok (condition, rest) := by
  obtain ⟨steps, hpos, hsteps, hread⟩ := h
  obtain ⟨left, rfl⟩ : ∃ left, fuel = left + 1 + steps := ⟨fuel - 1 - steps, by omega⟩
  rw [hread (left + 1) rest hfuel hrest.ne_nil, run_furtherOperands_of_goesOn hrest]

/-- A condition is taken as a whole where neither `AND` nor `OR` follows. -/
theorem IsRead.disjunction_whole {tokens : List Token} {condition : Condition} (h : IsRead .disjunction tokens condition)
    {fuel : Nat} (hfuel : 4 * tokens.length ≤ fuel + 1) {rest : List Token}
    (hrest : GoesOn [.keyword .and, .keyword .or] rest) :
    (Reader.disjunction fuel).run (tokens ++ rest) = .ok (condition, rest) := by
  obtain ⟨steps, hpos, hsteps, hread⟩ := h
  obtain ⟨left, rfl⟩ : ∃ left, fuel = left + 1 + steps := ⟨fuel - 1 - steps, by omega⟩
  rw [hread (left + 1) rest hfuel (hrest.mono (by simp)), run_furtherAlternatives_of_goesOn (hrest.mono (by simp))]

/-- Tokens that stand for a condition are read as the condition, rank by rank. -/
theorem Written.isRead {rank : Rank} {tokens : List Token} {condition : Condition} (h : Written rank tokens condition) :
    IsRead rank tokens condition := by
  induction h with
  | predicate own =>
    intro fuel rest hfuel hrest
    obtain ⟨left, rfl⟩ : ∃ left, fuel = left + 1 := ⟨fuel - 1, by simp [Predicate.tokens] at hfuel; omega⟩
    have hparen : GoesOn [.symbol .leftParen] (own.tokens ++ rest) := goesOn_cons (by simp) _
    rw [Reader.operand, run_bind_of_ok (run_eat_of_goesOn hparen)]
    exact run_bind_of_ok (run_predicate hrest own)
  | @parentheses tokens condition _ ih =>
    intro fuel rest hfuel hrest
    simp only [List.length_cons, List.length_append, List.length_nil] at hfuel
    obtain ⟨left, rfl⟩ : ∃ left, fuel = left + 1 := ⟨fuel - 1, by omega⟩
    have hclosed : GoesOn [.keyword .and, .keyword .or] (.symbol .rightParen :: rest) := goesOn_cons (by simp) rest
    have hinner := ih.disjunction_whole (show 4 * tokens.length ≤ left + 1 by omega) hclosed
    rw [Reader.operand, List.cons_append, List.append_assoc, List.singleton_append,
      run_bind_of_ok (run_eat_self (by simp) _), if_pos rfl, run_bind_of_ok hinner, run_bind_of_ok (run_symbol hrest _)]
    rfl
  | @operand tokens condition h ih =>
    refine ⟨1, Nat.le_refl 1, ?_, fun fuel rest hfuel hrest => ?_⟩
    · cases h <;> simp [Predicate.tokens]
    · rw [Reader.conjunction, run_bind_of_ok (ih fuel rest (by omega) hrest)]
  | @and tokens others condition other _ _ ih ihother =>
    obtain ⟨steps, hpos, hsteps, hread⟩ := ih
    simp only [IsRead, List.length_append, List.length_cons]
    refine ⟨steps + 1, by omega, by omega, fun fuel rest hfuel hrest => ?_⟩
    have hafter : others ++ rest ≠ [] := by simp [hrest]
    rw [List.append_assoc, List.cons_append, show fuel + (steps + 1) = fuel + 1 + steps by omega,
      hread (fuel + 1) _ (by omega) (by simp), furtherOperands, run_bind_of_ok (run_eatKeyword_self hafter .and), if_pos rfl,
      run_bind_of_ok (ihother fuel rest (by omega) hrest)]
  | @conjunction tokens condition _ ih =>
    have hlength : 1 ≤ tokens.length := by
      obtain ⟨steps, hpos, hsteps, -⟩ := ih
      omega
    refine ⟨1, Nat.le_refl 1, hlength, fun fuel rest hfuel hrest => ?_⟩
    rw [Reader.disjunction, run_bind_of_ok (ih.conjunction_whole (by omega) hrest)]
  | @or tokens others condition other _ _ ih ihother =>
    obtain ⟨steps, hpos, hsteps, hread⟩ := ih
    simp only [IsRead, List.length_append, List.length_cons]
    refine ⟨steps + 1, by omega, by omega, fun fuel rest hfuel hrest => ?_⟩
    have hafter : others ++ rest ≠ [] := by simp [hrest.ne_nil]
    have hor : GoesOn [.keyword .and] (.keyword .or :: (others ++ rest)) := goesOn_cons (by simp) _
    rw [List.append_assoc, List.cons_append, show fuel + (steps + 1) = fuel + 1 + steps by omega,
      hread (fuel + 1) _ (by omega) hor, furtherAlternatives, run_bind_of_ok (run_eatKeyword_self hafter .or), if_pos rfl,
      run_bind_of_ok (ihother.conjunction_whole (by omega) hrest)]

/-- Tokens that stand for a condition are read as the condition where neither `AND` nor `OR` follows. -/
theorem read_of_written {tokens : List Token} {condition : Condition} (h : Written .disjunction tokens condition)
    {rest : List Token} (hrest : GoesOn [.keyword .and, .keyword .or] rest) :
    Condition.reader.run (tokens ++ rest) = .ok (condition, rest) := by
  have hfuel : 4 * tokens.length ≤ 4 * (tokens ++ rest).length + 4 + 1 := by
    rw [List.length_append]
    omega
  exact h.isRead.disjunction_whole hfuel hrest

end Condition

end SqlEngine
