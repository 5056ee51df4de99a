import SqlEngine.Proofs.Condition.Grammar
import SqlEngine.Proofs.Token.Passing

/-!
# Which conditions are accepted

What is passed as a condition stands for the condition by the grammar, and a reader of conditions is caught only behind tokens that await
an operand (`passes_condition`). The five readers call each other with ever less fuel, and of three calls in a row at least one leaves a
token behind before it (`Passing`), so that three units of fuel for every token are enough. A token at the end of the list is not left
behind: an `AND` or an `OR` there is not followed by an operand, and only a parenthesis is taken again and again (`run_leftParen`).
-/

namespace SqlEngine

open Reader

/-- An operator is what its token stands for, and no other token stands for it. -/
theorem Token.operator?_eq_some_iff {token : Token} {operator : Operator} :
    token.operator? = some operator ↔ token = operator.token := by
  constructor
  · intro h
    unfold Token.operator? at h
    split at h <;> cases h <;> rfl
  · rintro rfl
    exact operator.operator?_token

namespace Reader

variable {last : Token} {bound : Nat}

theorem passes_operator : Passes last bound operator (fun taken operator => taken = [operator.token]) nowhere := by
  refine passes_peek_bind fun token rest hlast hlength => ?_
  cases hoperator : token.operator? with
  | none => exact passesFrom_fail _ _
  | some operator =>
    obtain rfl := Token.operator?_eq_some_iff.mp hoperator
    have hstops : ¬operator.token.Stops := by
      cases operator <;> simp [Operator.token]
    exact passesFrom_advance_bind hlast hlength hstops (passes_pure fun _ => rfl)

theorem passes_predicate : Passes last bound predicate (fun taken own => taken = own.tokens) nowhere := by
  refine passes_identifier.andThen fun column => ?_
  refine passes_operator.andThen fun operator => ?_
  refine passes_literal.andThen fun value => ?_
  exact passes_pure fun _ => rfl

/-- No operand begins with a keyword. -/
theorem refusedAt_operand (fuel : Nat) (word : Keyword) : RefusedAt (.keyword word) (operand (fuel + 1)) := by
  have hparen : GoesOn [.symbol .leftParen] [.keyword word] := by simp
  refine ⟨.identifier, .keyword word, ?_⟩
  rw [operand, run_bind_of_ok (run_eat_of_goesOn hparen)]
  rfl

theorem refusedAt_conjunction (fuel : Nat) (word : Keyword) : RefusedAt (.keyword word) (conjunction (fuel + 2)) := by
  obtain ⟨needed, found, hrun⟩ := refusedAt_operand fuel word
  exact ⟨needed, found, run_bind_of_error hrun⟩

/-- Where a parenthesis is the last token, the first operand of the condition in it begins with it again. -/
theorem run_leftParen (fuel : Nat) : (operand fuel).run [.symbol .leftParen] = .error .endless ∧
    (conjunction fuel).run [.symbol .leftParen] = .error .endless ∧
    (disjunction fuel).run [.symbol .leftParen] = .error .endless := by
  induction fuel with
  | zero => exact ⟨rfl, rfl, rfl⟩
  | succ fuel ih =>
    obtain ⟨hoperand, hconjunction, hdisjunction⟩ := ih
    refine ⟨?_, run_bind_of_error hoperand, run_bind_of_error hconjunction⟩
    rw [operand, run_bind_of_ok (run_eat_last _), if_pos rfl]
    exact run_bind_of_error hdisjunction

end Reader

namespace Condition

/-- Behind the tokens, an operand is due of an operand, of an alternative or of a condition that they begin. -/
inductive Awaits : Rank → List Token → Prop where
  | here : Awaits .operand []
  | parenthesis {front : List Token} (h : Awaits .disjunction front) : Awaits .operand (.symbol .leftParen :: front)
  | operand {front : List Token} (h : Awaits .operand front) : Awaits .conjunction front
  | and {tokens front : List Token} {condition : Condition} (hwritten : Written .conjunction tokens condition)
      (h : Awaits .operand front) : Awaits .conjunction (tokens ++ .keyword .and :: front)
  | conjunction {front : List Token} (h : Awaits .conjunction front) : Awaits .disjunction front
  | or {tokens front : List Token} {condition : Condition} (hwritten : Written .disjunction tokens condition)
      (h : Awaits .conjunction front) : Awaits .disjunction (tokens ++ .keyword .or :: front)

/-- With the fuel, which is enough for as many tokens as the bound says, each of the five readers passes what stands for the
condition that it gives, or it is caught where an operand is due. -/
structure Passing (last : Token) (fuel : Nat) : Prop where
  disjunction : ∀ bound, 3 * bound + 3 ≤ fuel →
    Passes last bound (Reader.disjunction fuel) (Written .disjunction) (Awaits .disjunction)
  furtherAlternatives : ∀ bound, 3 * bound + 2 ≤ fuel → ∀ before condition,
    (last.Stops → Written .disjunction before condition) → Passes last bound (Reader.furtherAlternatives fuel condition)
      (fun taken whole => Written .disjunction (before ++ taken) whole) fun front => Awaits .disjunction (before ++ front)
  conjunction : ∀ bound, 3 * bound + 2 ≤ fuel →
    Passes last bound (Reader.conjunction fuel) (Written .conjunction) (Awaits .conjunction)
  furtherOperands : ∀ bound, 3 * bound + 1 ≤ fuel → ∀ before condition,
    (last.Stops → Written .conjunction before condition) → Passes last bound (Reader.furtherOperands fuel condition)
      (fun taken whole => Written .conjunction (before ++ taken) whole) fun front => Awaits .conjunction (before ++ front)
  operand : ∀ bound, 3 * bound + 1 ≤ fuel → Passes last bound (Reader.operand fuel) (Written .operand) (Awaits .operand)

/-- One unit of fuel more is enough for each reader, if what is left is enough for the readers that it calls. -/
theorem Passing.succ {last : Token} {fuel : Nat} (h : Passing last fuel) : Passing last (fuel + 1) where
  disjunction bound hfuel := by
    refine (h.conjunction bound (by omega)).bind (fun _ _ => .conjunction) fun taken first hfirst => ?_
    exact h.furtherAlternatives bound (by omega) taken first fun hstops => .conjunction (hfirst hstops)
  furtherAlternatives bound hfuel before condition hbefore := by
    refine passes_ite_eat (fun hpos => ?_) (fun hpos _ => ?_) ?_
    · refine (h.conjunction (bound - 1) (by omega)).bind (fun hstops _ => .or (hbefore hstops)) fun taken next hnext => ?_
      have hlater := h.furtherAlternatives (bound - 1) (by omega) (before ++ .keyword .or :: taken) (condition.disjoin next)
        fun hstops => (hbefore hstops).or (hnext hstops)
      simpa only [List.append_assoc, List.cons_append] using hlater
    -- An `OR` that is not left behind is no alternative.
    · obtain ⟨left, rfl⟩ : ∃ left, fuel = left + 2 := ⟨fuel - 2, by omega⟩
      obtain ⟨needed, found, hrun⟩ := refusedAt_conjunction left .or
      exact passesFrom_of_unexpected (run_bind_of_error hrun)
    · refine passes_pure fun hstops => ?_
      rw [List.append_nil]
      exact hbefore hstops
  conjunction bound hfuel := by
    refine (h.operand bound (by omega)).bind (fun _ _ => .operand) fun taken first hfirst => ?_
    exact h.furtherOperands bound (by omega) taken first fun hstops => .operand (hfirst hstops)
  furtherOperands bound hfuel before condition hbefore := by
    refine passes_ite_eat (fun hpos => ?_) (fun hpos _ => ?_) ?_
    · refine (h.operand (bound - 1) (by omega)).bind (fun hstops _ => .and (hbefore hstops)) fun taken next hnext => ?_
      have hlater := h.furtherOperands (bound - 1) (by omega) (before ++ .keyword .and :: taken) (condition.conjoin next)
        fun hstops => (hbefore hstops).and (hnext hstops)
      simpa only [List.append_assoc, List.cons_append] using hlater
    -- An `AND` that is not left behind is no operand.
    · obtain ⟨left, rfl⟩ : ∃ left, fuel = left + 1 := ⟨fuel - 1, by omega⟩
      obtain ⟨needed, found, hrun⟩ := refusedAt_operand left .and
      exact passesFrom_of_unexpected (run_bind_of_error hrun)
    · refine passes_pure fun hstops => ?_
      rw [List.append_nil]
      exact hbefore hstops
  operand bound hfuel := by
    refine passes_ite_eat (fun hpos => ?_) (fun _ hlast => ?_) ?_
    -- The parenthesis pays for the three calls that lead from here to the next operand.
    · refine (h.disjunction (bound - 1) (by omega)).bind (fun _ _ => .parenthesis) fun taken inner hinner => ?_
      refine (passes_expect (by simp)).andThen fun _ => ?_
      refine passes_pure fun hstops => ?_
      rw [List.append_nil]
      exact .parentheses (hinner hstops)
    · subst hlast
      rw [PassesFrom, run_bind_of_error (run_leftParen fuel).2.2]
      exact Or.inr ⟨rfl, rfl, [], rfl, .here⟩
    · refine passes_predicate.andThen fun own => ?_
      refine passes_pure fun _ => ?_
      rw [List.append_nil]
      exact .predicate own

/-- The bounds grow with the fuel; without any fuel there is nothing that it is enough for. -/
theorem passing (last : Token) (fuel : Nat) : Passing last fuel := by
  induction fuel with
  | zero =>
    exact {
      disjunction := fun _ h => absurd h (by omega)
      furtherAlternatives := fun _ h => absurd h (by omega)
      conjunction := fun _ h => absurd h (by omega)
      furtherOperands := fun _ h => absurd h (by omega)
      operand := fun _ h => absurd h (by omega) }
  | succ fuel ih => exact ih.succ

theorem passes_condition {last : Token} {bound : Nat} :
    Passes last bound Condition.reader (Written .disjunction) (Awaits .disjunction) :=
  passes_get_bind fun tokens _ => (passing last (4 * tokens.length + 4)).disjunction tokens.length (by omega)

end Condition

end SqlEngine
