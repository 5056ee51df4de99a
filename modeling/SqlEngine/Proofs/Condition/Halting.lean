import SqlEngine.Proofs.Condition.Acceptance
import SqlEngine.Proofs.Token.Halting

/-!
# Where the reading of conditions halts

More fuel changes no result of the five readers of conditions (`Continued`). A condition is endless exactly if the list ends in an opening
parenthesis and an operand is due there (`reader_endless_iff`), and then no fuel is enough (`Awaits.endless`). A round of one of the two
loops, and a condition in parentheses, leaves fewer tokens than it found (`movesBehind_and`, `movesBehind_or`,
`movesBehind_leftParen`).
-/

namespace SqlEngine

open Reader

namespace Condition

/-! ## More fuel -/

/-- One unit of fuel more changes no result of the five readers. -/
structure Continued (fuel : Nat) : Prop where
  disjunction : ContinuedBy (Reader.disjunction fuel) (Reader.disjunction (fuel + 1))
  furtherAlternatives : ∀ before, ContinuedBy (Reader.furtherAlternatives fuel before) (Reader.furtherAlternatives (fuel + 1) before)
  conjunction : ContinuedBy (Reader.conjunction fuel) (Reader.conjunction (fuel + 1))
  furtherOperands : ∀ before, ContinuedBy (Reader.furtherOperands fuel before) (Reader.furtherOperands (fuel + 1) before)
  operand : ContinuedBy (Reader.operand fuel) (Reader.operand (fuel + 1))

theorem Continued.succ {fuel : Nat} (h : Continued fuel) : Continued (fuel + 1) where
  disjunction := h.conjunction.bind h.furtherAlternatives
  furtherAlternatives before := continuedBy_bind fun _ =>
    .ite _ (h.conjunction.bind fun next => h.furtherAlternatives (before.disjoin next)) (continuedBy_refl _)
  conjunction := h.operand.bind h.furtherOperands
  furtherOperands before := continuedBy_bind fun _ =>
    .ite _ (h.operand.bind fun next => h.furtherOperands (before.conjoin next)) (continuedBy_refl _)
  operand := continuedBy_bind fun _ => .ite _ (h.disjunction.bind fun _ => continuedBy_refl _) (continuedBy_refl _)

theorem continued (fuel : Nat) : Continued fuel := by
  induction fuel with
  | zero =>
    exact {
      disjunction := continuedBy_of_endless
      furtherAlternatives := fun _ => continuedBy_of_endless
      conjunction := continuedBy_of_endless
      furtherOperands := fun _ => continuedBy_of_endless
      operand := continuedBy_of_endless }
  | succ fuel ih => exact ih.succ

/-! ## Where an operand is due -/

/-- The reader of the rank does not come to an end, with any fuel. -/
def IsEndless : Rank → List Token → Prop
  | .operand, tokens => ∀ fuel, (Reader.operand fuel).run tokens = .error .endless
  | .conjunction, tokens => ∀ fuel, (Reader.conjunction fuel).run tokens = .error .endless
  | .disjunction, tokens => ∀ fuel, (Reader.disjunction fuel).run tokens = .error .endless

section

variable {tokens : List Token}

theorem IsEndless.conjunction (h : IsEndless .operand tokens) : IsEndless .conjunction tokens := by
  rintro (_ | fuel)
  · rfl
  · exact run_bind_of_error (h fuel)

theorem IsEndless.disjunction (h : IsEndless .conjunction tokens) : IsEndless .disjunction tokens := by
  rintro (_ | fuel)
  · rfl
  · exact run_bind_of_error (h fuel)

/-- An operand that begins with a parenthesis is endless if the condition in it is. -/
theorem IsEndless.parenthesis (h : IsEndless .disjunction tokens) (hne : tokens ≠ []) :
    IsEndless .operand (.symbol .leftParen :: tokens) := by
  rintro (_ | fuel)
  · rfl
  · rw [Reader.operand, run_bind_of_ok (run_eat_self hne _), if_pos rfl]
    exact run_bind_of_error (h fuel)

end

/-- The last parenthesis of a list is taken again and again. -/
theorem isEndless_leftParen : IsEndless .operand [.symbol .leftParen] := fun fuel => (run_leftParen fuel).1

/-- An operand that is endless makes the alternative endless at whose end it stands. -/
theorem IsEndless.and {tokens others : List Token} {condition : Condition} (hwritten : Written .conjunction tokens condition)
    (h : IsEndless .operand others) (hne : others ≠ []) : IsEndless .conjunction (tokens ++ .keyword .and :: others) := by
  obtain ⟨steps, -, -, hread⟩ := hwritten.isRead
  refine endless_of_large (fun fuel => (continued fuel).conjunction) (4 * tokens.length + steps) fun fuel hfuel => ?_
  obtain ⟨left, rfl⟩ : ∃ left, fuel = left + steps := ⟨fuel - steps, by omega⟩
  rw [hread left _ (by omega) (List.cons_ne_nil _ _)]
  cases left with
  | zero => rfl
  | succ left =>
    rw [furtherOperands, run_bind_of_ok (run_eatKeyword_self hne .and), if_pos rfl]
    exact run_bind_of_error (h left)

/-- An alternative that is endless makes the condition endless at whose end it stands. -/
theorem IsEndless.or {tokens others : List Token} {condition : Condition} (hwritten : Written .disjunction tokens condition)
    (h : IsEndless .conjunction others) (hne : others ≠ []) : IsEndless .disjunction (tokens ++ .keyword .or :: others) := by
  obtain ⟨steps, -, -, hread⟩ := hwritten.isRead
  refine endless_of_large (fun fuel => (continued fuel).disjunction) (4 * tokens.length + steps) fun fuel hfuel => ?_
  obtain ⟨left, rfl⟩ : ∃ left, fuel = left + steps := ⟨fuel - steps, by omega⟩
  rw [hread left _ (by omega) (goesOn_cons (by simp) _)]
  cases left with
  | zero => rfl
  | succ left =>
    rw [furtherAlternatives, run_bind_of_ok (run_eatKeyword_self hne .or), if_pos rfl]
    exact run_bind_of_error (h left)

/-- Where an operand is due, a parenthesis at the end of the list is never left. -/
theorem Awaits.endless {rank : Rank} {front : List Token} (h : Awaits rank front) :
    IsEndless rank (front ++ [.symbol .leftParen]) := by
  induction h with
  | here => exact isEndless_leftParen
  | parenthesis _ ih => exact ih.parenthesis (by simp)
  | operand _ ih => exact ih.conjunction
  | and hwritten _ ih =>
    rw [List.append_assoc, List.cons_append]
    exact ih.and hwritten (by simp)
  | conjunction _ ih => exact ih.disjunction
  | or hwritten _ ih =>
    rw [List.append_assoc, List.cons_append]
    exact ih.or hwritten (by simp)

/-- A condition is endless only where an operand is due, and there with any fuel. -/
theorem reader_endless_iff {tokens : List Token} : Condition.reader.run tokens = .error .endless ↔
    ∃ front, tokens = front ++ [.symbol .leftParen] ∧ Awaits .disjunction front := by
  constructor
  · intro hend
    have hne : tokens ≠ [] := by
      rintro rfl
      exact ParseError.noConfusion (Except.error.inj hend)
    exact (passes_condition tokens (List.getLast?_eq_some_getLast hne) (Nat.le_refl _)).caught_of_endless hend
  · rintro ⟨front, rfl, hfront⟩
    exact hfront.endless _

/-- What there is fuel enough for is read in the same way with more fuel. -/
theorem run_disjunction_of_le {tokens : List Token} {fuel : Nat} (h : 4 * tokens.length + 4 ≤ fuel) :
    (Reader.disjunction fuel).run tokens = Condition.reader.run tokens := by
  rcases continuedBy_of_le (fun fuel => (continued fuel).disjunction) h tokens with hend | hsame
  · obtain ⟨front, rfl, hfront⟩ := reader_endless_iff.mp hend
    exact (hfront.endless fuel).trans hend.symm
  · exact hsame

/-! ## Rounds -/

/-- Behind an `AND`, an operand leaves fewer tokens. -/
theorem movesBehind_and (fuel : Nat) : MovesBehind (.keyword .and) (Reader.operand fuel) := by
  have hlength := neverLengthens_of_large (fun fuel => (continued fuel).operand)
    (fun last bound => ⟨_, fun fuel hfuel => (passing last fuel).operand bound hfuel⟩) fuel
  refine hlength.movesBehind nofun ?_
  cases fuel with
  | zero => exact ⟨_, rfl⟩
  | succ fuel =>
    obtain ⟨_, _, hrun⟩ := refusedAt_operand fuel .and
    exact ⟨_, hrun⟩

/-- Behind an `OR`, an alternative leaves fewer tokens. -/
theorem movesBehind_or (fuel : Nat) : MovesBehind (.keyword .or) (Reader.conjunction fuel) := by
  have hlength := neverLengthens_of_large (fun fuel => (continued fuel).conjunction)
    (fun last bound => ⟨_, fun fuel hfuel => (passing last fuel).conjunction bound hfuel⟩) fuel
  refine hlength.movesBehind nofun ?_
  match fuel with
  | 0 | 1 => exact ⟨_, rfl⟩
  | fuel + 2 =>
    obtain ⟨_, _, hrun⟩ := refusedAt_conjunction fuel .or
    exact ⟨_, hrun⟩

/-- Behind a parenthesis, a condition leaves fewer tokens, if it comes to an end. -/
theorem movesBehind_leftParen (fuel : Nat) : MovesBehind (.symbol .leftParen) (Reader.disjunction fuel) := by
  have hlength := neverLengthens_of_large (fun fuel => (continued fuel).disjunction)
    (fun last bound => ⟨_, fun fuel hfuel => (passing last fuel).disjunction bound hfuel⟩) fuel
  exact hlength.movesBehind nofun ⟨_, isEndless_leftParen.conjunction.disjunction fuel⟩

end Condition

end SqlEngine
