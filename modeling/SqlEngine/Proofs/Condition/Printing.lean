import SqlEngine.Proofs.Condition.Grammar
import SqlEngine.Proofs.Condition.Meaning

/-!
# Printing conditions

A condition is printed as its predicate, then `AND` and a parenthesised condition for every and-clause, then `OR` and a
parenthesised condition for every or-clause. What is printed stands for the condition (`written_tokens`): the parentheses keep
the clauses of a clause apart from those of the node, so nothing is distributed over anything when it is read again.
-/

namespace SqlEngine

namespace Condition

mutual

/-- The tokens of a condition. -/
def tokens : Condition → List Token
  | node own ands ors => own.tokens ++ clauseTokens .and ands ++ clauseTokens .or ors

/-- The tokens of clauses, each of them behind the keyword and in parentheses. -/
def clauseTokens (word : Keyword) : List Condition → List Token
  | [] => []
  | clause :: rest =>
    .keyword word :: .symbol .leftParen :: (clause.tokens ++ [.symbol .rightParen]) ++ clauseTokens word rest

end

/-- Printed and-clauses behind a node without or-clauses stand for the node with these clauses more. -/
theorem written_ands {own : Predicate} (ands : List Condition) (h : ∀ clause ∈ ands, Written .disjunction clause.tokens clause) :
    ∀ {printed : List Token} {before : List Condition}, Written .conjunction printed (node own before []) →
      Written .conjunction (printed ++ clauseTokens .and ands) (node own (before ++ ands) []) := by
  induction ands with
  | nil =>
    intro printed before hbefore
    simpa only [clauseTokens, List.append_nil] using hbefore
  | cons clause rest ih =>
    intro printed before hbefore
    obtain ⟨hclause, hrest⟩ := List.forall_mem_cons.mp h
    have hmore := ih hrest (hbefore.and (.parentheses hclause))
    simpa only [clauseTokens, conjoin, conjoinEach, List.append_assoc, List.cons_append, List.nil_append] using hmore

/-- Printed or-clauses behind a node stand for the node with these clauses more. -/
theorem written_ors {own : Predicate} {ands : List Condition} (ors : List Condition)
    (h : ∀ clause ∈ ors, Written .disjunction clause.tokens clause) :
    ∀ {printed : List Token} {before : List Condition}, Written .disjunction printed (node own ands before) →
      Written .disjunction (printed ++ clauseTokens .or ors) (node own ands (before ++ ors)) := by
  induction ors with
  | nil =>
    intro printed before hbefore
    simpa only [clauseTokens, List.append_nil] using hbefore
  | cons clause rest ih =>
    intro printed before hbefore
    obtain ⟨hclause, hrest⟩ := List.forall_mem_cons.mp h
    have hmore := ih hrest (hbefore.or (.operand (.parentheses hclause)))
    simpa only [clauseTokens, disjoin, List.append_assoc, List.cons_append, List.nil_append] using hmore

/-- What is printed for a condition stands for the condition. -/
theorem written_tokens (condition : Condition) : Written .disjunction condition.tokens condition := by
  induction condition with
  | node own ands ors ihands ihors =>
    have hown : Written .conjunction own.tokens (node own [] []) := .operand (.predicate own)
    exact written_ors ors ihors (.conjunction (written_ands ands ihands hown))

end Condition

end SqlEngine
