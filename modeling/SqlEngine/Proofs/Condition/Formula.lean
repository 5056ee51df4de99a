import Mathlib
import SqlEngine.Proofs.Condition.Grammar
import SqlEngine.Proofs.Condition.Joining
import SqlEngine.Statement.Reader

/-!
# Formulas and how they are read

A formula joins predicates with and and with or in any way. It is written with parentheses around an or that stands directly under
an and, and with as many more around any part as one likes (`Formula.Written`). The reader keeps no such tree: it narrows and
widens the condition read so far. The condition that it ends in expresses the formula all the same (`written_condition`), so that
what stands behind `WHERE` evaluates on a row to the truth of the formula (`truth_of_written`).
-/

namespace SqlEngine

open Reader

/-- Predicates joined with and and with or. -/
inductive Formula where
  | atom (predicate : Predicate)
  | and (first second : Formula)
  | or (first second : Formula)
  deriving DecidableEq, Repr

namespace Formula

/-- The predicates of a formula. -/
def atoms : Formula → List Predicate
  | atom predicate => [predicate]
  | and first second => first.atoms ++ second.atoms
  | or first second => first.atoms ++ second.atoms

/-- Whether the formula is true of a row. -/
def holds (schema : Schema) (row : Row) : Formula → Bool
  | atom predicate => predicate.holds schema row
  | and first second => first.holds schema row && second.holds schema row
  | or first second => first.holds schema row || second.holds schema row

/-- The tokens are a writing of the formula. The rank is that of what joins it outside of all parentheses: an or may not stand there
in a part of an and. -/
inductive Written : Condition.Rank → List Token → Formula → Prop where
  | atom (predicate : Predicate) : Written .operand predicate.tokens (.atom predicate)
  | parentheses {rank : Condition.Rank} {tokens : List Token} {formula : Formula} (h : Written rank tokens formula) :
      Written .operand (.symbol .leftParen :: (tokens ++ [.symbol .rightParen])) formula
  | and {rank otherRank : Condition.Rank} {tokens others : List Token} {first second : Formula}
      (h : Written rank tokens first) (hrank : rank ≠ .disjunction)
      (hother : Written otherRank others second) (hotherRank : otherRank ≠ .disjunction) :
      Written .conjunction (tokens ++ .keyword .and :: others) (.and first second)
  | or {rank otherRank : Condition.Rank} {tokens others : List Token} {first second : Formula}
      (h : Written rank tokens first) (hother : Written otherRank others second) :
      Written .disjunction (tokens ++ .keyword .or :: others) (.or first second)

end Formula

namespace Condition

/-! ## Tokens side by side -/

namespace Written

variable {rank : Rank} {tokens others : List Token} {condition other : Condition}

/-- What is not an alternative among others may be an operand among others. -/
theorem toConjunction (h : Written rank tokens condition) (hrank : rank ≠ .disjunction) :
    Written .conjunction tokens condition := by
  cases rank with
  | operand => exact .operand h
  | conjunction => exact h
  | disjunction => exact absurd rfl hrank

theorem toDisjunction (h : Written rank tokens condition) : Written .disjunction tokens condition := by
  cases rank with
  | operand => exact .conjunction (.operand h)
  | conjunction => exact .conjunction h
  | disjunction => exact h

/-- Operands, `AND` and more operands stand for what both sides say together. They are joined from the left, so this is by
induction on the side to the right, which is taken over operand by operand. -/
theorem and_conjunction (h : Written .conjunction tokens condition) (hother : Written .conjunction others other) :
    ∃ joined, Written .conjunction (tokens ++ .keyword .and :: others) joined ∧
      joined.Equivalent (condition.conjoin other) := by
  generalize hrank : Rank.conjunction = rank at hother
  induction hother with
  | operand hown => exact ⟨_, h.and hown, .refl _⟩
  | @and front last between final _ hlast ih _ =>
    obtain ⟨joined, hwritten, hequivalent⟩ := ih rfl
    refine ⟨joined.conjoin final, ?_, hequivalent.conjoin_assoc final⟩
    simpa only [List.append_assoc, List.cons_append] using hwritten.and hlast
  | predicate | parentheses | conjunction | or => exact nomatch hrank

/-- Alternatives, `OR` and more alternatives stand for what one of the sides says. -/
theorem or_disjunction (h : Written .disjunction tokens condition) (hother : Written .disjunction others other) :
    ∃ joined, Written .disjunction (tokens ++ .keyword .or :: others) joined ∧
      joined.Equivalent (condition.disjoin other) := by
  generalize hrank : Rank.disjunction = rank at hother
  induction hother with
  | conjunction hown => exact ⟨_, h.or hown, .refl _⟩
  | @or front last between final _ hlast ih _ =>
    obtain ⟨joined, hwritten, hequivalent⟩ := ih rfl
    refine ⟨joined.disjoin final, ?_, hequivalent.disjoin_assoc final⟩
    simpa only [List.append_assoc, List.cons_append] using hwritten.or hlast
  | predicate | parentheses | operand | and => exact nomatch hrank

end Written

/-! ## Conditions that express formulas -/

/-- A condition asks the predicates of a formula and holds where the formula is true. -/
structure Expresses (condition : Condition) (formula : Formula) : Prop where
  predicates : ∀ predicate, predicate ∈ condition.predicates ↔ predicate ∈ formula.atoms
  holds : ∀ schema row, condition.holds schema row = formula.holds schema row

namespace Expresses

variable {condition other joined : Condition} {first second : Formula}

theorem atom (predicate : Predicate) : (ofPredicate predicate).Expresses (.atom predicate) where
  predicates _ := by simp [ofPredicate, Condition.predicates, predicatesOfEach, Formula.atoms]
  holds _ _ := by simp [ofPredicate, Condition.holds, everyHolds, someHolds, Formula.holds]

theorem and (h : condition.Expresses first) (hother : other.Expresses second) (hjoined : joined.Equivalent (condition.conjoin other)) :
    joined.Expresses (.and first second) where
  predicates predicate := by
    rw [hjoined.predicates, mem_predicates_conjoin, h.predicates, hother.predicates, Formula.atoms, List.mem_append]
  holds schema row := by rw [hjoined.holds, holds_conjoin, h.holds, hother.holds, Formula.holds]

theorem or (h : condition.Expresses first) (hother : other.Expresses second) (hjoined : joined.Equivalent (condition.disjoin other)) :
    joined.Expresses (.or first second) where
  predicates predicate := by
    rw [hjoined.predicates, mem_predicates_disjoin, h.predicates, hother.predicates, Formula.atoms, List.mem_append]
  holds schema row := by rw [hjoined.holds, holds_disjoin, h.holds, hother.holds, Formula.holds]

end Expresses

end Condition

namespace Formula

/-- A writing of a formula stands for a condition that expresses the formula. -/
theorem written_condition {rank : Condition.Rank} {tokens : List Token} {formula : Formula} (h : formula.Written rank tokens) :
    ∃ condition, Condition.Written rank tokens condition ∧ condition.Expresses formula := by
  induction h with
  | atom predicate => exact ⟨_, .predicate predicate, .atom predicate⟩
  | parentheses _ ih =>
    obtain ⟨condition, hwritten, hexpresses⟩ := ih
    exact ⟨condition, .parentheses hwritten.toDisjunction, hexpresses⟩
  | and _ hrank _ hotherRank ih ihother =>
    obtain ⟨condition, hwritten, hexpresses⟩ := ih
    obtain ⟨other, hotherWritten, hotherExpresses⟩ := ihother
    obtain ⟨joined, hjoined, hequivalent⟩ :=
      (hwritten.toConjunction hrank).and_conjunction (hotherWritten.toConjunction hotherRank)
    exact ⟨joined, hjoined, hexpresses.and hotherExpresses hequivalent⟩
  | or _ _ ih ihother =>
    obtain ⟨condition, hwritten, hexpresses⟩ := ih
    obtain ⟨other, hotherWritten, hotherExpresses⟩ := ihother
    obtain ⟨joined, hjoined, hequivalent⟩ := hwritten.toDisjunction.or_disjunction hotherWritten.toDisjunction
    exact ⟨joined, hjoined, hexpresses.or hotherExpresses hequivalent⟩

/-- A writing of a formula behind `WHERE` is read, as a condition that evaluates on a row to the truth of the formula, whenever the
row and the predicates suit the schema and the patterns can be made ready. -/
theorem truth_of_written [Pattern.Compiler] {rank : Condition.Rank} {tokens : List Token} {formula : Formula}
    (h : Written rank tokens formula) :
    ∃ condition,
      (∀ rest, GoesOn [.keyword .and, .keyword .or] rest →
        Statement.whereReader.run (.keyword .where :: (tokens ++ rest)) = .ok (some condition, rest)) ∧
      ∀ schema row, schema.Admits row → (∀ predicate ∈ formula.atoms, predicate.check schema = .ok ()) →
        (∀ predicate ∈ formula.atoms, predicate.Compiles) →
        condition.truth schema row = .ok (formula.holds schema row) := by
  obtain ⟨condition, hwritten, hexpresses⟩ := written_condition h
  refine ⟨condition, fun rest hrest => ?_, fun schema row hrow hcheck hcompiles => ?_⟩
  · have hread := Condition.read_of_written hwritten.toDisjunction hrest
    have hfront : tokens ++ rest ≠ [] := by simp [hrest.ne_nil]
    rw [Statement.whereReader, Reader.optional, run_bind_of_ok (run_eatKeyword_self hfront .where), if_pos rfl, run_bind_of_ok hread]
    rfl
  · rw [Condition.truth_eq_holds hrow, hexpresses.holds]
    · exact fun predicate hmem => hcheck predicate ((hexpresses.predicates predicate).mp hmem)
    · exact fun predicate hmem => hcompiles predicate ((hexpresses.predicates predicate).mp hmem)

/-- `( age >= 3 OR ( name = 'bob' ) ) AND name LIKE 'a%' OR age = 4` is not true of a bob of the age of one: the operand behind
`AND` narrows both alternatives in the parentheses. -/
theorem truth_of_written_parentheses :
    letI : Pattern.Compiler := .unbounded
    let grown : Predicate := ⟨"age", .ge, .int 3⟩
    let bob : Predicate := ⟨"name", .eq, .text "bob"⟩
    let initial : Predicate := ⟨"name", .like, .text "a%"⟩
    let four : Predicate := ⟨"age", .eq, .int 4⟩
    let tokens : List Token :=
      [.symbol .leftParen, .ident "age", .symbol .greaterEqual, .number 3, .keyword .or,
        .symbol .leftParen, .ident "name", .symbol .equal, .string "bob", .symbol .rightParen, .symbol .rightParen,
        .keyword .and, .ident "name", .keyword .like, .string "a%",
        .keyword .or, .ident "age", .symbol .equal, .number 4]
    let formula : Formula := .or (.and (.or (.atom grown) (.atom bob)) (.atom initial)) (.atom four)
    let schema : Schema := ⟨[⟨"age", .int⟩, ⟨"name", .text⟩], by decide, by decide⟩
    formula.Written .disjunction tokens ∧ schema.Admits [.int 1, .text "bob"] ∧
      (∀ predicate ∈ formula.atoms, predicate.check schema = .ok ()) ∧ (∀ predicate ∈ formula.atoms, predicate.Compiles) ∧
      ∃ condition,
        Statement.whereReader.run (.keyword .where :: (tokens ++ [.eof])) = .ok (some condition, [.eof]) ∧
        condition.truth schema [.int 1, .text "bob"] = .ok false := by
  let : Pattern.Compiler := .unbounded
  intro grown bob initial four tokens formula schema
  have hwritten : formula.Written .disjunction tokens :=
    .or (.and (.parentheses (.or (.atom grown) (.parentheses (.atom bob)))) (by decide) (.atom initial) (by decide))
      (.atom four)
  have hrow : schema.Admits [.int 1, .text "bob"] := by decide
  have hcheck : ∀ predicate ∈ formula.atoms, predicate.check schema = .ok () := by
    rw [← ExceptAux.forM_eq_ok_iff]
    cbv
  have hcompiles : ∀ predicate ∈ formula.atoms, predicate.Compiles := by
    simp only [← Predicate.prepare_eq_ok_iff, ← ExceptAux.forM_eq_ok_iff]
    cbv
  obtain ⟨condition, hread, htruth⟩ := truth_of_written hwritten
  have hfalse : formula.holds schema [.int 1, .text "bob"] = false := by cbv
  refine ⟨hwritten, hrow, hcheck, hcompiles, condition, hread [.eof] (by simp), ?_⟩
  rw [htruth schema _ hrow hcheck hcompiles, hfalse]

end Formula

end SqlEngine
