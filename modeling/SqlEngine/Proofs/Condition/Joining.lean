import SqlEngine.Proofs.Condition.Meaning

/-!
# Conditions joined

A condition conjoined with another one holds where both hold (`holds_conjoin`), and one widened by another one where either does
(`holds_disjoin`); both ask the predicates of both conditions, and no others. So joining is associative as far as the predicates
and the meaning go, though the joined trees differ (`Equivalent`).
-/

namespace SqlEngine

namespace Condition

variable {schema : Schema} {row : Row}

/-! ## Where joined conditions hold -/

theorem everyHolds_concat (clauses : List Condition) (clause : Condition) :
    everyHolds schema row (clauses ++ [clause]) = (everyHolds schema row clauses && clause.holds schema row) := by
  induction clauses with
  | nil => rw [List.nil_append, everyHolds, everyHolds, everyHolds, Bool.and_true, Bool.true_and]
  | cons first rest ih => rw [List.cons_append, everyHolds, everyHolds, ih, Bool.and_assoc]

theorem someHolds_concat (clauses : List Condition) (clause : Condition) :
    someHolds schema row (clauses ++ [clause]) = (someHolds schema row clauses || clause.holds schema row) := by
  induction clauses with
  | nil => rw [List.nil_append, someHolds, someHolds, someHolds, Bool.or_false, Bool.false_or]
  | cons first rest ih => rw [List.cons_append, someHolds, someHolds, ih, Bool.or_assoc]

/-- What narrows every condition of a list can be taken out of all of them. -/
theorem someHolds_conjoinEach {clauses : List Condition} {other : Condition}
    (h : ∀ clause ∈ clauses, (clause.conjoin other).holds schema row = (clause.holds schema row && other.holds schema row)) :
    someHolds schema row (conjoinEach clauses other) = (someHolds schema row clauses && other.holds schema row) := by
  induction clauses with
  | nil => rfl
  | cons clause rest ih =>
    obtain ⟨hclause, hrest⟩ := List.forall_mem_cons.mp h
    rw [conjoinEach, someHolds, someHolds, hclause, ih hrest, Bool.and_or_distrib_right]

/-- A condition conjoined with another one holds exactly where both do. -/
@[simp] theorem holds_conjoin (condition other : Condition) :
    (condition.conjoin other).holds schema row = (condition.holds schema row && other.holds schema row) := by
  induction condition with
  | node own ands ors _ ihors =>
    rw [conjoin, holds, holds, everyHolds_concat, someHolds_conjoinEach ihors, ← Bool.and_assoc,
      ← Bool.and_or_distrib_right]

/-- A condition widened by another one holds exactly where one of them does. -/
@[simp] theorem holds_disjoin (condition other : Condition) :
    (condition.disjoin other).holds schema row = (condition.holds schema row || other.holds schema row) := by
  cases condition with
  | node own ands ors => rw [disjoin, holds, holds, someHolds_concat, ← Bool.or_assoc]

/-! ## Which predicates they ask -/

/-- A condition conjoined with another one has the predicates of both. -/
@[simp] theorem mem_predicates_conjoin {predicate : Predicate} (condition other : Condition) :
    predicate ∈ (condition.conjoin other).predicates ↔ predicate ∈ condition.predicates ∨ predicate ∈ other.predicates := by
  induction condition with
  | node own ands ors _ ihors =>
    have hors : (∃ clause ∈ conjoinEach ors other, predicate ∈ clause.predicates) ↔
        ∃ clause ∈ ors, predicate ∈ clause.predicates ∨ predicate ∈ other.predicates := by
      simp only [conjoinEach_eq_map, List.mem_map, exists_exists_and_eq_and]
      exact exists_congr fun clause => and_congr_right (ihors clause)
    simp only [conjoin, predicates, List.mem_cons, List.mem_append, mem_predicatesOfEach, hors]
    grind

/-- A condition widened by another one has the predicates of both. -/
@[simp] theorem mem_predicates_disjoin {predicate : Predicate} (condition other : Condition) :
    predicate ∈ (condition.disjoin other).predicates ↔ predicate ∈ condition.predicates ∨ predicate ∈ other.predicates := by
  cases condition with
  | node own ands ors =>
    simp only [disjoin, predicates, List.mem_cons, List.mem_append, mem_predicatesOfEach, or_and_right, exists_or,
      List.not_mem_nil, or_false, exists_eq_left, or_assoc]

/-! ## Joining in another order -/

/-- Two conditions ask the same predicates and hold on the same rows. -/
structure Equivalent (first second : Condition) : Prop where
  predicates : ∀ predicate, predicate ∈ first.predicates ↔ predicate ∈ second.predicates
  holds : ∀ schema row, first.holds schema row = second.holds schema row

namespace Equivalent

variable {first second third : Condition}

theorem refl (condition : Condition) : condition.Equivalent condition :=
  ⟨fun _ => Iff.rfl, fun _ _ => rfl⟩

/-- Operands may be conjoined one after the other, or the later ones first. -/
theorem conjoin_assoc (h : first.Equivalent (second.conjoin third)) (other : Condition) :
    (first.conjoin other).Equivalent (second.conjoin (third.conjoin other)) where
  predicates predicate := by simp only [mem_predicates_conjoin, h.predicates, or_assoc]
  holds schema row := by simp only [holds_conjoin, h.holds, Bool.and_assoc]

/-- Alternatives may be added one after the other, or the later ones first. -/
theorem disjoin_assoc (h : first.Equivalent (second.disjoin third)) (other : Condition) :
    (first.disjoin other).Equivalent (second.disjoin (third.disjoin other)) where
  predicates predicate := by simp only [mem_predicates_disjoin, h.predicates, or_assoc]
  holds schema row := by simp only [holds_disjoin, h.holds, Bool.or_assoc]

end Equivalent

end Condition

end SqlEngine
