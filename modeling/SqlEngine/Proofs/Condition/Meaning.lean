import SqlEngine.Proofs.Condition.Predicate

/-!
# What a condition means

A condition holds on a row (`Condition.holds`) when its own predicate and all its and-clauses hold, or else when some
or-clause holds. Whatever the engine checks of a condition is a check of each of its predicates, in the order in which they
stand (`check_eq_forM`), so a condition is at fault exactly where one of its predicates is, at whatever depth. On a row that
suits the schema, a condition that passes its check and whose patterns can be made ready evaluates to whether it holds
(`truth_eq_holds`).
-/

namespace SqlEngine

namespace Condition

/-- Induction on conditions: what passes from all clauses of a node to the node is true of every condition. -/
@[elab_as_elim, induction_eliminator]
theorem induct {motive : Condition → Prop}
    (node : ∀ own ands ors, (∀ clause ∈ ands, motive clause) → (∀ clause ∈ ors, motive clause) →
      motive (.node own ands ors)) : ∀ condition, motive condition
  | .node own ands ors => node own ands ors (fun clause _ => induct node clause) (fun clause _ => induct node clause)

/-! ## Predicates -/

mutual

/-- The predicates of all nodes, in the order in which a check comes to them. -/
def predicates : Condition → List Predicate
  | node own ands ors => own :: (predicatesOfEach ands ++ predicatesOfEach ors)

/-- The predicates of all nodes of a list of conditions. -/
def predicatesOfEach : List Condition → List Predicate
  | [] => []
  | clause :: rest => clause.predicates ++ predicatesOfEach rest

end

/-- A predicate of a list of conditions is one of a condition of the list. -/
theorem mem_predicatesOfEach {predicate : Predicate} {clauses : List Condition} :
    predicate ∈ predicatesOfEach clauses ↔ ∃ clause ∈ clauses, predicate ∈ clause.predicates := by
  induction clauses with
  | nil => simp [predicatesOfEach]
  | cons clause rest ih =>
    simp only [predicatesOfEach, List.mem_append, ih, List.mem_cons, or_and_right, exists_or, exists_eq_left]

/-- What is true of every predicate of a node is true of its own and of those of its clauses. -/
theorem forall_predicates_node {P : Predicate → Prop} {own : Predicate} {ands ors : List Condition} :
    (∀ predicate ∈ (node own ands ors).predicates, P predicate) ↔
      P own ∧ (∀ predicate ∈ predicatesOfEach ands, P predicate) ∧ ∀ predicate ∈ predicatesOfEach ors, P predicate := by
  rw [predicates, List.forall_mem_cons, List.forall_mem_append]

/-! ## Holding on a row -/

mutual

/-- Whether the condition holds on a row: its predicate and all its and-clauses, or else one of its or-clauses. -/
def holds (schema : Schema) (row : Row) : Condition → Bool
  | node own ands ors => (own.holds schema row && everyHolds schema row ands) || someHolds schema row ors

/-- Whether all conditions of a list hold on a row. -/
def everyHolds (schema : Schema) (row : Row) : List Condition → Bool
  | [] => true
  | clause :: rest => clause.holds schema row && everyHolds schema row rest

/-- Whether some condition of a list holds on a row. -/
def someHolds (schema : Schema) (row : Row) : List Condition → Bool
  | [] => false
  | clause :: rest => clause.holds schema row || someHolds schema row rest

end

/-! ## Checking -/

/-- The check of a list of conditions is that of all their predicates, if the check of each condition is. -/
theorem checkEach_eq_forM {schema : Schema} {clauses : List Condition}
    (h : ∀ clause ∈ clauses, clause.check schema = forM clause.predicates (·.check schema)) :
    checkEach schema clauses = forM (predicatesOfEach clauses) (·.check schema) := by
  induction clauses with
  | nil => rfl
  | cons clause rest ih =>
    obtain ⟨hclause, hrest⟩ := List.forall_mem_cons.mp h
    rw [checkEach, predicatesOfEach, hclause, ih hrest, List.forM_append]

/-- Checking a condition is checking its predicates one after the other. -/
theorem check_eq_forM (schema : Schema) (condition : Condition) :
    condition.check schema = forM condition.predicates (·.check schema) := by
  induction condition with
  | node own ands ors ihands ihors =>
    rw [check, checkEach_eq_forM ihands, checkEach_eq_forM ihors, predicates, List.forM_cons, List.forM_append]

/-- A condition passes its check exactly when all its predicates do. -/
theorem check_eq_ok_iff {schema : Schema} {condition : Condition} :
    condition.check schema = .ok () ↔ ∀ predicate ∈ condition.predicates, predicate.check schema = .ok () := by
  rw [check_eq_forM, ExceptAux.forM_eq_ok_iff]

/-! ## Making ready -/

variable [Pattern.Compiler]

/-- Makes the predicates of the condition ready one after the other and leaves it at that. -/
def prepare (condition : Condition) : Except Error Unit :=
  forM condition.predicates Predicate.prepare

/-- A condition can be made ready exactly when the patterns of all its predicates can. -/
theorem prepare_eq_ok_iff {condition : Condition} :
    condition.prepare = .ok () ↔ ∀ predicate ∈ condition.predicates, predicate.Compiles := by
  simp only [prepare, ExceptAux.forM_eq_ok_iff, Predicate.prepare_eq_ok_iff]

/-! ## Evaluating -/

/-- A list of conditions all hold or not as `everyHolds` says, if each evaluates to whether it holds. -/
theorem allHold_eq {schema : Schema} {row : Row} {clauses : List Condition}
    (h : ∀ clause ∈ clauses, clause.truth schema row = .ok (clause.holds schema row)) :
    allHold schema row clauses = .ok (everyHolds schema row clauses) := by
  induction clauses with
  | nil => rfl
  | cons clause rest ih =>
    obtain ⟨hclause, hrest⟩ := List.forall_mem_cons.mp h
    rw [allHold, everyHolds, hclause, ExceptAux.ok_bind, ih hrest]
    cases clause.holds schema row <;> rfl

/-- Some condition of a list holds or not as `someHolds` says, if each evaluates to whether it holds. -/
theorem anyHolds_eq {schema : Schema} {row : Row} {clauses : List Condition}
    (h : ∀ clause ∈ clauses, clause.truth schema row = .ok (clause.holds schema row)) :
    anyHolds schema row clauses = .ok (someHolds schema row clauses) := by
  induction clauses with
  | nil => rfl
  | cons clause rest ih =>
    obtain ⟨hclause, hrest⟩ := List.forall_mem_cons.mp h
    rw [anyHolds, someHolds, hclause, ExceptAux.ok_bind, ih hrest]
    cases clause.holds schema row <;> rfl

/-- On a row that suits the schema, a condition that suits it too and whose patterns can be made ready evaluates to whether it
holds. -/
theorem truth_eq_holds {schema : Schema} {row : Row} (hrow : schema.Admits row) {condition : Condition}
    (hcheck : ∀ predicate ∈ condition.predicates, predicate.check schema = .ok ())
    (hcompiles : ∀ predicate ∈ condition.predicates, predicate.Compiles) :
    condition.truth schema row = .ok (condition.holds schema row) := by
  induction condition with
  | node own ands ors ihands ihors =>
    obtain ⟨hown, hands, hors⟩ := forall_predicates_node.mp hcheck
    obtain ⟨hown', hands', hors'⟩ := forall_predicates_node.mp hcompiles
    have hall := allHold_eq fun clause hclause => ihands clause hclause
      (fun predicate hmem => hands predicate (mem_predicatesOfEach.mpr ⟨clause, hclause, hmem⟩))
      (fun predicate hmem => hands' predicate (mem_predicatesOfEach.mpr ⟨clause, hclause, hmem⟩))
    have hany := anyHolds_eq fun clause hclause => ihors clause hclause
      (fun predicate hmem => hors predicate (mem_predicatesOfEach.mpr ⟨clause, hclause, hmem⟩))
      (fun predicate hmem => hors' predicate (mem_predicatesOfEach.mpr ⟨clause, hclause, hmem⟩))
    rw [truth, Predicate.truth_eq_holds hown hown' hrow, ExceptAux.ok_bind, hall, hany, holds]
    cases own.holds schema row with
    | false => rfl
    | true => cases everyHolds schema row ands <;> rfl

end Condition

end SqlEngine
