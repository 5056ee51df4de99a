import SqlEngine.Proofs.Condition.Joining
import SqlEngine.Proofs.Table.Agreement

/-!
# Conjoined conditions

To conjoin a condition with another one puts the other one behind its and-clauses and, at every depth, behind those of its
or-clauses. This comes to neither more nor less than the conjunction of the two: it is checked as both are, it is true of a row
where both are, and it is resolved to the offsets that both are resolved to (`conjoin_is_conjunction`).
-/

namespace SqlEngine

namespace Condition

variable {schema : Schema} {first second : Condition}

/-- What is true of the predicates of both conditions is true of those of the conjoined one. -/
theorem forall_predicates_conjoin {P : Predicate → Prop} : (∀ predicate ∈ (first.conjoin second).predicates, P predicate) ↔
    (∀ predicate ∈ first.predicates, P predicate) ∧ ∀ predicate ∈ second.predicates, P predicate := by
  simp only [mem_predicates_conjoin, or_imp, forall_and]

/-- A conjoined condition suits a schema exactly when both conditions do. -/
theorem check_conjoin_iff : (first.conjoin second).check schema = .ok () ↔
    first.check schema = .ok () ∧ second.check schema = .ok () := by
  simp only [check_eq_ok_iff, forall_predicates_conjoin]

end Condition

namespace Table

/-- On a sound table a condition that suits the schema and whose patterns can be made ready is resolved to the live offsets on whose
row it holds. -/
theorem resolve_eq_offsetsWhere [Pattern.Compiler] {table : Table} (h : table.Sound) {condition : Condition}
    (hcheck : condition.check table.schema = .ok ()) (hcompiles : ∀ predicate ∈ condition.predicates, predicate.Compiles) :
    (table.resolve (some condition)).result = .ok (table.offsetsWhere (condition.holds table.schema)) := by
  have hready : condition.prepare = .ok () := Condition.prepare_eq_ok_iff.mpr hcompiles
  rw [resolve, result_resolveCondition h.consistent h.marked h.typed (Condition.check_eq_ok_iff.mp hcheck), hready]
  rfl

end Table

namespace Condition

/-- A conjoined condition passes the check exactly when both conditions do. If they do, and all patterns can be made ready, it
evaluates on every row that suits the schema to what both evaluate to together, and on every sound table it is resolved to what both
are resolved to in common. -/
theorem conjoin_is_conjunction [Pattern.Compiler] (schema : Schema) (first second : Condition) :
    ((first.conjoin second).check schema = .ok () ↔ first.check schema = .ok () ∧ second.check schema = .ok ()) ∧
      (first.check schema = .ok () → second.check schema = .ok () → (∀ predicate ∈ first.predicates, predicate.Compiles) →
        (∀ predicate ∈ second.predicates, predicate.Compiles) →
        (∀ row, schema.Admits row → ∃ holds holds', first.truth schema row = .ok holds ∧
          second.truth schema row = .ok holds' ∧ (first.conjoin second).truth schema row = .ok (holds && holds')) ∧
        ∀ table : Table, table.schema = schema → table.Sound → ∃ found found',
          (table.resolve (some first)).result = .ok found ∧ (table.resolve (some second)).result = .ok found' ∧
            (table.resolve (some (first.conjoin second))).result = .ok (found.inter found')) := by
  refine ⟨check_conjoin_iff, fun hfirst hsecond hready hready' => ?_⟩
  have hboth : (first.conjoin second).check schema = .ok () := check_conjoin_iff.mpr ⟨hfirst, hsecond⟩
  have hreadyBoth := forall_predicates_conjoin.mpr ⟨hready, hready'⟩
  constructor
  · intro row hrow
    refine ⟨first.holds schema row, second.holds schema row, ?_, ?_, ?_⟩
    · exact truth_eq_holds hrow (check_eq_ok_iff.mp hfirst) hready
    · exact truth_eq_holds hrow (check_eq_ok_iff.mp hsecond) hready'
    · rw [truth_eq_holds hrow (check_eq_ok_iff.mp hboth) hreadyBoth, holds_conjoin]
  · rintro table rfl hsound
    refine ⟨table.offsetsWhere (first.holds table.schema), table.offsetsWhere (second.holds table.schema), ?_, ?_, ?_⟩
    · exact Table.resolve_eq_offsetsWhere hsound hfirst hready
    · exact Table.resolve_eq_offsetsWhere hsound hsecond hready'
    · rw [Table.resolve_eq_offsetsWhere hsound hboth hreadyBoth, Table.inter_offsetsWhere]
      simp only [holds_conjoin]

/-- Two guests, with an index on their age. -/
def couple [Pattern.Compiler] : Table :=
  (Table.empty "guests" Table.guestSchema).changed
    [.createIndex "by age" "age", .insert [.int 1, .text "ann"], .insert [.int 4, .text "bob"]]

/-- Guests of the age of five, or else younger than three with a name that ends in two n. -/
def invited : Condition :=
  .node ⟨"age", .eq, .int 5⟩ [] [.node ⟨"age", .lt, .int 3⟩ [.ofPredicate ⟨"name", .like, .text "_nn"⟩] []]

/-- The guests called ann, or else from the age of three on. -/
def known : Condition :=
  .node ⟨"name", .eq, .text "ann"⟩ [] [.ofPredicate ⟨"age", .ge, .int 3⟩]

/-- Both guests are known, but bob is not invited, so the conjoined condition is false of him. -/
theorem conjoin_is_conjunction_couple :
    letI : Pattern.Compiler := .unbounded
    known.check couple.schema = .ok () ∧ invited.check couple.schema = .ok () ∧
      (∀ predicate ∈ known.predicates, predicate.Compiles) ∧ (∀ predicate ∈ invited.predicates, predicate.Compiles) ∧
      couple.schema.Admits [.int 4, .text "bob"] ∧ couple.Sound ∧ (known.conjoin invited).check couple.schema = .ok () ∧
      (known.conjoin invited).truth couple.schema [.int 4, .text "bob"] = .ok false ∧
      ∃ found found', (couple.resolve (some known)).result = .ok found ∧ (couple.resolve (some invited)).result = .ok found' ∧
        (couple.resolve (some (known.conjoin invited))).result = .ok (found.inter found') := by
  let : Pattern.Compiler := .unbounded
  have hfirst : known.check couple.schema = .ok () := by cbv
  have hsecond : invited.check couple.schema = .ok () := by cbv
  have hready : ∀ predicate ∈ known.predicates, predicate.Compiles := by
    rw [← prepare_eq_ok_iff]
    cbv
  have hready' : ∀ predicate ∈ invited.predicates, predicate.Compiles := by
    rw [← prepare_eq_ok_iff]
    cbv
  have hrow : couple.schema.Admits [.int 4, .text "bob"] := by cbv
  have hsound : couple.Sound := Table.sound_changed (Table.sound_empty _ _) _
  obtain ⟨hcheck, hagree⟩ := conjoin_is_conjunction couple.schema known invited
  obtain ⟨htruth, hresolve⟩ := hagree hfirst hsecond hready hready'
  refine ⟨hfirst, hsecond, hready, hready', hrow, hsound, hcheck.mpr ⟨hfirst, hsecond⟩, ?_, hresolve couple rfl hsound⟩
  obtain ⟨holds, holds', hholds, hholds', hboth⟩ := htruth _ hrow
  have htrue : known.truth couple.schema [.int 4, .text "bob"] = .ok true := by cbv
  have hfalse : invited.truth couple.schema [.int 4, .text "bob"] = .ok false := by cbv
  obtain rfl := Except.ok.inj (htrue.symm.trans hholds)
  obtain rfl := Except.ok.inj (hfalse.symm.trans hholds')
  exact hboth

end Condition

end SqlEngine
