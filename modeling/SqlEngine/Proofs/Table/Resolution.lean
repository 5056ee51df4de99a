import SqlEngine.Table.Resolution
import SqlEngine.Proofs.Condition.Meaning
import SqlEngine.Proofs.Table.Consistency
import SqlEngine.Proofs.Table.Marks

/-!
# What a condition is resolved to

A table is typed when all its live rows suit its schema. On a typed table whose indexes and marks are in step, a condition that
suits the schema is resolved to the live offsets whose row it holds on, once all its patterns have been made ready in the order in
which they stand (`result_resolveCondition`). Nothing of this depends on which columns have an index.
-/

namespace SqlEngine

namespace Table

/-- Every live row suits the schema. -/
def Typed (table : Table) : Prop :=
  ∀ offset row, table.row? offset = some row → table.schema.Admits row

/-- The live offsets whose row passes a test. -/
def offsetsWhere (table : Table) (test : Row → Bool) : Offsets :=
  ⟨(List.range table.size).filter fun offset => (table.row? offset).any test, List.pairwise_lt_range.filter _⟩

theorem mem_offsetsWhere {table : Table} {test : Row → Bool} {offset : Nat} :
    offset ∈ table.offsetsWhere test ↔ ∃ row, table.row? offset = some row ∧ test row = true := by
  rw [Offsets.mem_def, offsetsWhere, List.mem_filter, List.mem_range, Option.any_eq_true]
  constructor
  · rintro ⟨-, row, hrow, htest⟩
    exact ⟨row, hrow, htest⟩
  · rintro ⟨row, hrow, htest⟩
    exact ⟨lt_size_of_row? hrow, row, hrow, htest⟩

/-- Only live offsets are selected. -/
theorem live_of_mem_offsetsWhere (table : Table) (test : Row → Bool) :
    ∀ offset ∈ (table.offsetsWhere test).toList, (table.row? offset).isSome = true := by
  intro offset hoffset
  obtain ⟨row, hrow, -⟩ := mem_offsetsWhere.mp (Offsets.mem_def.mpr hoffset)
  rw [hrow, Option.isSome_some]

/-- Tests that agree on all live rows select the same offsets. -/
theorem offsetsWhere_congr {table : Table} {test test' : Row → Bool}
    (h : ∀ offset row, table.row? offset = some row → test row = test' row) :
    table.offsetsWhere test = table.offsetsWhere test' := by
  refine Offsets.ext fun offset => ?_
  rw [mem_offsetsWhere, mem_offsetsWhere]
  refine exists_congr fun row => and_congr_right fun hrow => ?_
  rw [h offset row hrow]

/-- What two tests select together, both of them select. -/
theorem inter_offsetsWhere (table : Table) (test test' : Row → Bool) :
    (table.offsetsWhere test).inter (table.offsetsWhere test') = table.offsetsWhere fun row => test row && test' row := by
  refine Offsets.ext fun offset => ?_
  rw [Offsets.mem_inter, mem_offsetsWhere, mem_offsetsWhere, mem_offsetsWhere]
  constructor
  · rintro ⟨⟨row, hrow, htest⟩, row', hrow', htest'⟩
    obtain rfl := Option.some.inj (hrow.symm.trans hrow')
    exact ⟨row, hrow, by rw [htest, htest', Bool.and_self]⟩
  · rintro ⟨row, hrow, htests⟩
    obtain ⟨htest, htest'⟩ := Bool.and_eq_true_iff.mp htests
    exact ⟨⟨row, hrow, htest⟩, row, hrow, htest'⟩

/-- What one of two tests selects, the two select between them. -/
theorem union_offsetsWhere (table : Table) (test test' : Row → Bool) :
    (table.offsetsWhere test).union (table.offsetsWhere test') = table.offsetsWhere fun row => test row || test' row := by
  refine Offsets.ext fun offset => ?_
  simp only [Offsets.mem_union, mem_offsetsWhere, Bool.or_eq_true, and_or_left, exists_or]

/-! ## Scanning -/

/-- A walk through live offsets keeps those whose row passes the test. -/
theorem passing_eq {table : Table} (test : Row → Bool) {list : List Nat}
    (hlive : ∀ offset ∈ list, (table.row? offset).isSome = true) :
    table.passing test list = .ok (list.filter fun offset => (table.row? offset).any test) := by
  induction list with
  | nil => rfl
  | cons offset rest ih =>
    obtain ⟨hoffset, hrest⟩ := List.forall_mem_cons.mp hlive
    obtain ⟨row, hrow⟩ := Option.isSome_iff_exists.mp hoffset
    rw [passing, hrow, ih hrest, List.filter_cons, hrow, Option.any_some]
    cases htest : test row <;> simp [Except.map, htest]

/-- A scan selects the live offsets whose row passes the test, and never fails. -/
theorem scan_eq {table : Table} (h : table.Marked) (test : Row → Bool) :
    table.scan test = .ok (table.offsetsWhere test) := by
  have hlive : ∀ offset ∈ table.cursor.rest, (table.row? offset).isSome = true := by
    intro offset hoffset
    rw [rest_cursor h] at hoffset
    exact (List.mem_filter.mp hoffset).2
  rw [scan, passing_eq test hlive]
  refine congrArg Except.ok (Offsets.ext fun offset => ?_)
  rw [Offsets.mem_ofList, mem_offsetsWhere, rest_cursor h, List.mem_filter, List.mem_filter, List.mem_range,
    Option.any_eq_true]
  constructor
  · rintro ⟨-, row, hrow, htest⟩
    exact ⟨row, hrow, htest⟩
  · rintro ⟨row, hrow, htest⟩
    exact ⟨⟨lt_size_of_row? hrow, by rw [hrow, Option.isSome_some]⟩, row, hrow, htest⟩

/-! ## Predicates -/

section

variable {table : Table}

/-- An index that answers a predicate that suits the schema selects what a scan does; no index answers a wildcard match. -/
theorem lookup_of_check (hconsistent : table.Consistent) {predicate : Predicate}
    (hcheck : predicate.check table.schema = .ok ()) :
    table.lookup predicate.column predicate = .ok none ∨
      predicate.operator ≠ .like ∧
        table.lookup predicate.column predicate = .ok (some (table.offsetsWhere (predicate.holds table.schema))) := by
  by_cases hlike : predicate.operator = .like
  · left
    rw [lookup, if_pos hlike]
  · cases hentry : table.indexOn? predicate.column with
    | none =>
      left
      rw [lookup, if_neg hlike, hentry]
    | some entry =>
      right
      obtain ⟨column, position, hfind, htype, -⟩ := Predicate.check_eq_ok_iff.mp hcheck
      obtain ⟨hmem, hcolumn⟩ := of_indexOn? hentry
      have hstands := Schema.find?_eq_some_iff.mpr ⟨(hconsistent entry hmem).column, hcolumn⟩
      obtain ⟨rfl, rfl⟩ := Prod.mk.inj (Option.some.inj (hfind.symm.trans hstands))
      obtain ⟨found, hfound, hoffsets⟩ := lookup_eq_ok hconsistent hentry hlike htype
      have hsame : found = table.offsetsWhere (predicate.holds table.schema) := by
        refine Offsets.ext fun offset => ?_
        rw [hoffsets, mem_offsetsWhere]
        simp only [Predicate.holds, hfind, Option.any_eq_true, Operator.relates_of_ne_like hlike]
        constructor
        · rintro ⟨value, ⟨row, hrow, hvalue⟩, haccepts⟩
          exact ⟨row, hrow, value, hvalue, haccepts⟩
        · rintro ⟨row, hrow, value, hvalue, haccepts⟩
          exact ⟨value, ⟨row, hrow, hvalue⟩, haccepts⟩
      exact ⟨hlike, hsame ▸ hfound⟩

variable [Pattern.Compiler]

/-- A scan for a predicate that suits the schema selects the live offsets on whose row it holds, once it has been made
ready. -/
theorem scanPredicate_eq (hmarked : table.Marked) (htyped : table.Typed) {predicate : Predicate}
    (hcheck : predicate.check table.schema = .ok ()) : table.scanPredicate predicate =
      predicate.prepare >>= fun _ => .ok (table.offsetsWhere (predicate.holds table.schema)) := by
  obtain ⟨column, position, hfind, -⟩ := Predicate.check_eq_ok_iff.mp hcheck
  unfold scanPredicate Predicate.prepare
  cases htest : predicate.valueTest with
  | error cause => rfl
  | ok test =>
    rw [ExceptAux.ok_bind, Schema.position_eq_ok_iff.mpr ⟨column, hfind⟩, ExceptAux.ok_bind, scan_eq hmarked]
    refine congrArg Except.ok (offsetsWhere_congr fun offset row hrow => ?_)
    exact Predicate.any_passes_eq_holds hcheck hfind htest (htyped offset row hrow)

/-- Through an index or by a scan, a predicate that suits the schema is resolved to the live offsets on whose row it holds,
once it has been made ready. -/
theorem result_resolvePredicate (hconsistent : table.Consistent) (hmarked : table.Marked) (htyped : table.Typed)
    {predicate : Predicate} (hcheck : predicate.check table.schema = .ok ()) :
    (table.resolvePredicate predicate).result =
      predicate.prepare >>= fun _ => .ok (table.offsetsWhere (predicate.holds table.schema)) := by
  unfold resolvePredicate
  rw [Outcome.result_bind, Outcome.result_liftM]
  rcases lookup_of_check hconsistent hcheck with hscan | ⟨hlike, hindex⟩
  · rw [hscan, ExceptAux.ok_bind, Outcome.result_bind, Outcome.result_report, ExceptAux.ok_bind, Outcome.result_liftM]
    exact scanPredicate_eq hmarked htyped hcheck
  · have hready : predicate.prepare = .ok () := by
      rw [Predicate.prepare, Predicate.valueTest_of_ne_like hlike]
      rfl
    rw [hindex, hready]
    rfl

/-! ## Conditions -/

/-- A set of live offsets narrowed by conditions, if each of them is resolved to the offsets on whose row it holds. -/
theorem result_narrow {clauses : List Condition} (h : ∀ clause ∈ clauses, (table.resolveCondition clause).result =
      clause.prepare >>= fun _ => .ok (table.offsetsWhere (clause.holds table.schema))) :
    ∀ test : Row → Bool, (table.narrow (table.offsetsWhere test) clauses).result =
      forM (Condition.predicatesOfEach clauses) Predicate.prepare >>= fun _ =>
        .ok (table.offsetsWhere fun row => test row && Condition.everyHolds table.schema row clauses) := by
  induction clauses with
  | nil =>
    intro test
    simp only [narrow, Condition.predicatesOfEach, Condition.everyHolds, Bool.and_true]
    rfl
  | cons clause rest ih =>
    intro test
    obtain ⟨hclause, hrest⟩ := List.forall_mem_cons.mp h
    rw [narrow, Outcome.result_bind, hclause, Condition.predicatesOfEach, List.forM_append, bind_assoc, bind_assoc,
      Condition.prepare]
    refine bind_congr fun _ => ?_
    rw [ExceptAux.ok_bind, inter_offsetsWhere, ih hrest]
    simp only [Condition.everyHolds, Bool.and_assoc]

/-- A set of live offsets widened by conditions, if each of them is resolved to the offsets on whose row it holds. -/
theorem result_widen {clauses : List Condition} (h : ∀ clause ∈ clauses, (table.resolveCondition clause).result =
      clause.prepare >>= fun _ => .ok (table.offsetsWhere (clause.holds table.schema))) :
    ∀ test : Row → Bool, (table.widen (table.offsetsWhere test) clauses).result =
      forM (Condition.predicatesOfEach clauses) Predicate.prepare >>= fun _ =>
        .ok (table.offsetsWhere fun row => test row || Condition.someHolds table.schema row clauses) := by
  induction clauses with
  | nil =>
    intro test
    simp only [widen, Condition.predicatesOfEach, Condition.someHolds, Bool.or_false]
    rfl
  | cons clause rest ih =>
    intro test
    obtain ⟨hclause, hrest⟩ := List.forall_mem_cons.mp h
    rw [widen, Outcome.result_bind, hclause, Condition.predicatesOfEach, List.forM_append, bind_assoc, bind_assoc,
      Condition.prepare]
    refine bind_congr fun _ => ?_
    rw [ExceptAux.ok_bind, union_offsetsWhere, ih hrest]
    simp only [Condition.someHolds, Bool.or_assoc]

/-- A condition that suits the schema is resolved to the live offsets on whose row it holds, once all its patterns have been
made ready. -/
theorem result_resolveCondition (hconsistent : table.Consistent) (hmarked : table.Marked) (htyped : table.Typed)
    {condition : Condition} (hcheck : ∀ predicate ∈ condition.predicates, predicate.check table.schema = .ok ()) :
    (table.resolveCondition condition).result =
      condition.prepare >>= fun _ => .ok (table.offsetsWhere (condition.holds table.schema)) := by
  induction condition with
  | node own ands ors ihands ihors =>
    obtain ⟨hown, hands, hors⟩ := Condition.forall_predicates_node.mp hcheck
    have hnarrow := result_narrow fun clause hclause => ihands clause hclause fun predicate hmem =>
      hands predicate (Condition.mem_predicatesOfEach.mpr ⟨clause, hclause, hmem⟩)
    have hwiden := result_widen fun clause hclause => ihors clause hclause fun predicate hmem =>
      hors predicate (Condition.mem_predicatesOfEach.mpr ⟨clause, hclause, hmem⟩)
    rw [resolveCondition, Outcome.result_bind, result_resolvePredicate hconsistent hmarked htyped hown, Condition.prepare,
      Condition.predicates, List.forM_cons, List.forM_append, bind_assoc, bind_assoc]
    refine bind_congr fun _ => ?_
    rw [ExceptAux.ok_bind, Outcome.result_bind, hnarrow, bind_assoc, bind_assoc]
    refine bind_congr fun _ => ?_
    rw [ExceptAux.ok_bind, hwiden]
    rfl

end

end Table

end SqlEngine
