import SqlEngine.Proofs.Table.Checked

/-!
# What a query shows

On a sound table the offsets of a condition are those of live rows, so fetching them never fails, and a query shows what its
plan makes of the live rows of its condition (`result_select`).
-/

namespace SqlEngine

namespace Table

/-- The live rows that pass a test, in ascending order of their offsets. -/
def rowsWhere (table : Table) (test : Row → Bool) : List Row :=
  (table.offsetsWhere test).toList.filterMap table.row?

/-- Live offsets are all fetched. -/
theorem mapM_fetch_eq {table : Table} {offsets : List Nat} (hlive : ∀ offset ∈ offsets, (table.row? offset).isSome = true) :
    offsets.mapM table.fetch = .ok (offsets.filterMap table.row?) := by
  induction offsets with
  | nil => rfl
  | cons offset rest ih =>
    obtain ⟨hoffset, hrest⟩ := List.forall_mem_cons.mp hlive
    obtain ⟨row, hrow⟩ := Option.isSome_iff_exists.mp hoffset
    rw [List.mapM_cons, fetch, hrow, ExceptAux.ok_bind, ih hrest, List.filterMap_cons_some hrow]
    rfl

/-- On a sound table a query fails only where its plan does or its condition cannot be made ready. -/
theorem result_select [Pattern.Compiler] {table : Table} (h : table.Sound) (query : Query) :
    (table.select query).result = query.plan table.schema >>= fun plan => query.condition.forM Condition.prepare >>= fun _ =>
      .ok (plan.apply (table.rowsWhere (table.schema.selects query.condition))) := by
  unfold select
  rw [Outcome.result_bind, Outcome.result_liftM]
  cases hplan : query.plan table.schema with
  | error cause => rfl
  | ok plan =>
    have hcheck : table.schema.check query.condition = .ok () := (ExceptAux.check_bind_eq_ok_iff.mp hplan).1
    rw [ExceptAux.ok_bind, ExceptAux.ok_bind, Outcome.result_bind, result_resolve h hcheck, bind_assoc]
    refine bind_congr fun _ => ?_
    rw [ExceptAux.ok_bind, Outcome.result_bind, Outcome.result_liftM, mapM_fetch_eq (live_of_mem_offsetsWhere table _)]
    rfl

end Table

end SqlEngine
