import SqlEngine.Proofs.Sorting
import SqlEngine.Proofs.Table.Selection
import SqlEngine.Proofs.Value

/-!
# The order and the shape of what a query shows

The entries of a query are the live rows of its condition with their offsets, in the one order that the query asks for
(`Query.Arranges`): that of the offsets, or that of a column with equal values in the order of their offsets, whichever way the
column is sorted. What a query shows is a slice of these entries, reduced to the columns of its projection (`Query.shown`). A query
that succeeds does so with any other limit and offset that are not negative, and shows a slice of the same entries
(`result_select_sliced`).
-/

namespace SqlEngine

/-! ## Columns -/

/-- Whether a projection shows the columns of a name. -/
def Projection.shows : Projection → String → Bool
  | all, _ => true
  | columns names, name => name ∈ names

/-- The values of a row in the columns that a projection shows, in the order of the schema. -/
def Row.shown (schema : Schema) (projection : Projection) (row : Row) : Row :=
  ((schema.columns.zip row).filter fun cell => projection.shows cell.1.name).map Prod.snd

/-- Columns side by side with the values of a row are the columns that the row reaches, each with the value at its position. -/
theorem Row.zip_drop_eq (columns : List Column) (row : Row) (start : Nat) :
    columns.zip (row.drop start) = (columns.zipIdx start).filterMap fun entry => row[entry.2]?.map (entry.1, ·) := by
  induction columns generalizing start with
  | nil => rfl
  | cons column rest ih =>
    rw [List.zipIdx_cons, List.filterMap_cons, ← ih]
    cases hvalue : row[start]? with
    | none =>
      have hend : row.length ≤ start := List.getElem?_eq_none_iff.mp hvalue
      rw [List.drop_eq_nil_of_le hend, List.drop_eq_nil_of_le (Nat.le_succ_of_le hend), List.zip_nil_right, List.zip_nil_right]
      rfl
    | some value =>
      obtain ⟨hlt, rfl⟩ := List.getElem?_eq_some_iff.mp hvalue
      rw [List.drop_eq_getElem_cons hlt, List.zip_cons_cons]
      rfl

/-- The positions of the columns that are named keep of a row its values in these columns. -/
theorem Row.project_eq_shown (schema : Schema) (names : List String) (row : Row) :
    row.project ((schema.columns.zipIdx.filter (·.1.name ∈ names)).map Prod.snd) = row.shown schema (.columns names) := by
  have hcells := zip_drop_eq schema.columns row 0
  rw [List.drop_zero] at hcells
  rw [Row.shown, hcells, List.filter_filterMap, List.map_filterMap, Row.project, List.filterMap_map, List.filterMap_filter]
  refine List.filterMap_congr fun entry _ => ?_
  by_cases hname : entry.1.name ∈ names <;> cases hvalue : row[entry.2]? <;> simp [Projection.shows, hname, hvalue]

/-- All columns keep of a row that suits the schema all of it. -/
theorem Row.shown_all {schema : Schema} {row : Row} (hrow : schema.Admits row) : row.shown schema .all = row := by
  have hlength : row.length ≤ schema.columns.length := (Schema.admits_iff.mp hrow).1.le
  rw [Row.shown]
  simp only [Projection.shows, List.filter_true]
  exact List.map_snd_zip hlength

/-! ## Order -/

/-- Sorting in the direction puts the first value before the second. -/
def Direction.Before : Direction → Value → Value → Prop
  | ascending, v, w => v.Precedes w
  | descending, v, w => w.Precedes v

theorem Direction.Before.asymm {direction : Direction} {v w : Value} (h : direction.Before v w) : ¬direction.Before w v := by
  cases direction with
  | ascending => exact Value.Precedes.asymm h
  | descending => exact Value.Precedes.asymm h

/-- A row may stand before another when their values are in the order of the direction or are the same. -/
theorem Direction.precedes_iff {direction : Direction} {position : Nat} {a b : Row} {v w : Value} (ha : a[position]? = some v)
    (hb : b[position]? = some w) : direction.precedes position a b = true ↔ direction.Before v w ∨ v = w := by
  cases direction with
  | ascending =>
    rw [precedes, ha, hb]
    exact Value.isLE_compare_iff
  | descending =>
    rw [precedes, ha, hb]
    exact Value.isLE_compare_iff.trans (or_congr_right eq_comm)

theorem Direction.precedes_trans (direction : Direction) (position : Nat) (a b c : Row)
    (hab : direction.precedes position a b = true) (hbc : direction.precedes position b c = true) :
    direction.precedes position a c = true := by
  cases direction with
  | ascending => exact Std.TransOrd.isLE_trans hab hbc
  | descending => exact Std.TransOrd.isLE_trans hbc hab

theorem Direction.precedes_total (direction : Direction) (position : Nat) (a b : Row) :
    (direction.precedes position a b || direction.precedes position b a) = true := by
  cases direction with
  | ascending => exact SortingAux.isLE_total a[position]? b[position]?
  | descending => exact SortingAux.isLE_total b[position]? a[position]?

namespace Query

/-- A query puts the first entry, a row with its offset, before the second: by their values in the column that it sorts on, or by
their offsets where these are the same and where it does not sort. -/
def Before (query : Query) (schema : Schema) (a b : Nat × Row) : Prop :=
  match query.sort with
  | none => a.1 < b.1
  | some key => ∃ column position v w, schema.find? key.column = some (column, position) ∧ a.2[position]? = some v ∧
      b.2[position]? = some w ∧ (key.direction.Before v w ∨ v = w ∧ a.1 < b.1)

instance (query : Query) (schema : Schema) : Std.Asymm (query.Before schema) where
  asymm a b hab hba := by
    unfold Before at hab hba
    cases hsort : query.sort with
    | none =>
      rw [hsort] at hab hba
      exact Nat.lt_asymm hab hba
    | some key =>
      rw [hsort] at hab hba
      obtain ⟨column, position, v, w, hfind, hv, hw, hab⟩ := hab
      obtain ⟨column', position', w', v', hfind', hw', hv', hba⟩ := hba
      obtain ⟨rfl, rfl⟩ := Prod.mk.inj (Option.some.inj (hfind.symm.trans hfind'))
      obtain rfl := Option.some.inj (hv.symm.trans hv')
      obtain rfl := Option.some.inj (hw.symm.trans hw')
      rcases hab with hab | ⟨rfl, hab⟩
      · rcases hba with hba | ⟨rfl, hba⟩
        · exact hab.asymm hba
        · exact hab.asymm hab
      · rcases hba with hba | ⟨-, hba⟩
        · exact hba.asymm hba
        · exact Nat.lt_asymm hab hba

/-- The entries are the live rows of the condition of a query with their offsets, in the order that the query asks for. -/
structure Arranges [Pattern.Compiler] (query : Query) (table : Table) (entries : List (Nat × Row)) : Prop where
  members : ∀ offset row, (offset, row) ∈ entries ↔
    table.row? offset = some row ∧ ∀ clause ∈ query.condition, clause.truth table.schema row = .ok true
  ordered : entries.Pairwise (query.Before table.schema)

/-- There is one way to arrange what a query asks for. -/
theorem Arranges.unique [Pattern.Compiler] {query : Query} {table : Table} {entries others : List (Nat × Row)}
    (h : query.Arranges table entries) (h' : query.Arranges table others) : others = entries :=
  h'.ordered.eq_of_mem_iff h.ordered fun entry => (h'.members entry.1 entry.2).trans (h.members entry.1 entry.2).symm

/-- What a limit and an offset leave of a list: without as many of the first rows as the offset says, and of the others no more than
the limit says. -/
def slice (limit offset : Option Int64) (rows : List Row) : List Row :=
  let rest := rows.drop (offset.elim 0 (·.toInt.toNat))
  limit.elim rest (rest.take ·.toInt.toNat)

/-- What a query shows of its entries. -/
def shown (query : Query) (schema : Schema) (entries : List (Nat × Row)) : List Row :=
  (slice query.limit query.offset (entries.map Prod.snd)).map (·.shown schema query.projection)

end Query

/-! ## Plans -/

/-- A number of rows is asked for exactly when it is not negative, and then it is that number of rows. -/
theorem SliceClause.count_eq_ok_iff {clause : SliceClause} {asked : Option Int64} {count : Option Nat} :
    clause.count asked = .ok count ↔ (∀ n ∈ asked, 0 ≤ n) ∧ asked.map (·.toInt.toNat) = count := by
  cases asked with
  | none => simp [SliceClause.count]
  | some n =>
    rw [SliceClause.count]
    split
    next hneg => simp [hneg]
    next hneg => simp [Int64.not_lt.mp hneg]

namespace Query

/-- The parts of a plan are those of the query, and a query has a plan exactly when each of its parts is in order. -/
theorem plan_eq_ok_iff {query : Query} {schema : Schema} {plan : Plan} : query.plan schema = .ok plan ↔
    schema.check query.condition = .ok () ∧ schema.projected query.projection = .ok plan.positions ∧
      (query.sort.mapM fun key => return (← schema.position key.column, key.direction)) = .ok plan.sort ∧
      ((∀ n ∈ query.offset, 0 ≤ n) ∧ (query.offset.map (·.toInt.toNat)).getD 0 = plan.skip) ∧
      (∀ n ∈ query.limit, 0 ≤ n) ∧ query.limit.map (·.toInt.toNat) = plan.limit := by
  unfold Query.plan
  rw [ExceptAux.check_bind_eq_ok_iff]
  refine and_congr_right fun _ => ?_
  constructor
  · intro h
    obtain ⟨positions, hpositions, h⟩ := ExceptAux.bind_eq_ok_iff.mp h
    obtain ⟨sort, hsort, h⟩ := ExceptAux.bind_eq_ok_iff.mp h
    obtain ⟨skip, hskip, h⟩ := ExceptAux.bind_eq_ok_iff.mp h
    obtain ⟨limit, hlimit, h⟩ := ExceptAux.bind_eq_ok_iff.mp h
    obtain rfl := Except.ok.inj h
    obtain ⟨hoffset, rfl⟩ := SliceClause.count_eq_ok_iff.mp hskip
    exact ⟨hpositions, hsort, ⟨hoffset, rfl⟩, SliceClause.count_eq_ok_iff.mp hlimit⟩
  · rintro ⟨hpositions, hsort, ⟨hoffset, hskip⟩, hlimit⟩
    rw [hpositions, ExceptAux.ok_bind, hsort, ExceptAux.ok_bind, SliceClause.count_eq_ok_iff.mpr ⟨hoffset, rfl⟩, ExceptAux.ok_bind,
      SliceClause.count_eq_ok_iff.mpr hlimit, ExceptAux.ok_bind, hskip]
    rfl

/-- The order that a plan puts entries in. -/
def Plan.arranged (plan : Plan) (entries : List (Nat × Row)) : List (Nat × Row) :=
  match plan.sort with
  | none => entries
  | some (position, direction) => entries.mergeSort fun a b => direction.precedes position a.2 b.2

theorem Plan.mem_arranged {plan : Plan} {entries : List (Nat × Row)} {entry : Nat × Row} :
    entry ∈ plan.arranged entries ↔ entry ∈ entries := by
  unfold arranged
  split
  · rfl
  · exact List.mem_mergeSort

/-- A plan sorts rows as it does with their offsets beside them. -/
theorem Plan.apply_map_snd (plan : Plan) (entries : List (Nat × Row)) : plan.apply (entries.map Prod.snd) =
    { plan with sort := none }.apply ((plan.arranged entries).map Prod.snd) := by
  unfold apply arranged
  cases hsort : plan.sort with
  | none => rfl
  | some key => rw [List.map_mergeSort (s := key.2.precedes key.1) fun _ _ _ _ => rfl]

theorem slice_subset (limit offset : Option Int64) (rows : List Row) : slice limit offset rows ⊆ rows := by
  intro row hrow
  cases limit with
  | none => exact List.mem_of_mem_drop hrow
  | some n => exact List.mem_of_mem_drop (List.mem_of_mem_take hrow)

/-- The positions of a projection leave of rows that suit the schema what the projection shows. -/
theorem map_project_eq_shown {schema : Schema} {projection : Projection} {positions : Option (List Nat)}
    (hpositions : schema.projected projection = .ok positions) {rows : List Row} (hrows : ∀ row ∈ rows, schema.Admits row) :
    positions.elim rows (fun positions => rows.map (·.project positions)) = rows.map (·.shown schema projection) := by
  cases projection with
  | all =>
    obtain rfl := Except.ok.inj hpositions
    exact ((List.map_congr_left fun row hrow => Row.shown_all (hrows row hrow)).trans (List.map_id' rows)).symm
  | columns names =>
    obtain ⟨-, heq⟩ := ExceptAux.check_bind_eq_ok_iff.mp hpositions
    obtain rfl := Except.ok.inj heq
    exact List.map_congr_left fun row _ => Row.project_eq_shown schema names row

/-- A plan of a query makes of entries that suit the schema what the query shows of them, once they are in order. -/
theorem Plan.apply_eq_shown {query : Query} {schema : Schema} {plan : Plan} (hplan : query.plan schema = .ok plan)
    {entries : List (Nat × Row)} (hrows : ∀ entry ∈ entries, schema.Admits entry.2) :
    plan.apply (entries.map Prod.snd) = query.shown schema (plan.arranged entries) := by
  obtain ⟨-, hpositions, -, ⟨-, hskip⟩, -, hlimit⟩ := plan_eq_ok_iff.mp hplan
  have hslice : ∀ row ∈ slice query.limit query.offset ((plan.arranged entries).map Prod.snd), schema.Admits row := by
    intro row hrow
    obtain ⟨entry, hentry, rfl⟩ := List.mem_map.mp (slice_subset _ _ _ hrow)
    exact hrows entry (mem_arranged.mp hentry)
  rw [apply_map_snd, shown, ← map_project_eq_shown hpositions hslice]
  unfold apply slice
  dsimp only
  rw [← hskip, ← hlimit]
  cases plan.positions <;> cases query.limit <;> cases query.offset <;> rfl

/-- A plan of a query puts entries of ascending offsets in the order that the query asks for. -/
theorem Plan.ordered_arranged {query : Query} {schema : Schema} {plan : Plan} (hplan : query.plan schema = .ok plan)
    {entries : List (Nat × Row)} (hrows : ∀ entry ∈ entries, schema.Admits entry.2)
    (hentries : entries.Pairwise fun a b => a.1 < b.1) : (plan.arranged entries).Pairwise (query.Before schema) := by
  obtain ⟨-, -, hsort, -⟩ := plan_eq_ok_iff.mp hplan
  unfold arranged Before
  cases hkey : query.sort with
  | none =>
    rw [hkey] at hsort
    rw [← Except.ok.inj hsort]
    exact hentries
  | some key =>
    rw [hkey] at hsort
    obtain ⟨sorted, hsorted, heq⟩ := ExceptAux.bind_eq_ok_iff.mp hsort
    obtain ⟨position, hposition, hpair⟩ := ExceptAux.bind_eq_ok_iff.mp hsorted
    obtain ⟨column, hfind⟩ := Schema.position_eq_ok_iff.mp hposition
    obtain rfl := Except.ok.inj hpair
    rw [← Except.ok.inj heq]
    -- Sorting is stable in both directions: among rows of which each may stand before the other, the offsets still ascend.
    have hstable := SortingAux.pairwise_mergeSort_of_pairwise
      (fun a b c : Nat × Row => key.direction.precedes_trans position a.2 b.2 c.2)
      (fun a b => key.direction.precedes_total position a.2 b.2) hentries
    refine hstable.imp_of_mem fun {a b} ha hb hab => ?_
    have hcolumn := (Schema.find?_eq_some_iff.mp hfind).1
    obtain ⟨v, hv, -⟩ := (hrows a (List.mem_mergeSort.mp ha)).value_at hcolumn
    obtain ⟨w, hw, -⟩ := (hrows b (List.mem_mergeSort.mp hb)).value_at hcolumn
    refine ⟨column, position, v, w, hfind, hv, hw, ?_⟩
    rcases (Direction.precedes_iff hv hw).mp hab.1 with hbefore | rfl
    · exact Or.inl hbefore
    · exact Or.inr ⟨rfl, hab.2 ((Direction.precedes_iff hw hv).mpr (Or.inr rfl))⟩

end Query

/-! ## Queries -/

namespace Table

/-- The live rows that pass a test with their offsets, in ascending order of these. -/
def entriesWhere (table : Table) (test : Row → Bool) : List (Nat × Row) :=
  (table.offsetsWhere test).toList.filterMap fun offset => (table.row? offset).map (offset, ·)

theorem map_snd_entriesWhere (table : Table) (test : Row → Bool) :
    (table.entriesWhere test).map Prod.snd = table.rowsWhere test := by
  rw [entriesWhere, rowsWhere, List.map_filterMap]
  refine List.filterMap_congr fun offset _ => ?_
  cases table.row? offset <;> rfl

theorem mem_entriesWhere {table : Table} {test : Row → Bool} {offset : Nat} {row : Row} :
    (offset, row) ∈ table.entriesWhere test ↔ table.row? offset = some row ∧ test row = true := by
  simp only [entriesWhere, List.mem_filterMap, ← Offsets.mem_def, mem_offsetsWhere, Option.map_eq_some_iff, Prod.mk.injEq]
  constructor
  · rintro ⟨_, ⟨row', hrow', htest⟩, _, hrow, rfl, rfl⟩
    obtain rfl := Option.some.inj (hrow'.symm.trans hrow)
    exact ⟨hrow, htest⟩
  · rintro ⟨hrow, htest⟩
    exact ⟨offset, ⟨row, hrow, htest⟩, row, hrow, rfl, rfl⟩

theorem ascending_entriesWhere (table : Table) (test : Row → Bool) :
    (table.entriesWhere test).Pairwise fun a b => a.1 < b.1 := by
  refine List.Pairwise.filterMap _ ?_ (table.offsetsWhere test).ascending
  intro offset other hlt entry hentry entry' hentry'
  obtain ⟨row, -, rfl⟩ := Option.map_eq_some_iff.mp hentry
  obtain ⟨row', -, rfl⟩ := Option.map_eq_some_iff.mp hentry'
  exact hlt

/-- A query that succeeds on a sound table succeeds with every limit and offset that are not negative, its own among them, and shows
a slice of entries that are the same for all of them. -/
theorem result_select_sliced [Pattern.Compiler] {table : Table} (h : table.Sound) {query : Query} {rows : List Row}
    (hrows : (table.select query).result = .ok rows) :
    ∃ entries, query.Arranges table entries ∧ (∀ n ∈ query.limit, 0 ≤ n) ∧ (∀ n ∈ query.offset, 0 ≤ n) ∧
      ∀ limit offset, (∀ n ∈ limit, 0 ≤ n) → (∀ n ∈ offset, 0 ≤ n) →
        (table.select { query with limit, offset }).result =
          .ok ({ query with limit, offset : Query }.shown table.schema entries) := by
  rw [result_select h] at hrows
  obtain ⟨plan, hplan, hrest⟩ := ExceptAux.bind_eq_ok_iff.mp hrows
  obtain ⟨hprepare, -⟩ := ExceptAux.check_bind_eq_ok_iff.mp hrest
  obtain ⟨hcheck, hpositions, hsort, ⟨hoffset, -⟩, hlimit, -⟩ := Query.plan_eq_ok_iff.mp hplan
  have hready : table.schema.ready query.condition = .ok () := ExceptAux.check_bind_eq_ok_iff.mpr ⟨hcheck, hprepare⟩
  have hadmits : ∀ entry ∈ table.entriesWhere (table.schema.selects query.condition), table.schema.Admits entry.2 :=
    fun entry hentry => h.typed entry.1 entry.2 (mem_entriesWhere.mp hentry).1
  refine ⟨plan.arranged (table.entriesWhere (table.schema.selects query.condition)), ⟨?_, ?_⟩, hlimit, hoffset, ?_⟩
  · intro offset row
    rw [Query.Plan.mem_arranged, mem_entriesWhere]
    exact and_congr_right fun hrow => Schema.selects_iff hready (h.typed offset row hrow)
  · exact Query.Plan.ordered_arranged hplan hadmits (ascending_entriesWhere table _)
  · intro limit offset hlimit hoffset
    have hsliced : Query.plan { query with limit, offset } table.schema =
        .ok { plan with skip := (offset.map (·.toInt.toNat)).getD 0, limit := limit.map (·.toInt.toNat) } :=
      Query.plan_eq_ok_iff.mpr ⟨hcheck, hpositions, hsort, ⟨hoffset, rfl⟩, hlimit, rfl⟩
    rw [result_select h, hsliced, ExceptAux.ok_bind, hprepare, ExceptAux.ok_bind, ← map_snd_entriesWhere]
    exact congrArg Except.ok (Query.Plan.apply_eq_shown hsliced hadmits)

end Table

end SqlEngine
