import SqlEngine.Schema
import SqlEngine.Proofs.Outcome

/-!
# Finding columns, and rows that suit a schema

The names of a schema differ, so a name is found with the one position at which it stands (`find?_eq_some_iff`). A row suits
a schema (`Schema.Admits`) when it has a value of the right type for every column, and no more.
-/

namespace SqlEngine

namespace Schema

variable {schema : Schema} {name : String} {column : Column} {position : Nat}

/-- The name at a position stands there alone. -/
theorem position_unique {position' : Nat} {column' : Column} (h : schema.columns[position]? = some column)
    (h' : schema.columns[position']? = some column') (hname : column.name = column'.name) : position = position' := by
  have hnames : (schema.columns.map Column.name)[position]? = (schema.columns.map Column.name)[position']? := by
    rw [List.getElem?_map, List.getElem?_map, h, h', Option.map_some, Option.map_some, hname]
  have hlt : position < (schema.columns.map Column.name).length := by
    rw [List.length_map]
    exact (List.getElem?_eq_some_iff.mp h).1
  exact (List.getElem?_inj hlt schema.distinct).mp hnames

/-- What is found under a name is a column of that name with the position at which it stands. -/
theorem of_find? {entry : Column × Nat} (h : schema.find? name = some entry) :
    schema.columns[entry.2]? = some entry.1 ∧ entry.1.name = name := by
  rw [find?] at h
  have hname := List.find?_some h
  exact ⟨List.mem_zipIdx_iff_getElem?.mp (List.mem_of_find?_eq_some h), beq_iff_eq.mp hname⟩

/-- A column is found under its name, at the position at which it stands. -/
theorem find?_eq_some_iff :
    schema.find? name = some (column, position) ↔ schema.columns[position]? = some column ∧ column.name = name := by
  refine ⟨of_find?, ?_⟩
  rintro ⟨hcolumn, rfl⟩
  have hmem : (column, position) ∈ schema.columns.zipIdx := List.mem_zipIdx_iff_getElem?.mpr hcolumn
  cases hfind : schema.find? column.name with
  | none => exact absurd (List.find?_eq_none.mp hfind _ hmem) (by simp)
  | some found =>
    obtain ⟨hfound, hname⟩ := of_find? hfind
    have hposition := position_unique hfound hcolumn hname
    rw [hposition, hcolumn, Option.some.injEq] at hfound
    rw [hfound, ← hposition]

/-- No column is found under a name that no column has. -/
theorem find?_eq_none_iff : schema.find? name = none ↔ ∀ column ∈ schema.columns, column.name ≠ name := by
  rw [find?, List.find?_eq_none]
  constructor
  · intro h column hcolumn
    obtain ⟨position, hposition⟩ := List.mem_iff_getElem?.mp hcolumn
    have hne := h (column, position) (List.mem_zipIdx_iff_getElem?.mpr hposition)
    simpa using hne
  · rintro h ⟨column, position⟩ hmem
    have hne := h column (List.mem_of_getElem? (List.mem_zipIdx_iff_getElem?.mp hmem))
    simpa using hne

theorem locate_eq_ok_iff {entry : Column × Nat} : schema.locate name = .ok entry ↔ schema.find? name = some entry := by
  unfold locate
  cases schema.find? name with
  | none => simp
  | some found => simp

theorem position_eq_ok_iff :
    schema.position name = .ok position ↔ ∃ column, schema.find? name = some (column, position) := by
  unfold Schema.position locate
  cases schema.find? name with
  | none => simp [Except.map]
  | some found => simp [Except.map, Prod.ext_iff]

/-! ## Rows -/

/-- The row has a value of the right type for every column, and no more. -/
def Admits (schema : Schema) (row : Row) : Prop :=
  row.map Value.dataType = schema.columns.map Column.type

instance (schema : Schema) (row : Row) : Decidable (schema.Admits row) :=
  inferInstanceAs (Decidable (row.map Value.dataType = schema.columns.map Column.type))

/-- A row suits a schema when it is as long as it and each of its values is of the type of the column in its place. -/
theorem admits_iff {row : Row} : schema.Admits row ↔
    row.length = schema.size ∧ ∀ column value, (column, value) ∈ schema.columns.zip row → value.dataType = column.type := by
  unfold Admits size
  generalize schema.columns = columns
  induction columns generalizing row with
  | nil => simp
  | cons column rest ih =>
    cases row with
    | nil => simp
    | cons value others =>
      rw [List.map_cons, List.map_cons, List.cons.injEq, ih, List.length_cons, List.length_cons, Nat.add_right_cancel_iff,
        List.zip_cons_cons]
      constructor
      · rintro ⟨hvalue, hlength, hothers⟩
        refine ⟨hlength, fun column' value' hmem => ?_⟩
        rcases List.mem_cons.mp hmem with heq | hmem
        · obtain ⟨rfl, rfl⟩ := Prod.mk.inj heq
          exact hvalue
        · exact hothers column' value' hmem
      · rintro ⟨hlength, hall⟩
        exact ⟨hall column value List.mem_cons_self, hlength,
          fun column' value' hmem => hall column' value' (List.mem_cons_of_mem _ hmem)⟩

/-- A row that suits a schema has a value of the right type at the position of a column. -/
theorem Admits.value_at {row : Row} (h : schema.Admits row) (hcolumn : schema.columns[position]? = some column) :
    ∃ value, row[position]? = some value ∧ value.dataType = column.type := by
  have htypes : (row.map Value.dataType)[position]? = (schema.columns.map Column.type)[position]? := by
    rw [h]
  rw [List.getElem?_map, List.getElem?_map, hcolumn, Option.map_some] at htypes
  exact Option.map_eq_some_iff.mp htypes

/-- A row that suits a schema still does with a value of the right type in place of another one. -/
theorem Admits.set {row : Row} (h : schema.Admits row) {value : Value} (hcolumn : schema.columns[position]? = some column)
    (htype : value.dataType = column.type) : schema.Admits (row.set position value) := by
  have htypes : (schema.columns.map Column.type)[position]? = some column.type := by
    rw [List.getElem?_map, hcolumn, Option.map_some]
  obtain ⟨hlt, hget⟩ := List.getElem?_eq_some_iff.mp htypes
  have hsame : (schema.columns.map Column.type).set position column.type = schema.columns.map Column.type := by
    rw [← hget, List.set_getElem_self]
  unfold Admits
  rw [List.map_set, h, htype, hsame]

/-- The change puts a value of the right type in place of one of a column. -/
def Takes (schema : Schema) (change : Nat × Value) : Prop :=
  ∃ column, schema.columns[change.1]? = some column ∧ change.2.dataType = column.type

end Schema

end SqlEngine
