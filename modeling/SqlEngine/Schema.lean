import SqlEngine.Error

/-!
# Schemas and rows

A table has at least one column, and no two of its columns share a name; a `Schema` carries both facts. A row is a list of
values in the order of the columns; nothing here ties its length or its types to a schema.
-/

namespace SqlEngine

/-- A column of a table. -/
structure Column where
  name : String
  type : DataType
  deriving DecidableEq, Repr

/-- The first name of a list that stands earlier in the list or among the names already seen. -/
def firstRepeated? (seen : List String) : List String → Option String
  | [] => none
  | name :: rest => if name ∈ seen then some name else firstRepeated? (name :: seen) rest

theorem firstRepeated?_eq_none_iff {seen names : List String} :
    firstRepeated? seen names = none ↔ names.Nodup ∧ ∀ name ∈ names, name ∉ seen := by
  induction names generalizing seen with
  | nil => simp [firstRepeated?]
  | cons name rest ih =>
    unfold firstRepeated?
    by_cases h : name ∈ seen
    · simp [h]
    · simp only [h, if_false, ih, List.nodup_cons, List.mem_cons, forall_eq_or_imp, not_false_eq_true, true_and, not_or]
      constructor
      · rintro ⟨hnodup, hrest⟩
        exact ⟨⟨fun hmem => (hrest name hmem).1 rfl, hnodup⟩, fun other hother => (hrest other hother).2⟩
      · rintro ⟨⟨hname, hnodup⟩, hrest⟩
        exact ⟨hnodup, fun other hother => ⟨fun heq => hname (heq ▸ hother), hrest other hother⟩⟩

/-- The columns of a table in order. -/
structure Schema where
  columns : List Column
  nonempty : columns ≠ []
  distinct : (columns.map Column.name).Nodup
  deriving DecidableEq, Repr

namespace Schema

/-- The schema with the given columns, if there are any and their names differ. -/
def ofColumns (columns : List Column) : Except Error Schema :=
  if hempty : columns = [] then .error .noColumns
  else match hrepeated : firstRepeated? [] (columns.map Column.name) with
    | some name => .error (.columnRepeated name)
    | none => .ok ⟨columns, hempty, (firstRepeated?_eq_none_iff.mp hrepeated).1⟩

/-- The number of columns. -/
def size (schema : Schema) : Nat := schema.columns.length

/-- The column of a name with its position. -/
def find? (schema : Schema) (name : String) : Option (Column × Nat) :=
  schema.columns.zipIdx.find? (fun entry => entry.1.name == name)

/-- The column of a name with its position; an unknown name is an error. -/
def locate (schema : Schema) (name : String) : Except Error (Column × Nat) :=
  match schema.find? name with
  | some entry => .ok entry
  | none => .error (.columnUnknown name)

/-- The position of the column of a name. -/
def position? (schema : Schema) (name : String) : Option Nat :=
  (schema.find? name).map Prod.snd

/-- The position of the column of a name; an unknown name is an error. -/
def position (schema : Schema) (name : String) : Except Error Nat :=
  (schema.locate name).map Prod.snd

end Schema

/-- The values of a row, in the order of the columns. -/
abbrev Row : Type := List Value

/-- The value that stood at a position and the row with another one in its place, if the row reaches that far. -/
def Row.replace? (row : Row) (position : Nat) (value : Value) : Option (Value × Row) :=
  row[position]?.map (·, row.set position value)

end SqlEngine
