import Mathlib.Logic.Function.Basic
import SqlEngine.Proofs.Table.Checked
import SqlEngine.Proofs.Table.Permanence

/-!
# What updates and deletions leave

The offsets of a condition are found before the first row is touched, and each of them is then changed or retired once. So an update
that passes its checks leaves at the offsets of its condition the rows that were there with the values assigned last, and everywhere
else what was there (`row?_update`); a deletion leaves nothing at the offsets of its condition, and everywhere else what was there
(`row?_delete`). Neither takes a slot or changes the names of the indexes.
-/

namespace SqlEngine

/-- What a list of steps that all succeed does to a view of the state, if every step that succeeds does its part to it. -/
theorem Action.forM_acts {α β σ : Type} {step : α → Action σ Unit} (view : σ → β) (act : β → α → β)
    (h : ∀ member state, (step member).result state = .ok () → view ((step member).after state) = act (view state) member)
    (list : List α) : ∀ {state : σ}, (forM list step).result state = .ok () →
      view ((forM list step).after state) = list.foldl act (view state) := by
  induction list with
  | nil => exact fun _ => rfl
  | cons first rest ih =>
    intro state hresult
    rw [List.forM_cons, result_bind] at hresult
    obtain ⟨_, hfirst, hrest⟩ := ExceptAux.bind_eq_ok_iff.mp hresult
    rw [List.forM_cons, after_bind_of_ok hfirst, ih hrest, h first state hfirst, List.foldl_cons]

/-! ## Rows with assigned values -/

/-- The value that a list of assignments gives to a column in the end, if any of them is to it. -/
def Assignment.last? (assignments : List Assignment) (column : String) : Option Value :=
  ((assignments.filter (·.column = column)).getLast?).map Assignment.value

theorem Assignment.last?_cons (assignment : Assignment) (rest : List Assignment) (column : String) :
    last? (assignment :: rest) column =
      if assignment.column = column then some ((last? rest column).getD assignment.value) else last? rest column := by
  unfold last?
  by_cases h : assignment.column = column
  · rw [List.filter_cons_of_pos (by simpa using h), if_pos h, List.getLast?_cons]
    cases (rest.filter (·.column = column)).getLast? <;> rfl
  · rw [List.filter_cons_of_neg (by simpa using h), if_neg h]

namespace Row

/-- The row with the value that is assigned last to each column, and its own value where none is. -/
def assigned (schema : Schema) (assignments : List Assignment) (row : Row) : Row :=
  List.zipWith (fun column value => (Assignment.last? assignments column.name).getD value) schema.columns row

/-- The row with changes made one after the other. -/
def revised (row : Row) (changes : List (Nat × Value)) : Row :=
  changes.foldl (fun row change => row.set change.1 change.2) row

/-- At the position of a column stands the value that is assigned to it last or, where none is, the row's own. -/
theorem getElem?_assigned {schema : Schema} {column : Column} {position : Nat}
    (hcolumn : schema.columns[position]? = some column) (assignments : List Assignment) (row : Row) :
    (row.assigned schema assignments)[position]? = row[position]?.map (Assignment.last? assignments column.name).getD := by
  rw [assigned, List.getElem?_zipWith, hcolumn]
  cases row[position]? <;> rfl

/-- Behind the last column stands nothing. -/
theorem getElem?_assigned_eq_none {schema : Schema} {position : Nat} (hcolumn : schema.columns[position]? = none)
    (assignments : List Assignment) (row : Row) : (row.assigned schema assignments)[position]? = none := by
  rw [assigned, List.getElem?_zipWith, hcolumn]

/-- Without assignments a row that suits the schema stays as it is. -/
theorem assigned_nil {schema : Schema} {row : Row} (h : schema.Admits row) : row.assigned schema [] = row := by
  have hlength : row.length = schema.columns.length := (Schema.admits_iff.mp h).1
  refine List.ext_getElem? fun position => ?_
  cases hcolumn : schema.columns[position]? with
  | none => rw [getElem?_assigned_eq_none hcolumn, List.getElem?_eq_none (hlength ▸ List.getElem?_eq_none_iff.mp hcolumn)]
  | some column =>
    rw [getElem?_assigned hcolumn]
    exact Option.map_id_apply

/-- The first of some assignments is made before the others. -/
theorem assigned_cons {schema : Schema} {assignment : Assignment} {column : Column} {position : Nat}
    (hfind : schema.find? assignment.column = some (column, position)) (rest : List Assignment) (row : Row) :
    row.assigned schema (assignment :: rest) = Row.assigned schema rest (row.set position assignment.value) := by
  obtain ⟨hcolumn, hname⟩ := Schema.find?_eq_some_iff.mp hfind
  refine List.ext_getElem? fun other => ?_
  cases hother : schema.columns[other]? with
  | none => rw [getElem?_assigned_eq_none hother, getElem?_assigned_eq_none hother]
  | some found =>
    rw [getElem?_assigned hother, getElem?_assigned hother]
    by_cases heq : position = other
    · subst heq
      obtain rfl := Option.some.inj (hcolumn.symm.trans hother)
      rw [Assignment.last?_cons, if_pos hname.symm, List.getElem?_set_self']
      cases row[position]? <;> rfl
    · have hne : assignment.column ≠ found.name := fun hsame =>
        heq (Schema.position_unique hcolumn hother (hname.trans hsame))
      rw [Assignment.last?_cons, if_neg hne, List.getElem?_set_ne heq]

/-- A row in which changes are made that come of assignments has the values assigned last. -/
theorem revised_eq_assigned {schema : Schema} {assignments : List Assignment} :
    ∀ {changes : List (Nat × Value)} {row : Row}, assignments.mapM (·.change schema) = .ok changes → schema.Admits row →
      row.revised changes = row.assigned schema assignments := by
  induction assignments with
  | nil =>
    intro changes row hchanges hrow
    obtain rfl := Except.ok.inj hchanges
    exact (assigned_nil hrow).symm
  | cons assignment rest ih =>
    intro changes row hchanges hrow
    rw [List.mapM_cons] at hchanges
    obtain ⟨change, hchange, hmore⟩ := ExceptAux.bind_eq_ok_iff.mp hchanges
    obtain ⟨later, hlater, heq⟩ := ExceptAux.bind_eq_ok_iff.mp hmore
    obtain rfl := Except.ok.inj heq
    obtain ⟨column, position, hfind, htype, rfl⟩ := Assignment.change_eq_ok_iff.mp hchange
    rw [assigned_cons hfind]
    exact ih hlater (hrow.set (Schema.find?_eq_some_iff.mp hfind).1 htype)

end Row

theorem NamedIndex.name_refile (position offset : Nat) (old new : Value) (entry : NamedIndex) :
    (entry.refile position offset old new).name = entry.name := by
  unfold refile
  split <;> rfl

theorem NamedIndex.name_onValue (row : Row) (change : Index → Value → Index) (entry : NamedIndex) :
    (entry.onValue row change).name = entry.name := by
  unfold onValue
  split <;> rfl

namespace Table

/-! ## Rows -/

/-- What a fold that changes the value at each of some different places leaves. -/
theorem foldl_update_apply {β : Type} (change : β → β) {places : List Nat} (hnodup : places.Nodup) (other : Nat) :
    ∀ values : Nat → β, places.foldl (fun values place => Function.update values place (change (values place))) values other =
      if other ∈ places then change (values other) else values other := by
  induction places with
  | nil => exact fun _ => rfl
  | cons place rest ih =>
    intro values
    obtain ⟨hplace, hrest⟩ := List.nodup_cons.mp hnodup
    rw [List.foldl_cons, ih hrest]
    by_cases heq : other = place
    · subst heq
      rw [if_neg hplace, if_pos List.mem_cons_self, Function.update_self]
    · simp only [Function.update_of_ne heq, List.mem_cons, heq, false_or]

/-- A change of a value that succeeds puts it into the row at its offset. -/
theorem row?_changeValue_of_ok {offset : Nat} {change : Nat × Value} {table : Table}
    (hok : (changeValue offset change.1 change.2).result table = .ok ()) :
    ((changeValue offset change.1 change.2).after table).row? =
      Function.update table.row? offset ((table.row? offset).map fun row => row.set change.1 change.2) := by
  funext other
  rcases changeValue_cases offset change.1 change.2 table with ⟨row, old, -, hrow, -, -, hafter⟩ | ⟨-, ⟨cause, herror⟩, -⟩
  · rw [hafter, row?_of_set (lt_size_of_row? hrow) rfl, Function.update_apply, hrow, Option.map_some]
  · exact nomatch hok.symm.trans herror

/-- Changes of the row at an offset, made one after the other, come to one change of it. -/
theorem foldl_update_revised (offset : Nat) (changes : List (Nat × Value)) : ∀ rows : Nat → Option Row,
    changes.foldl (fun rows change => Function.update rows offset ((rows offset).map fun row => row.set change.1 change.2)) rows =
      Function.update rows offset ((rows offset).map (·.revised changes)) := by
  induction changes with
  | nil =>
    intro rows
    have hsame : (rows offset).map (·.revised []) = rows offset := Option.map_id_apply
    rw [List.foldl_nil, hsame, Function.update_eq_self]
  | cons change rest ih =>
    intro rows
    rw [List.foldl_cons, ih, Function.update_self, Function.update_idem, Option.map_map]
    rfl

/-- A change of a row that succeeds makes all its changes in the row at its offset. -/
theorem row?_changeRow_of_ok {changes : List (Nat × Value)} {offset : Nat} {table : Table}
    (hok : (changeRow offset changes).result table = .ok ()) : ((changeRow offset changes).after table).row? =
      Function.update table.row? offset ((table.row? offset).map (·.revised changes)) := by
  rw [result_changeRow] at hok
  rw [after_changeRow]
  split at hok
  next => exact nomatch hok
  next hlive =>
    rw [if_neg hlive, ← foldl_update_revised]
    exact Action.forM_acts row? _ (fun _ _ => row?_changeValue_of_ok) changes hok

/-- The same changes of rows at different offsets, if they succeed, are made once in each of the rows. -/
theorem row?_changeEach_of_ok {changes : List (Nat × Value)} {offsets : List Nat} (hnodup : offsets.Nodup) {table : Table}
    (hok : (forM offsets fun offset => changeRow offset changes).result table = .ok ()) (other : Nat) :
    ((forM offsets fun offset => changeRow offset changes).after table).row? other =
      if other ∈ offsets then (table.row? other).map (·.revised changes) else table.row? other := by
  rw [← foldl_update_apply (fun row? => row?.map (·.revised changes)) hnodup other table.row?]
  exact congrFun (Action.forM_acts row? _ (fun _ _ => row?_changeRow_of_ok) offsets hok) other

/-- Rows at different offsets, if they can be retired, are gone, and all other rows stay. -/
theorem row?_retireEach_of_ok {offsets : List Nat} (hnodup : offsets.Nodup) {table : Table}
    (hok : (forM offsets retireRow).result table = .ok ()) (other : Nat) :
    ((forM offsets retireRow).after table).row? other = if other ∈ offsets then none else table.row? other := by
  have hretire : ∀ offset between, (retireRow offset).result between = .ok () →
      ((retireRow offset).after between).row? = Function.update between.row? offset none := by
    intro offset between _
    funext other
    rw [row?_retireRow, Function.update_apply]
  rw [← foldl_update_apply (fun _ => none) hnodup other table.row?]
  exact congrFun (Action.forM_acts row? _ hretire offsets hok) other

/-! ## Slots and names -/

/-- A slot holds the row that is live at its offset, if one is. -/
theorem getElem?_slots (table : Table) (offset : Nat) :
    table.slots[offset]? = if offset < table.size then some (table.row? offset) else none := by
  rw [row?]
  split
  next hlt => rw [Array.getElem?_eq_getElem hlt, Option.getD_some]
  next hge => exact Array.getElem?_eq_none (Nat.le_of_not_lt hge)

/-- The second table has as many slots as the first, and its indexes have the same names. -/
structure SameFrame (table table' : Table) : Prop where
  size : table'.size = table.size
  indexNames : table'.indexNames = table.indexNames

theorem SameFrame.refl (table : Table) : table.SameFrame table := ⟨rfl, rfl⟩

theorem SameFrame.trans {table table' table'' : Table} (h : table.SameFrame table') (h' : table'.SameFrame table'') :
    table.SameFrame table'' :=
  ⟨h'.size.trans h.size, h'.indexNames.trans h.indexNames⟩

/-- Where the same row stands at an offset of both tables, the slots of the offset are the same. -/
theorem SameFrame.slot_eq {table table' : Table} (h : table.SameFrame table') {offset : Nat}
    (hrow : table'.row? offset = table.row? offset) : table'.slots[offset]? = table.slots[offset]? := by
  rw [getElem?_slots, getElem?_slots, h.size, hrow]

/-- Indexes that are mapped to ones of the same names leave the names of the table. -/
theorem indexNames_of_map {table table' : Table} {change : NamedIndex → NamedIndex}
    (hname : ∀ entry, (change entry).name = entry.name) (hindexes : table'.indexes = table.indexes.map change)
    (hretired : table'.retired = table.retired) : table'.indexNames = table.indexNames := by
  have hnames : table'.indexes.map NamedIndex.name = table.indexes.map NamedIndex.name := by
    rw [hindexes, List.map_map]
    exact List.map_congr_left fun entry _ => hname entry
  rw [indexNames, indexNames, hnames, hretired]

theorem sameFrame_changeRow (offset : Nat) (changes : List (Nat × Value)) (table : Table) :
    table.SameFrame ((changeRow offset changes).after table) := by
  refine ⟨size_changeRow offset changes table, ?_⟩
  rw [after_changeRow]
  split
  · rfl
  · refine Action.forM_preserves (P := fun between : Table => between.indexNames = table.indexNames) ?_ rfl
    intro change _ between hbetween
    rcases changeValue_cases offset change.1 change.2 between with ⟨row, old, -, -, -, -, hafter⟩ | ⟨-, -, hafter⟩
    · rw [hafter, ← hbetween]
      exact indexNames_of_map (NamedIndex.name_refile change.1 offset old change.2) rfl rfl
    · rwa [hafter]

theorem sameFrame_retireRow (offset : Nat) (table : Table) : table.SameFrame ((retireRow offset).after table) := by
  refine ⟨size_retireRow offset table, ?_⟩
  rcases retireRow_cases offset table with ⟨row, -, -, hafter⟩ | ⟨-, -, hafter⟩
  · rw [hafter]
    exact indexNames_of_map (NamedIndex.name_onValue row _) rfl rfl
  · rw [hafter]

/-! ## Updates and deletions -/

/-- The second table is the first with assignments made in the rows at the offsets of a set: these rows have the values assigned
last, and all other slots, the offsets that are live, the number of slots and the names of the indexes are the same. -/
structure AssignedAt (table : Table) (matched : Offsets) (assignments : List Assignment) (after : Table) : Prop where
  rows : ∀ offset ∈ matched, ∃ row, table.row? offset = some row ∧
    after.row? offset = some (row.assigned table.schema assignments)
  others : ∀ offset, offset ∉ matched → after.slots[offset]? = table.slots[offset]?
  live : ∀ offset, (after.row? offset).isSome = (table.row? offset).isSome
  heading : table.SameHeading after
  frame : table.SameFrame after

/-- The second table is the first without the rows at the offsets of a set: of the live offsets these are gone, and all other slots,
the number of slots and the names of the indexes are the same. -/
structure RetiredAt (table : Table) (matched : Offsets) (after : Table) : Prop where
  live : ∀ offset, (after.row? offset).isSome = true ↔ (table.row? offset).isSome = true ∧ offset ∉ matched
  others : ∀ offset, offset ∉ matched → after.slots[offset]? = table.slots[offset]?
  heading : table.SameHeading after
  frame : table.SameFrame after

section

variable [Pattern.Compiler] {table : Table} (h : table.Sound)

include h

/-- An update that passes its checks leaves the rows of its condition with the values assigned last, and all other rows as they
were. -/
theorem row?_update {condition : Option Condition} {assignments : List Assignment} {changes : List (Nat × Value)}
    (hchanges : table.schema.changes assignments condition = .ok changes) (offset : Nat) :
    ((update assignments condition).after table).row? offset =
      if offset ∈ table.offsetsWhere (table.schema.selects condition) then
        (table.row? offset).map (·.assigned table.schema assignments)
      else table.row? offset := by
  obtain ⟨found, hfound, hrest⟩ := ExceptAux.bind_eq_ok_iff.mp hchanges
  obtain rfl : found = changes := Except.ok.inj (ExceptAux.check_bind_eq_ok_iff.mp hrest).2
  have hloop := revision_changeEach h (live_of_mem_offsetsWhere table (table.schema.selects condition))
    (Assignment.takes_of_mapM hfound)
  rw [after_update h, hchanges]
  dsimp only
  rw [row?_changeEach_of_ok ((table.offsetsWhere _).ascending.imp Nat.ne_of_lt) hloop.1]
  refine if_congr Iff.rfl (Option.map_congr fun row hrow => ?_) rfl
  exact Row.revised_eq_assigned hfound (h.typed offset row hrow)

theorem sameFrame_update (condition : Option Condition) (assignments : List Assignment) :
    table.SameFrame ((update assignments condition).after table) := by
  rw [after_update h]
  split
  · exact SameFrame.refl table
  next changes _ =>
    exact Action.forM_preserves (fun offset _ between hbetween => hbetween.trans (sameFrame_changeRow offset changes between))
      (SameFrame.refl table)

/-- A deletion whose condition can be used leaves nothing at the offsets of its condition, and all other rows as they were. -/
theorem row?_delete {condition : Option Condition} (hready : table.schema.ready condition = .ok ()) (offset : Nat) :
    ((delete condition).after table).row? offset =
      if offset ∈ table.offsetsWhere (table.schema.selects condition) then none else table.row? offset := by
  rw [after_delete h, hready]
  exact row?_retireEach_of_ok ((table.offsetsWhere _).ascending.imp Nat.ne_of_lt) (retireEach_offsetsWhere h _).1 offset

theorem sameFrame_delete (condition : Option Condition) : table.SameFrame ((delete condition).after table) := by
  rw [after_delete h]
  split
  · exact SameFrame.refl table
  · exact Action.forM_preserves (fun offset _ between hbetween => hbetween.trans (sameFrame_retireRow offset between))
      (SameFrame.refl table)

/-- An update that passes its checks makes its assignments in the rows of its condition. -/
theorem assignedAt_update {condition : Option Condition} {assignments : List Assignment} {changes : List (Nat × Value)}
    (hchanges : table.schema.changes assignments condition = .ok changes) :
    table.AssignedAt (table.offsetsWhere (table.schema.selects condition)) assignments
      ((update assignments condition).after table) := by
  have hframe := sameFrame_update h condition assignments
  refine ⟨fun offset hmatched => ?_, fun offset hother => ?_, fun offset => ?_, sameHeading_update h condition assignments, hframe⟩
  · obtain ⟨row, hrow, -⟩ := mem_offsetsWhere.mp hmatched
    refine ⟨row, hrow, ?_⟩
    rw [row?_update h hchanges, if_pos hmatched, hrow, Option.map_some]
  · exact hframe.slot_eq ((row?_update h hchanges offset).trans (if_neg hother))
  · rw [row?_update h hchanges]
    split
    · rw [Option.isSome_map]
    · rfl

/-- A deletion whose condition can be used retires the rows of its condition. -/
theorem retiredAt_delete {condition : Option Condition} (hready : table.schema.ready condition = .ok ()) :
    table.RetiredAt (table.offsetsWhere (table.schema.selects condition)) ((delete condition).after table) := by
  have hframe := sameFrame_delete h condition
  refine ⟨fun offset => ?_, fun offset hother => ?_, sameHeading_delete h condition, hframe⟩
  · rw [row?_delete h hready]
    split
    next hmatched => simp [hmatched]
    next hother => simp [hother]
  · exact hframe.slot_eq ((row?_delete h hready offset).trans (if_neg hother))

end

end Table

end SqlEngine
