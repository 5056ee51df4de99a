import SqlEngine.Proofs.Table.Resolution

/-!
# Sound tables

A table is sound when its indexes and its marks are in step with its rows and its rows suit its schema. On a sound table changes that suit
the schema, made to live rows, never fail, and they leave a sound table with live rows at the same offsets
(`revision_changeRow`, `revision_changeEach`); retiring live rows one after the other never fails either
(`retireEach_of_live`).
-/

namespace SqlEngine

namespace Table

/-- The indexes and the marks are in step with the rows, and the rows suit the schema. -/
structure Sound (table : Table) : Prop where
  consistent : table.Consistent
  marked : table.Marked
  typed : table.Typed

theorem sound_empty (name : String) (schema : Schema) : (empty name schema).Sound :=
  ⟨consistent_empty name schema, marked_empty name schema, nofun⟩

/-! ## Storing, retiring and indexing -/

/-- Storing a row that suits the schema leaves a sound table. -/
theorem sound_appendRow {table : Table} (h : table.Sound) {row : Row} (hrow : table.schema.Admits row) :
    ((appendRow row).after table).Sound := by
  refine ⟨consistent_appendRow h.consistent row, marked_appendRow h.marked row, ?_⟩
  rw [after_appendRow]
  intro offset row' hrow'
  rw [row?_of_push rfl] at hrow'
  split at hrow'
  · obtain rfl := Option.some.inj hrow'
    exact hrow
  · exact h.typed offset row' hrow'

/-- An index more leaves a sound table. -/
theorem sound_createIndex {table : Table} (h : table.Sound) (name column : String) :
    ((createIndex name column).after table).Sound := by
  refine ⟨consistent_createIndex h.consistent name column, marked_createIndex h.marked name column, ?_⟩
  rcases createIndex_cases name column table with ⟨found, position, -, -, -, hafter⟩ | ⟨-, -, hafter⟩
  · rw [hafter]
    exact h.typed
  · rw [hafter]
    exact h.typed

/-- Setting the slot of a live row, to nothing or to a row that suits the schema, leaves a typed table. -/
theorem typed_of_set {table table' : Table} (h : table.Typed) {slot : Option Row} {offset : Nat}
    (hlive : offset < table.size) (hslot : ∀ row, slot = some row → table.schema.Admits row)
    (hschema : table'.schema = table.schema) (hslots : table'.slots = table.slots.setIfInBounds offset slot) :
    table'.Typed := by
  intro offset' row hrow
  rw [row?_of_set hlive hslots] at hrow
  rw [hschema]
  split at hrow
  · exact hslot row hrow
  · exact h offset' row hrow

/-- Retiring a live row does not fail, leaves a sound table, and leaves all other rows alone. -/
theorem retireRow_of_live {table : Table} (h : table.Sound) {offset : Nat} (hlive : (table.row? offset).isSome = true) :
    (retireRow offset).result table = .ok () ∧ ((retireRow offset).after table).Sound ∧
      ∀ offset', offset' ≠ offset → ((retireRow offset).after table).row? offset' = table.row? offset' := by
  rcases retireRow_cases offset table with ⟨row, hrow, hresult, hafter⟩ | ⟨hnone, -, -⟩
  · refine ⟨hresult, ⟨consistent_retireRow h.consistent offset, marked_retireRow h.marked offset, ?_⟩, ?_⟩
    · rw [hafter]
      have hslot : ∀ row, none = some row → table.schema.Admits row := nofun
      exact typed_of_set h.typed (lt_size_of_row? hrow) hslot rfl rfl
    · intro offset' hne
      rw [hafter, row?_of_set (lt_size_of_row? hrow) rfl, if_neg hne]
  · rw [hnone] at hlive
    exact nomatch hlive

/-- Retiring live rows, each once, does not fail and leaves a sound table. -/
theorem retireEach_of_live {table : Table} (h : table.Sound) {offsets : List Nat} (hnodup : offsets.Nodup)
    (hlive : ∀ offset ∈ offsets, (table.row? offset).isSome = true) :
    (forM offsets retireRow).result table = .ok () ∧ ((forM offsets retireRow).after table).Sound := by
  have hloop := Action.forM_succeeds (P := fun offsets table =>
    table.Sound ∧ offsets.Nodup ∧ ∀ offset ∈ offsets, (table.row? offset).isSome = true) retireRow ?step offsets
    ⟨h, hnodup, hlive⟩
  case step =>
    rintro offset rest between ⟨hsound, hdistinct, hrows⟩
    obtain ⟨hfirst, hothers⟩ := List.nodup_cons.mp hdistinct
    obtain ⟨hrow, hrest⟩ := List.forall_mem_cons.mp hrows
    obtain ⟨hresult, hafter, hframe⟩ := retireRow_of_live hsound hrow
    refine ⟨hresult, hafter, hothers, ?_⟩
    intro offset' hoffset'
    rw [hframe offset' fun heq => hfirst (heq ▸ hoffset')]
    exact hrest offset' hoffset'
  exact ⟨hloop.1, hloop.2.1⟩

/-! ## Changing -/

/-- The second table is sound, and it has the schema of the first and live rows at the same offsets. -/
structure Revision (table table' : Table) : Prop where
  sound : table'.Sound
  schema : table'.schema = table.schema
  live : ∀ offset, (table'.row? offset).isSome = (table.row? offset).isSome

theorem Revision.refl {table : Table} (h : table.Sound) : table.Revision table := ⟨h, rfl, fun _ => rfl⟩

theorem Revision.trans {table table' table'' : Table} (h : table.Revision table') (h' : table'.Revision table'') :
    table.Revision table'' :=
  ⟨h'.sound, h'.schema.trans h.schema, fun offset => (h'.live offset).trans (h.live offset)⟩

/-- A change of a live row that suits the schema is made. -/
theorem revision_changeValue {table : Table} (h : table.Sound) {offset : Nat} (hlive : (table.row? offset).isSome = true)
    {change : Nat × Value} (htakes : table.schema.Takes change) :
    (changeValue offset change.1 change.2).result table = .ok () ∧
      table.Revision ((changeValue offset change.1 change.2).after table) := by
  obtain ⟨column, hcolumn, htype⟩ := htakes
  obtain ⟨row, hrow⟩ := Option.isSome_iff_exists.mp hlive
  have hadmits := h.typed offset row hrow
  rcases changeValue_cases offset change.1 change.2 table with
    ⟨row', old, -, hrow', -, hresult, hafter⟩ | ⟨hposition | hvalue, -, -⟩
  · obtain rfl := Option.some.inj (hrow.symm.trans hrow')
    refine ⟨hresult, ⟨consistent_changeValue h.consistent _ _ _, marked_changeValue h.marked _ _ _, ?_⟩, ?_, ?_⟩
    · rw [hafter]
      refine typed_of_set h.typed (lt_size_of_row? hrow) ?_ rfl rfl
      intro changed heq
      obtain rfl := Option.some.inj heq
      exact hadmits.set hcolumn htype
    · rw [hafter]
    · intro offset'
      rw [hafter, row?_of_set (lt_size_of_row? hrow) rfl]
      split
      next heq => rw [heq, hlive, Option.isSome_some]
      next => rfl
  · exact absurd (List.getElem?_eq_some_iff.mp hcolumn).1 (Nat.not_lt.mpr hposition)
  · obtain ⟨value, hheld, -⟩ := hadmits.value_at hcolumn
    rw [hrow, Option.bind_some, hheld] at hvalue
    exact nomatch hvalue

/-- Changes of a live row that suit the schema are all made. -/
theorem revision_changeRow {table : Table} (h : table.Sound) {offset : Nat} (hlive : (table.row? offset).isSome = true)
    {changes : List (Nat × Value)} (hchanges : ∀ change ∈ changes, table.schema.Takes change) :
    (changeRow offset changes).result table = .ok () ∧ table.Revision ((changeRow offset changes).after table) := by
  have hloop := Action.forM_succeeds
    (P := fun changes table' => table.Revision table' ∧ ∀ change ∈ changes, table.schema.Takes change)
    (fun change => changeValue offset change.1 change.2) ?step changes ⟨Revision.refl h, hchanges⟩
  case step =>
    rintro change rest between ⟨hrevision, htakes⟩
    obtain ⟨hchange, hrest⟩ := List.forall_mem_cons.mp htakes
    obtain ⟨hresult, hafter⟩ := revision_changeValue hrevision.sound ((hrevision.live offset).trans hlive)
      (hrevision.schema.symm ▸ hchange)
    exact ⟨hresult, hrevision.trans hafter, hrest⟩
  have hsome : ¬(table.row? offset).isNone = true := by
    rw [Option.isNone_eq_false_iff.mpr hlive]
    exact Bool.false_ne_true
  rw [result_changeRow, after_changeRow, if_neg hsome, if_neg hsome]
  exact ⟨hloop.1, hloop.2.1⟩

/-- The same changes, if they suit the schema, are made to live rows one after the other. -/
theorem revision_changeEach {table : Table} (h : table.Sound) {offsets : List Nat}
    (hlive : ∀ offset ∈ offsets, (table.row? offset).isSome = true) {changes : List (Nat × Value)}
    (hchanges : ∀ change ∈ changes, table.schema.Takes change) :
    (forM offsets fun offset => changeRow offset changes).result table = .ok () ∧
      table.Revision ((forM offsets fun offset => changeRow offset changes).after table) := by
  have hloop := Action.forM_succeeds
    (P := fun offsets table' => table.Revision table' ∧ ∀ offset ∈ offsets, (table.row? offset).isSome = true)
    (fun offset => changeRow offset changes) ?step offsets ⟨Revision.refl h, hlive⟩
  case step =>
    rintro offset rest between ⟨hrevision, hrows⟩
    obtain ⟨hrow, hrest⟩ := List.forall_mem_cons.mp hrows
    obtain ⟨hresult, hafter⟩ := revision_changeRow hrevision.sound ((hrevision.live offset).trans hrow)
      (hrevision.schema.symm ▸ hchanges)
    exact ⟨hresult, hrevision.trans hafter, hrest⟩
  exact ⟨hloop.1, hloop.2.1⟩

end Table

end SqlEngine
