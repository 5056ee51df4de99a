import SqlEngine.Proofs.Table.Events

/-!
# Rows and the events that tell of them

The events that a table has reported account for its slots (`Table.AccountedBy`): every slot was reported once as a row inserted,
every empty one once more, later, as a row deleted, and nothing else was. Each change of a table, whether or not it fails, reports
what is to be added to keep it so.
-/

namespace SqlEngine

/-- In the list, every row that is deleted from the table of the name was inserted before. -/
def DeletesInserted (name : String) (events : List Event) : Prop :=
  ∀ i offset, events[i]? = some (.rowDeleted name offset) → .rowInserted name offset ∈ events.take i

/-- Further events go on with deletions of rows inserted before them. -/
theorem DeletesInserted.append {name : String} {events more : List Event} (h : DeletesInserted name events)
    (hmore : ∀ offset, .rowDeleted name offset ∈ more → .rowInserted name offset ∈ events) :
    DeletesInserted name (events ++ more) := by
  intro i offset hi
  rw [List.take_append]
  by_cases hlt : i < events.length
  · rw [List.getElem?_append_left hlt] at hi
    exact List.mem_append_left _ (h i offset hi)
  · rw [List.getElem?_append_right (Nat.le_of_not_lt hlt)] at hi
    rw [List.take_of_length_le (Nat.le_of_not_lt hlt)]
    exact List.mem_append_left _ (hmore offset (List.mem_of_getElem? hi))

namespace Table

/-- The events account for the slots: each slot was reported as a row inserted, once, and each empty one as a row deleted after
that, once. -/
structure AccountedBy (table : Table) (events : List Event) : Prop where
  inserted : ∀ offset, events.count (.rowInserted table.name offset) = if offset < table.size then 1 else 0
  deleted : ∀ offset, events.count (.rowDeleted table.name offset) =
    if offset < table.size ∧ table.row? offset = none then 1 else 0
  ordered : DeletesInserted table.name events

theorem accountedBy_empty (name : String) (schema : Schema) : (empty name schema).AccountedBy [] :=
  ⟨fun _ => rfl, fun _ => rfl, nofun⟩

section

variable {table : Table} {events : List Event} (h : table.AccountedBy events)

include h

/-- Every slot was reported as a row inserted. -/
theorem AccountedBy.mem_inserted {offset : Nat} (hlt : offset < table.size) : .rowInserted table.name offset ∈ events := by
  rw [← List.count_pos_iff, h.inserted, if_pos hlt]
  exact Nat.zero_lt_one

/-- Exactly the rows that were inserted and not deleted are live. -/
theorem AccountedBy.live_iff (offset : Nat) : (table.row? offset).isSome = true ↔
    .rowInserted table.name offset ∈ events ∧ .rowDeleted table.name offset ∉ events := by
  rw [← List.count_pos_iff, ← List.count_eq_zero, h.inserted, h.deleted]
  by_cases hlt : offset < table.size
  · cases hrow : table.row? offset with
    | none => simp [hlt]
    | some row => simp [hlt]
  · have hnone : table.row? offset = none := by
      rw [← Option.not_isSome_iff_eq_none]
      intro hsome
      obtain ⟨row, hrow⟩ := Option.isSome_iff_exists.mp hsome
      exact hlt (lt_size_of_row? hrow)
    simp [hlt, hnone]

/-- Events that tell of no row inserted or deleted account for a table with the same slots and the same live rows. -/
theorem AccountedBy.append {table' : Table} {more : List Event} (hname : table'.name = table.name)
    (hsize : table'.size = table.size) (hlive : ∀ offset, (table'.row? offset).isSome = (table.row? offset).isSome)
    (hmore : ∀ offset, .rowInserted table.name offset ∉ more ∧ .rowDeleted table.name offset ∉ more) :
    table'.AccountedBy (events ++ more) := by
  have hnone : ∀ offset, table'.row? offset = none ↔ table.row? offset = none := by
    intro offset
    rw [← Option.not_isSome_iff_eq_none, hlive, Option.not_isSome_iff_eq_none]
  refine ⟨fun offset => ?_, fun offset => ?_, ?_⟩
  · rw [hname, List.count_append, h.inserted, List.count_eq_zero.mpr (hmore offset).1, hsize, Nat.add_zero]
  · simp only [hname, List.count_append, h.deleted, List.count_eq_zero.mpr (hmore offset).2, hsize, Nat.add_zero, hnone]
  · rw [hname]
    exact h.ordered.append fun offset hmem => absurd hmem (hmore offset).2

/-- Events of resolving conditions change nothing. -/
theorem AccountedBy.append_resolution {resolution : List Event} (hresolution : ∀ event ∈ resolution, event.Resolves table.name) :
    table.AccountedBy (events ++ resolution) := by
  refine h.append rfl rfl (fun _ => rfl) fun offset => ⟨fun hmem => ?_, fun hmem => ?_⟩
  · exact nomatch hresolution _ hmem
  · exact nomatch hresolution _ hmem

/-! ## Changes without checks -/

theorem accountedBy_appendRow (row : Row) :
    ((appendRow row).after table).AccountedBy (events ++ (appendRow row).events table) := by
  have hname : ((appendRow row).after table).name = table.name := rfl
  have hsize : ((appendRow row).after table).size = table.size + 1 := Array.size_push ..
  have hrow : ∀ offset, ((appendRow row).after table).row? offset = if offset = table.size then some row else table.row? offset :=
    row?_of_push rfl
  rw [events_appendRow]
  refine ⟨fun offset => ?_, fun offset => ?_, ?_⟩
  · rw [List.count_append, hname, hsize, h.inserted, List.count_singleton]
    by_cases heq : offset = table.size
    · simp [heq]
    · simp [Ne.symm heq, show offset < table.size + 1 ↔ offset < table.size by omega]
  · rw [List.count_append, hname, hsize, hrow, h.deleted, List.count_singleton]
    by_cases heq : offset = table.size
    · simp [heq]
    · simp [heq, show offset < table.size + 1 ↔ offset < table.size by omega]
  · refine h.ordered.append fun offset hmem => ?_
    exact nomatch List.mem_singleton.mp hmem

theorem accountedBy_changeRow (offset : Nat) (changes : List (Nat × Value)) :
    ((changeRow offset changes).after table).AccountedBy (events ++ (changeRow offset changes).events table) := by
  refine h.append (sameHeading_changeRow offset changes table).1 (size_changeRow offset changes table)
    (isSome_row?_changeRow offset changes table) fun other => ?_
  rw [events_changeRow]
  split
  · exact ⟨nofun, nofun⟩
  · simp

theorem accountedBy_retireRow (offset : Nat) :
    ((retireRow offset).after table).AccountedBy (events ++ (retireRow offset).events table) := by
  have hname : ((retireRow offset).after table).name = table.name := (sameHeading_retireRow offset table).1
  have hsize : ((retireRow offset).after table).size = table.size := size_retireRow offset table
  rw [events_retireRow]
  split
  next hlive =>
    obtain ⟨row, hrow⟩ := Option.isSome_iff_exists.mp hlive
    have hlt : offset < table.size := lt_size_of_row? hrow
    refine ⟨fun other => ?_, fun other => ?_, ?_⟩
    · rw [List.count_append, hname, hsize, h.inserted, List.count_singleton]
      simp
    · rw [List.count_append, hname, hsize, h.deleted, List.count_singleton, row?_retireRow]
      by_cases heq : other = offset
      · simp [heq, hlt, hrow]
      · simp [heq, Ne.symm heq]
    · rw [hname]
      refine h.ordered.append fun other hmem => ?_
      obtain rfl : other = offset := by simpa using hmem
      exact h.mem_inserted hlt
  next hdead =>
    refine h.append hname hsize (fun other => ?_) fun other => ⟨nofun, nofun⟩
    rw [row?_retireRow]
    split
    next heq => rw [heq, Bool.eq_false_iff.mpr hdead, Option.isSome_none]
    next => rfl

theorem accountedBy_createIndex (name column : String) :
    ((createIndex name column).after table).AccountedBy (events ++ (createIndex name column).events table) := by
  refine h.append (sameHeading_createIndex name column table).1 (size_createIndex name column table) ?_ ?_
  · intro offset
    rw [row?_createIndex]
  · intro offset
    rcases events_createIndex name column table with ⟨⟨_, _, _, hevents⟩, -⟩ | ⟨hevents, -⟩
    · simp [hevents]
    · simp [hevents]

/-! ## Checked changes -/

theorem accountedBy_insert (row : Row) : ((insert row).after table).AccountedBy (events ++ (insert row).events table) := by
  rw [after_insert, events_insert]
  split
  · exact accountedBy_appendRow h row
  · rw [List.append_nil]
    exact h

/-- What is refused reports nothing that is to be added. -/
theorem AccountedBy.of_refuses {α : Type} {action : Action Table α} (hrefuses : table.Refuses action) :
    (action.after table).AccountedBy (events ++ action.events table) := by
  rw [hrefuses.after]
  exact h.append_resolution hrefuses.events

variable [Pattern.Compiler]

/-- What is done to all rows of a condition reports what is to be added if every step does. -/
theorem AccountedBy.of_doesForRows {condition : Option Condition} {action : Action Table Nat} {step : Nat → Action Table Unit}
    {each total : String → Nat → Event} (hdoes : table.DoesForRows condition action step each total)
    (hstep : ∀ (offset : Nat) {between : Table} {events : List Event}, between.AccountedBy events →
      ((step offset).after between).AccountedBy (events ++ (step offset).events between))
    (htotal : ∀ name rows other offset, total name rows ≠ .rowInserted other offset ∧ total name rows ≠ .rowDeleted other offset) :
    (action.after table).AccountedBy (events ++ action.events table) := by
  obtain ⟨resolution, hresolution, hevents⟩ := hdoes.events
  have hloop : ∀ offsets : List Nat, ((forM offsets step).after table).AccountedBy
      (events ++ resolution ++ (forM offsets step).events table) := fun offsets =>
    Action.forM_accumulates (P := fun events between => AccountedBy between events) (fun offset _ _ _ => hstep offset)
      (h.append_resolution hresolution)
  rw [hdoes.after, hevents, ← List.append_assoc, ← List.append_assoc]
  refine (hloop _).append rfl rfl (fun _ => rfl) fun offset => ⟨fun hmem => ?_, fun hmem => ?_⟩
  · exact (htotal _ _ _ _).1 (List.mem_singleton.mp hmem).symm
  · exact (htotal _ _ _ _).2 (List.mem_singleton.mp hmem).symm

theorem accountedBy_delete (hsound : table.Sound) (condition : Option Condition) :
    ((delete condition).after table).AccountedBy (events ++ (delete condition).events table) := by
  rcases delete_cases hsound condition with hrefuses | hdoes
  · exact h.of_refuses hrefuses
  · exact h.of_doesForRows hdoes (fun offset _ _ haccounted => accountedBy_retireRow haccounted offset)
      fun _ _ _ _ => ⟨nofun, nofun⟩

theorem accountedBy_update (hsound : table.Sound) (assignments : List Assignment) (condition : Option Condition) :
    ((update assignments condition).after table).AccountedBy (events ++ (update assignments condition).events table) := by
  rcases update_cases hsound condition assignments with hrefuses | ⟨changes, hdoes⟩
  · exact h.of_refuses hrefuses
  · exact h.of_doesForRows hdoes (fun offset _ _ haccounted => accountedBy_changeRow haccounted offset changes)
      fun _ _ _ _ => ⟨nofun, nofun⟩

end

end Table

end SqlEngine
