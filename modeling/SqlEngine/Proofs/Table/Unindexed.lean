import SqlEngine.Proofs.Table.Selection

/-!
# Tables without their indexes

`Table.unindexed` takes all indexes away from a table and leaves the rows. What the unchecked changes of rows end in does
not depend on the indexes, and taking the indexes away before a change or after it comes to the same (`Action.Commutes`). On
a sound table the same is true of the checked changes, which may look for rows through indexes, and of queries.
-/

namespace SqlEngine

namespace Action

variable {σ α β : Type} {forget : σ → σ}

/-- On a state the action does not depend on what is forgotten of it: it ends in the same without it, and it is the same to
forget it before or after. -/
def CommutesAt (forget : σ → σ) (action : Action σ α) (state : σ) : Prop :=
  action.result state = action.result (forget state) ∧ forget (action.after state) = action.after (forget state)

/-- On no state does the action depend on what is forgotten of it. -/
def Commutes (forget : σ → σ) (action : Action σ α) : Prop :=
  ∀ state, CommutesAt forget action state

theorem commutes_pure (value : α) : Commutes forget (pure value) := fun _ => ⟨rfl, rfl⟩

/-- Two actions in a row do not depend on what neither of them depends on. -/
theorem CommutesAt.bind {first : Action σ α} {next : α → Action σ β} {state : σ} (hfirst : CommutesAt forget first state)
    (hnext : ∀ value, CommutesAt forget (next value) (first.after state)) : CommutesAt forget (first >>= next) state := by
  obtain ⟨hresult, hafter⟩ := hfirst
  cases hends : first.result state with
  | error cause =>
    have hends' := hresult.symm.trans hends
    refine ⟨?_, ?_⟩
    · rw [result_bind, result_bind, hends, hends']
      rfl
    · rw [after_bind_of_error hends, after_bind_of_error hends', hafter]
  | ok value =>
    have hends' := hresult.symm.trans hends
    obtain ⟨hresult', hafter'⟩ := hnext value
    refine ⟨?_, ?_⟩
    · rw [result_bind, result_bind, hends, hends', ← hafter]
      exact hresult'
    · rw [after_bind_of_ok hends, after_bind_of_ok hends', hafter', hafter]

/-- A list of actions does not depend on what none of them depends on. -/
theorem commutes_forM {list : List α} {step : α → Action σ Unit} (h : ∀ member, Commutes forget (step member)) :
    Commutes forget (forM list step) := by
  induction list with
  | nil => exact commutes_pure ()
  | cons first rest ih =>
    intro state
    rw [List.forM_cons]
    exact (h first state).bind fun _ => ih _

end Action

namespace Table

/-- The table without its indexes. -/
def unindexed (table : Table) : Table :=
  { table with indexes := [], retired := [] }

@[simp] theorem schema_unindexed (table : Table) : table.unindexed.schema = table.schema := rfl

@[simp] theorem row?_unindexed (table : Table) (offset : Nat) : table.unindexed.row? offset = table.row? offset := rfl

@[simp] theorem offsetsWhere_unindexed (table : Table) (test : Row → Bool) :
    table.unindexed.offsetsWhere test = table.offsetsWhere test := rfl

/-- A sound table is sound without its indexes. -/
theorem Sound.unindexed {table : Table} (h : table.Sound) : table.unindexed.Sound := ⟨nofun, h.marked, h.typed⟩

/-! ## Unchecked changes -/

theorem commutes_appendRow (row : Row) : Action.Commutes unindexed (appendRow row) := by
  intro table
  unfold Action.CommutesAt
  rw [result_appendRow, result_appendRow, after_appendRow, after_appendRow]
  exact ⟨rfl, rfl⟩

theorem commutes_changeValue (offset position : Nat) (value : Value) :
    Action.Commutes unindexed (changeValue offset position value) := by
  intro table
  unfold Action.CommutesAt changeValue
  simp only [Action.result_state_bind, Action.after_state_bind, row?_unindexed, schema_unindexed]
  by_cases hposition : table.schema.size ≤ position
  · simp only [hposition, if_true]
    exact ⟨rfl, rfl⟩
  · simp only [hposition, if_false]
    cases (table.row? offset).bind (·.replace? position value) with
    | none => exact ⟨rfl, rfl⟩
    | some replaced => exact ⟨rfl, rfl⟩

theorem commutes_changeRow (offset : Nat) (changes : List (Nat × Value)) :
    Action.Commutes unindexed (changeRow offset changes) := by
  intro table
  unfold Action.CommutesAt
  rw [result_changeRow, result_changeRow, after_changeRow, after_changeRow, row?_unindexed]
  split
  · exact ⟨rfl, rfl⟩
  · exact Action.commutes_forM (fun change : Nat × Value => commutes_changeValue offset change.1 change.2) table

theorem commutes_retireRow (offset : Nat) : Action.Commutes unindexed (retireRow offset) := by
  intro table
  unfold Action.CommutesAt retireRow
  simp only [Action.result_state_bind, Action.after_state_bind, row?_unindexed]
  cases table.row? offset with
  | none => exact ⟨rfl, rfl⟩
  | some row => exact ⟨rfl, rfl⟩

/-- Creating an index changes nothing but the indexes, whether or not it fails. -/
theorem unindexed_createIndex (name column : String) (table : Table) :
    ((createIndex name column).after table).unindexed = table.unindexed := by
  rcases createIndex_cases name column table with ⟨found, position, -, -, -, hafter⟩ | ⟨-, -, hafter⟩
  · rw [hafter]
    rfl
  · rw [hafter]

/-! ## Checked changes and queries -/

theorem commutes_insert (row : Row) : Action.Commutes unindexed (insert row) := by
  intro table
  unfold Action.CommutesAt
  rw [result_insert, result_insert, after_insert, after_insert]
  rw [schema_unindexed]
  refine ⟨rfl, ?_⟩
  split
  · exact (commutes_appendRow row table).2
  · rfl

section

variable [Pattern.Compiler] {table : Table} (h : table.Sound) (condition : Option Condition)

include h

/-- An update of a sound table ends in the same and changes the same rows without its indexes. -/
theorem commutesAt_update (assignments : List Assignment) :
    Action.CommutesAt unindexed (update assignments condition) table := by
  constructor
  · rw [result_update h, result_update h.unindexed]
    rfl
  · rw [after_update h, after_update h.unindexed, schema_unindexed, offsetsWhere_unindexed]
    cases table.schema.changes assignments condition with
    | error cause => rfl
    | ok changes => exact (Action.commutes_forM (fun offset => commutes_changeRow offset changes) table).2

/-- A deletion from a sound table ends in the same and retires the same rows without its indexes. -/
theorem commutesAt_delete : Action.CommutesAt unindexed (delete condition) table := by
  constructor
  · rw [result_delete h, result_delete h.unindexed]
    rfl
  · rw [after_delete h, after_delete h.unindexed, schema_unindexed, offsetsWhere_unindexed]
    cases table.schema.ready condition with
    | error cause => rfl
    | ok _ => exact (Action.commutes_forM commutes_retireRow table).2

/-- A query of a sound table shows the same rows, in the same order, without its indexes. -/
theorem result_select_unindexed (query : Query) : (table.select query).result = (table.unindexed.select query).result := by
  rw [result_select h, result_select h.unindexed]
  rfl

end

end Table

end SqlEngine
