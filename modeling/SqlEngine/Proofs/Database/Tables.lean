import SqlEngine.Database
import SqlEngine.Proofs.Table.Checked

/-!
# The tables of a database

What is found under a name after a table has been put in place or taken away (`table?_put`, `table?_erase`), and what acting
on one table of a database ends in and leaves. Every statement leaves a database of sound tables if it is run on one,
whether or not it fails (`sound_run`).
-/

namespace SqlEngine

namespace Database

/-! ## Finding tables -/

/-- A database is its tables. -/
theorem ext {database database' : Database} (h : database.tables = database'.tables) : database = database' := by
  obtain ⟨tables, hascending⟩ := database
  obtain ⟨tables', hascending'⟩ := database'
  obtain rfl : tables = tables' := h
  rfl

/-- What is found under a name is a table of the database, and of that name. -/
theorem of_table? {database : Database} {name : String} {table : Table} (h : database.table? name = some table) :
    table ∈ database.tables ∧ table.name = name := by
  rw [table?] at h
  have hname := List.find?_some h
  exact ⟨List.mem_of_find?_eq_some h, beq_iff_eq.mp hname⟩

/-- A table put into a list takes the place of its namesake or stands next to the others. -/
theorem mem_insertInto {table other : Table} {tables : List Table} (h : other ∈ insertInto table tables) :
    other = table ∨ other ∈ tables := by
  induction tables with
  | nil => exact Or.inl (List.mem_singleton.mp h)
  | cons first rest ih =>
    unfold insertInto at h
    split at h
    · exact List.mem_cons.mp h
    · split at h
      · rcases List.mem_cons.mp h with heq | hrest
        · exact Or.inl heq
        · exact Or.inr (List.mem_cons_of_mem _ hrest)
      · rcases List.mem_cons.mp h with rfl | hrest
        · exact Or.inr List.mem_cons_self
        · exact (ih hrest).imp_right (List.mem_cons_of_mem _)

/-- A table of a database put into it again changes nothing. -/
theorem insertInto_of_mem {table : Table} {tables : List Table} (h : (tables.map Table.name).Pairwise (· < ·))
    (hmem : table ∈ tables) : insertInto table tables = tables := by
  induction tables with
  | nil => exact nomatch hmem
  | cons first rest ih =>
    rw [List.map_cons, List.pairwise_cons] at h
    rcases List.mem_cons.mp hmem with rfl | hrest
    · rw [insertInto, if_neg (String.lt_irrefl _), if_pos rfl]
    · have hlt : first.name < table.name := h.1 _ (List.mem_map_of_mem hrest)
      rw [insertInto, if_neg (String.lt_asymm hlt), if_neg fun heq => String.lt_irrefl _ (heq ▸ hlt), ih h.2 hrest]

/-- The table of a name put in place again changes nothing. -/
theorem put_of_table? {database : Database} {name : String} {table : Table} (h : database.table? name = some table) :
    database.put table = database :=
  ext (insertInto_of_mem database.ascending (of_table? h).1)

theorem find?_insertInto (table : Table) (tables : List Table) (name : String) :
    (insertInto table tables).find? (fun other => other.name == name) =
      if name = table.name then some table else tables.find? (fun other => other.name == name) := by
  by_cases hname : name = table.name
  · subst hname
    rw [if_pos rfl]
    induction tables with
    | nil => simp [insertInto]
    | cons first rest ih =>
      unfold insertInto
      split
      · simp
      · split
        · simp
        next hne => simp [ih, Ne.symm hne]
  · rw [if_neg hname]
    induction tables with
    | nil => simp [insertInto, Ne.symm hname]
    | cons first rest ih =>
      unfold insertInto
      split
      · simp [Ne.symm hname]
      · split
        next heq => simp [← heq, Ne.symm hname]
        next => rw [List.find?_cons, ih, List.find?_cons]

/-- Under the name of a table that is put in place this table is found, and under every other name what was found before. -/
theorem table?_put (database : Database) (table : Table) (name : String) :
    (database.put table).table? name = if name = table.name then some table else database.table? name :=
  find?_insertInto table database.tables name

/-- Under the name of a table that is taken away nothing is found, and under every other name what was found before. -/
theorem table?_erase (database : Database) (name other : String) :
    (database.erase name).table? other = if other = name then none else database.table? other := by
  rw [table?, table?, erase, List.find?_filter]
  split
  next heq => simp [heq]
  next hne =>
    congr 1
    funext table
    by_cases heq : table.name = other
    · simp [heq, hne]
    · simp [heq]

/-- A table of a database is found under its name. -/
theorem table?_of_mem {database : Database} {table : Table} (h : table ∈ database.tables) :
    database.table? table.name = some table := by
  have hsome : (database.table? table.name).isSome := by
    rw [table?, List.find?_isSome]
    exact ⟨table, h, beq_self_eq_true _⟩
  obtain ⟨found, hfound⟩ := Option.isSome_iff_exists.mp hsome
  obtain ⟨hmem, hname⟩ := of_table? hfound
  have hdistinct : (database.tables.map Table.name).Nodup :=
    database.ascending.imp fun hlt => Std.ne_of_lt hlt
  rw [hfound, List.inj_on_of_nodup_map hdistinct hmem h hname]

/-- Two databases with the same tables under all names are the same. -/
theorem ext_table? {database database' : Database} (h : ∀ name, database.table? name = database'.table? name) :
    database = database' := by
  have hmem : ∀ table, table ∈ database.tables ↔ table ∈ database'.tables := by
    intro table
    constructor
    · intro htable
      exact (of_table? ((h _).symm.trans (table?_of_mem htable))).1
    · intro htable
      exact (of_table? ((h _).trans (table?_of_mem htable))).1
  have hirrefl : Std.Irrefl fun table other : Table => table.name < other.name := ⟨fun table => String.lt_irrefl table.name⟩
  have hasymm : Std.Antisymm fun table other : Table => table.name < other.name :=
    ⟨fun table other hlt hgt => absurd hgt (String.lt_asymm hlt)⟩
  exact ext ((List.pairwise_map.mp database.ascending).eq_of_mem_iff (List.pairwise_map.mp database'.ascending) hmem)

/-! ## Acting on a table -/

section

variable {α : Type} {database : Database} {name : String}

/-- What comes of the table of a name; an unknown name is an error. -/
def onFound (database : Database) (name : String) (next : Table → Except Error α) : Except Error α :=
  match database.table? name with
  | none => .error (.tableUnknown name)
  | some table => next table

theorem result_onTable (action : Action Table α) :
    (onTable name action).result database = database.onFound name action.result := by
  dsimp only [onTable, onFound, Action.result, Action.run]
  cases database.table? name <;> rfl

theorem after_onTable (action : Action Table α) : (onTable name action).after database =
    match database.table? name with
    | none => database
    | some table => database.put (action.after table) := by
  dsimp only [onTable, Action.after, Action.run]
  cases database.table? name <;> rfl

theorem result_fromTable (read : Table → Outcome α) :
    (fromTable name read).result database = database.onFound name fun table => (read table).result := by
  dsimp only [fromTable, onFound, Action.result, Action.run]
  cases database.table? name <;> rfl

@[simp] theorem after_fromTable (read : Table → Outcome α) : (fromTable name read).after database = database := by
  dsimp only [fromTable, Action.after, Action.run]
  cases database.table? name <;> rfl

end

/-! ## Creating and dropping tables -/

theorem result_createTable (name : String) (schema : Schema) (database : Database) :
    (createTable name schema).result database =
      if (database.table? name).isSome then .error (.tableExists name) else .ok () := by
  unfold createTable
  rw [Action.result_state_bind]
  split <;> rfl

theorem after_createTable (name : String) (schema : Schema) (database : Database) :
    (createTable name schema).after database =
      if (database.table? name).isSome then database else database.put (.empty name schema) := by
  unfold createTable
  rw [Action.after_state_bind]
  split <;> rfl

theorem result_dropTable (name : String) (database : Database) : (dropTable name).result database =
    if (database.table? name).isSome then .ok () else .error (.tableUnknown name) := by
  unfold dropTable
  rw [Action.result_state_bind]
  split <;> rfl

theorem after_dropTable (name : String) (database : Database) : (dropTable name).after database =
    if (database.table? name).isSome then database.erase name else database := by
  unfold dropTable
  rw [Action.after_state_bind]
  split <;> rfl

/-! ## Soundness -/

/-- All tables of the database are sound. -/
def Sound (database : Database) : Prop := ∀ table ∈ database.tables, table.Sound

theorem sound_empty : empty.Sound := nofun

/-- What is found under a name in a database of sound tables is a sound table. -/
theorem Sound.of_table? {database : Database} (h : database.Sound) {name : String} {table : Table}
    (htable : database.table? name = some table) : table.Sound :=
  h table (Database.of_table? htable).1

section

variable {database : Database} (h : database.Sound)

include h

/-- A sound table put into a database of sound tables leaves one. -/
theorem sound_put {table : Table} (htable : table.Sound) : (database.put table).Sound := by
  intro other hother
  rcases mem_insertInto hother with rfl | hmem
  · exact htable
  · exact h other hmem

theorem sound_erase (name : String) : (database.erase name).Sound := by
  intro table htable
  exact h table (List.mem_filter.mp htable).1

/-- What keeps a table sound, done to one table, keeps all tables sound. -/
theorem sound_onTable {α : Type} (name : String) {action : Action Table α}
    (haction : ∀ table : Table, table.Sound → (action.after table).Sound) : ((onTable name action).after database).Sound := by
  rw [after_onTable]
  split
  · exact h
  next table htable => exact sound_put h (haction table (h.of_table? htable))

/-- Every statement keeps all tables sound, whether or not it fails. -/
theorem sound_run [Pattern.Compiler] (statement : Statement) : ((run statement).after database).Sound := by
  cases statement with
  | createTable name columns =>
    rw [run, Action.after_bind, Action.result_liftExcept, Action.after_liftExcept]
    split
    · exact h
    · rw [Action.after_bind_pure, after_createTable]
      split
      · exact h
      · exact sound_put h (Table.sound_empty name _)
  | dropTable name =>
    rw [run, Action.after_bind_pure, after_dropTable]
    split
    · exact sound_erase h name
    · exact h
  | createIndex name table column =>
    rw [run, Action.after_bind_pure]
    exact sound_onTable h table fun _ htable => Table.sound_createIndex htable name column
  | insert table row =>
    rw [run, Action.after_bind_pure]
    exact sound_onTable h table fun _ htable => Table.sound_insert htable row
  | select query =>
    rw [run, after_fromTable]
    exact h
  | update table assignments condition =>
    rw [run, Action.after_bind_pure]
    exact sound_onTable h table fun _ htable => Table.sound_update htable condition assignments
  | delete table condition =>
    rw [run, Action.after_bind_pure]
    exact sound_onTable h table fun _ htable => Table.sound_delete htable condition
  | showTables => exact h
  | showIndex table =>
    rw [run, after_fromTable]
    exact h

end

/-! ## Runs -/

/-- The database after a list of statements; a statement that fails does not stop those after it. -/
def ran [Pattern.Compiler] (database : Database) (statements : List Statement) : Database :=
  Action.afterEach run statements database

/-- Whatever statements are run on a database of sound tables, its tables stay sound. -/
theorem sound_ran [Pattern.Compiler] {database : Database} (h : database.Sound) (statements : List Statement) :
    (database.ran statements).Sound := by
  refine Action.afterEach_preserves (P := Sound) ?_ statements h
  intro statement between hbetween
  exact sound_run hbetween statement

end Database

end SqlEngine
