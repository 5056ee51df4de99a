import Mathlib
import SqlEngine.Proofs.Table.Consistency

/-!
# Indexes after any calls

A `Mutation` is one of the four calls that change a table without checking anything against its schema, and `Table.mutated`
is the table after a list of them, each of which is made whether or not those before it failed. Whatever the calls were,
every index that is kept files what the live rows hold (`index_files_live_rows`).
-/

namespace SqlEngine

/-- A call that changes a table without checking it against the schema. -/
inductive Mutation where
  | append (row : Row)
  | change (offset : Nat) (changes : List (Nat × Value))
  | retire (offset : Nat)
  | createIndex (name column : String)
  deriving DecidableEq, Repr

/-- What a call does. -/
def Mutation.action : Mutation → Action Table Unit
  | append row => discard (Table.appendRow row)
  | change offset changes => Table.changeRow offset changes
  | retire offset => Table.retireRow offset
  | createIndex name column => Table.createIndex name column

/-- The table after a list of calls; a call that fails does not stop those after it. -/
def Table.mutated (table : Table) (mutations : List Mutation) : Table :=
  Action.afterEach Mutation.action mutations table

/-- No call changes the name or the schema of the table. -/
theorem Table.sameHeading_mutated (table : Table) (mutations : List Mutation) :
    table.SameHeading (table.mutated mutations) := by
  refine Action.afterEach_preserves ?_ mutations (SameHeading.refl table)
  intro mutation between hbetween
  refine hbetween.trans ?_
  cases mutation with
  | append row => exact sameHeading_appendRow row between
  | change offset changes => exact sameHeading_changeRow offset changes between
  | retire offset => exact sameHeading_retireRow offset between
  | createIndex name column => exact sameHeading_createIndex name column between

namespace Table

/-- Whatever is called on a table, its indexes stay in step with its rows. -/
theorem consistent_mutated {table : Table} (h : table.Consistent) (mutations : List Mutation) :
    (table.mutated mutations).Consistent := by
  refine Action.afterEach_preserves ?_ mutations h
  intro mutation between hbetween
  cases mutation with
  | append row => exact consistent_appendRow hbetween row
  | change offset changes => exact consistent_changeRow hbetween offset changes
  | retire offset => exact consistent_retireRow hbetween offset
  | createIndex name column => exact consistent_createIndex hbetween name column

/-- After any calls, with whatever arguments and whether or not they failed, the index kept on a column files exactly the
values that the live rows hold there, each in order and none without offsets; and it answers every operator but the wildcard
match, for a literal of the column's type, with the live offsets whose value meets the predicate in the total order of
values. -/
theorem index_files_live_rows (name : String) (schema : Schema) (mutations : List Mutation) (column : String)
    (entry : NamedIndex) (hentry : ((empty name schema).mutated mutations).indexOn? column = some entry) :
    ∃ type, schema.find? column = some (⟨column, type⟩, entry.position) ∧ entry.index.Sound ∧
      (∀ value offset, entry.index.Files value offset ↔
        ((empty name schema).mutated mutations).HoldsAt entry.position offset value) ∧
      ∀ predicate : Predicate, predicate.operator ≠ .like → predicate.value.dataType = type →
        ∃ found, ((empty name schema).mutated mutations).lookup column predicate = .ok (some found) ∧
          ∀ offset, offset ∈ found ↔
            ∃ value, ((empty name schema).mutated mutations).HoldsAt entry.position offset value ∧
              predicate.operator.accepts (compare value predicate.value) = true := by
  have hconsistent := consistent_mutated (consistent_empty name schema) mutations
  have hschema : ((empty name schema).mutated mutations).schema = schema :=
    (sameHeading_mutated (empty name schema) mutations).2
  obtain ⟨hmem, hcolumn⟩ := of_indexOn? hentry
  have hstep := hconsistent entry hmem
  refine ⟨entry.index.type, ?_, hstep.sound, hstep.files, ?_⟩
  · have hstands := hstep.column
    rw [hschema, hcolumn] at hstands
    exact Schema.find?_eq_some_iff.mpr ⟨hstands, rfl⟩
  · intro predicate hlike htype
    exact lookup_eq_ok hconsistent hentry hlike htype

/-- A row of a table of an integer and a text that is changed twice in one call which then fails, next to a row that is too
short and is retired, one whose integer is a text, and an index that another one took the place of. -/
def strayCalls : List Mutation :=
  [.append [.int 5, .text "a"], .append [.int 7], .createIndex "first" "n",
    .change 0 [(0, .int 7), (0, .int 9), (2, .int 1)], .retire 1, .createIndex "second" "n", .append [.text "x"]]

/-- The columns of the table of those calls. -/
def straySchema : Schema := ⟨[⟨"n", .int⟩, ⟨"s", .text⟩], by decide, by decide⟩

/-- After those calls the second index finds the changed row under its last value, and no other row. -/
theorem index_files_live_rows_strayCalls :
    ∃ entry, ((empty "t" straySchema).mutated strayCalls).indexOn? "n" = some entry ∧
      entry.name = "second" ∧ entry.index.Files (.int 9) 0 ∧ ¬entry.index.Files (.int 7) 1 ∧
      entry.index.Files (.text "x") 2 := by
  have hnamed : (((empty "t" straySchema).mutated strayCalls).indexOn? "n").map (fun entry => (entry.name, entry.position)) =
      some ("second", 0) := by cbv
  obtain ⟨entry, hentry, hname⟩ := Option.map_eq_some_iff.mp hnamed
  obtain ⟨hname, hposition⟩ := Prod.mk.inj hname
  obtain ⟨type, -, -, hfiles, -⟩ := index_files_live_rows _ _ _ _ entry hentry
  rw [hposition] at hfiles
  refine ⟨entry, hentry, hname, (hfiles _ _).mpr ⟨[.int 9, .text "a"], by cbv, rfl⟩, ?_,
    (hfiles _ _).mpr ⟨[.text "x"], by cbv, rfl⟩⟩
  intro hgone
  obtain ⟨row, hrow, -⟩ := (hfiles _ _).mp hgone
  have hnone : ((empty "t" straySchema).mutated strayCalls).row? 1 = none := by cbv
  rw [hnone] at hrow
  cases hrow

end Table

end SqlEngine
