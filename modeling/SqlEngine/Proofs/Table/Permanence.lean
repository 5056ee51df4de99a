import SqlEngine.Proofs.Table.Resolution
import SqlEngine.Proofs.Table.Upkeep

/-!
# Offsets are permanent

Only a stored row takes a slot, and it takes the next one. Whether an offset is live is then decided by the calls that retire it
alone: whatever else is called on the table, it is live afterwards exactly if it was live before (`isSome_row?_action`). So an
offset is live until it is retired and never again after that (`isSome_row?_mutated`), and nothing that looks for rows, be it
a cursor, an index or a condition, finds an offset that is not live (`allLive_of_resolve`).
-/

namespace SqlEngine

namespace Mutation

/-- The number of slots that a call takes. -/
def slotsTaken : Mutation → Nat
  | append _ => 1
  | change _ _ | retire _ | createIndex _ _ => 0

end Mutation

namespace Table

/-! ## Slots -/

theorem size_changeRow (offset : Nat) (changes : List (Nat × Value)) (table : Table) :
    ((changeRow offset changes).after table).size = table.size := by
  rw [after_changeRow]
  split
  · rfl
  · refine Action.forM_preserves (P := fun between : Table => between.size = table.size) ?_ rfl
    intro change _ between hbetween
    rcases changeValue_cases offset change.1 change.2 between with ⟨row, old, -, -, -, -, hafter⟩ | ⟨-, -, hafter⟩
    · rw [hafter, size, Array.size_setIfInBounds]
      exact hbetween
    · rwa [hafter]

theorem size_retireRow (offset : Nat) (table : Table) : ((retireRow offset).after table).size = table.size := by
  rcases retireRow_cases offset table with ⟨row, -, -, hafter⟩ | ⟨-, -, hafter⟩
  · rw [hafter, size, Array.size_setIfInBounds, size]
  · rw [hafter]

theorem size_createIndex (name column : String) (table : Table) :
    ((createIndex name column).after table).size = table.size := by
  rcases createIndex_cases name column table with ⟨found, position, -, -, -, hafter⟩ | ⟨-, -, hafter⟩
  · rw [hafter]
    rfl
  · rw [hafter]

/-- A call takes the slots that it takes, whether or not it fails. -/
theorem size_action (mutation : Mutation) (table : Table) :
    (mutation.action.after table).size = table.size + mutation.slotsTaken := by
  cases mutation with
  | append row =>
    rw [Mutation.action, Action.after_discard, after_appendRow, size, Array.size_push]
    rfl
  | change offset changes => exact size_changeRow offset changes table
  | retire offset => exact size_retireRow offset table
  | createIndex name column => exact size_createIndex name column table

/-! ## Live offsets -/

/-- Changes of a row leave all other rows alone. -/
theorem row?_changeRow_of_ne (changes : List (Nat × Value)) (table : Table) {offset other : Nat} (hne : other ≠ offset) :
    ((changeRow offset changes).after table).row? other = table.row? other := by
  rw [after_changeRow]
  split
  · rfl
  · refine Action.forM_preserves (P := fun between : Table => between.row? other = table.row? other) ?_ rfl
    intro change _ between hbetween
    rcases changeValue_cases offset change.1 change.2 between with ⟨row, old, -, hrow, -, -, hafter⟩ | ⟨-, -, hafter⟩
    · rwa [hafter, row?_of_set (lt_size_of_row? hrow) rfl, if_neg hne]
    · rwa [hafter]

/-- Changes of a row, whether or not they stop in the middle, leave the same offsets live. -/
theorem isSome_row?_changeRow (offset : Nat) (changes : List (Nat × Value)) (table : Table) (other : Nat) :
    (((changeRow offset changes).after table).row? other).isSome = (table.row? other).isSome := by
  rw [after_changeRow]
  split
  · rfl
  · refine Action.forM_preserves (P := fun between : Table => (between.row? other).isSome = (table.row? other).isSome) ?_ rfl
    intro change _ between hbetween
    rcases changeValue_cases offset change.1 change.2 between with ⟨row, old, -, hrow, -, -, hafter⟩ | ⟨-, -, hafter⟩
    · rw [hafter, row?_of_set (lt_size_of_row? hrow) rfl, ← hbetween]
      split
      next heq => rw [heq, hrow, Option.isSome_some, Option.isSome_some]
      next => rfl
    · rwa [hafter]

/-- Retiring an offset leaves it without a row, whether or not it had one, and leaves all other rows alone. -/
theorem row?_retireRow (offset : Nat) (table : Table) (other : Nat) :
    ((retireRow offset).after table).row? other = if other = offset then none else table.row? other := by
  rcases retireRow_cases offset table with ⟨row, hrow, -, hafter⟩ | ⟨hnone, -, hafter⟩
  · rw [hafter, row?_of_set (lt_size_of_row? hrow) rfl]
  · rw [hafter]
    split
    next heq => rw [heq, hnone]
    next => rfl

/-- An index more leaves all rows alone. -/
theorem row?_createIndex (name column : String) (table : Table) (offset : Nat) :
    ((createIndex name column).after table).row? offset = table.row? offset := by
  rcases createIndex_cases name column table with ⟨found, position, -, -, -, hafter⟩ | ⟨-, -, hafter⟩
  · rw [hafter]
    rfl
  · rw [hafter]

/-- What stands at an offset with a slot is the same after a call that neither changes nor retires it. -/
theorem row?_action_of_ne {mutation : Mutation} {table : Table} {offset : Nat} (hlt : offset < table.size)
    (hchange : ∀ changes, mutation ≠ .change offset changes) (hretire : mutation ≠ .retire offset) :
    (mutation.action.after table).row? offset = table.row? offset := by
  cases mutation with
  | append row => rw [Mutation.action, Action.after_discard, after_appendRow, row?_of_push rfl, if_neg (Nat.ne_of_lt hlt)]
  | change other changes => exact row?_changeRow_of_ne changes table fun heq => hchange changes (heq ▸ rfl)
  | retire other =>
    have hne : offset ≠ other := fun heq => hretire (heq ▸ rfl)
    rw [Mutation.action, row?_retireRow, if_neg hne]
  | createIndex name column => exact row?_createIndex name column table offset

/-- An offset with a slot is live after a call exactly if it was live before, unless the call retires it. -/
theorem isSome_row?_action (mutation : Mutation) {table : Table} {offset : Nat} (hlt : offset < table.size) :
    ((mutation.action.after table).row? offset).isSome =
      ((table.row? offset).isSome && !decide (mutation = .retire offset)) := by
  by_cases hretire : mutation = .retire offset
  · subst hretire
    rw [Mutation.action, row?_retireRow, if_pos rfl, decide_eq_true rfl, Bool.not_true, Bool.and_false, Option.isSome_none]
  · rw [decide_eq_false hretire, Bool.not_false, Bool.and_true]
    by_cases hchange : ∃ changes, mutation = .change offset changes
    · obtain ⟨changes, rfl⟩ := hchange
      exact isSome_row?_changeRow offset changes table offset
    · rw [row?_action_of_ne hlt (fun changes heq => hchange ⟨changes, heq⟩) hretire]

/-- An offset with a slot is live after any calls exactly if it was live before and none of them retires it. -/
theorem isSome_row?_mutated (mutations : List Mutation) : ∀ {table : Table} {offset : Nat}, offset < table.size →
    ((table.mutated mutations).row? offset).isSome = ((table.row? offset).isSome && !decide (.retire offset ∈ mutations)) := by
  induction mutations with
  | nil =>
    intro table offset _
    simp [mutated, Action.afterEach]
  | cons mutation rest ih =>
    intro table offset hlt
    have hlt' : offset < (mutation.action.after table).size := by
      rw [size_action]
      exact Nat.lt_add_right _ hlt
    have hrest := ih hlt'
    rw [isSome_row?_action mutation hlt, Bool.and_assoc] at hrest
    refine hrest.trans ?_
    simp [eq_comm (a := mutation)]

/-! ## What is found -/

/-- All offsets of the set are live. -/
def AllLive (table : Table) (offsets : Offsets) : Prop :=
  ∀ offset ∈ offsets, (table.row? offset).isSome = true

section

variable {table : Table}

/-- The index of a column finds live offsets only. -/
theorem allLive_of_lookup (h : table.Consistent) {column : String} {predicate : Predicate} {found : Offsets}
    (hfound : table.lookup column predicate = .ok (some found)) : table.AllLive found := by
  unfold lookup at hfound
  split at hfound
  next => exact nomatch hfound
  next hlike =>
    split at hfound
    next => exact nomatch hfound
    next entry hentry =>
      split at hfound
      next => exact nomatch hfound
      next htype =>
        obtain ⟨found', hfound', hholds⟩ := lookup_eq_ok h hentry hlike (not_not.mp htype)
        have hsame : table.lookup column predicate = .ok (some found) := by
          simpa only [lookup, if_neg hlike, hentry, if_neg htype] using hfound
        obtain rfl := Option.some.inj (Except.ok.inj (hsame.symm.trans hfound'))
        intro offset hoffset
        obtain ⟨_, ⟨row, hrow, -⟩, -⟩ := (hholds offset).mp hoffset
        rw [hrow, Option.isSome_some]

/-- A scan finds live offsets only. -/
theorem allLive_of_scan (h : table.Marked) {test : Row → Bool} {found : Offsets} (hfound : table.scan test = .ok found) :
    table.AllLive found := by
  rw [scan_eq h] at hfound
  obtain rfl := Except.ok.inj hfound
  exact live_of_mem_offsetsWhere table test

variable [Pattern.Compiler] (hconsistent : table.Consistent) (hmarked : table.Marked)

include hconsistent hmarked

/-- A predicate is resolved to live offsets only, through an index or by a scan, and whether or not it suits the schema. -/
theorem allLive_of_resolvePredicate {predicate : Predicate} {found : Offsets}
    (hfound : (table.resolvePredicate predicate).result = .ok found) : table.AllLive found := by
  unfold resolvePredicate at hfound
  rw [Outcome.result_bind, Outcome.result_liftM] at hfound
  obtain ⟨answer, hanswer, hrest⟩ := ExceptAux.bind_eq_ok_iff.mp hfound
  cases answer with
  | some found' =>
    obtain rfl : found' = found := Except.ok.inj hrest
    exact allLive_of_lookup hconsistent hanswer
  | none =>
    change table.scanPredicate predicate = .ok found at hrest
    unfold scanPredicate at hrest
    obtain ⟨_, -, hrest⟩ := ExceptAux.bind_eq_ok_iff.mp hrest
    obtain ⟨_, -, hscan⟩ := ExceptAux.bind_eq_ok_iff.mp hrest
    exact allLive_of_scan hmarked hscan

omit hconsistent hmarked in
/-- Narrowing a set leaves offsets of the set only. -/
theorem allLive_of_narrow (clauses : List Condition) : ∀ {found narrowed : Offsets}, table.AllLive found →
    (table.narrow found clauses).result = .ok narrowed → table.AllLive narrowed := by
  induction clauses with
  | nil =>
    intro found narrowed hlive hnarrowed
    rw [narrow] at hnarrowed
    obtain rfl : found = narrowed := Except.ok.inj hnarrowed
    exact hlive
  | cons clause rest ih =>
    intro found narrowed hlive hnarrowed
    rw [narrow, Outcome.result_bind] at hnarrowed
    obtain ⟨others, -, hrest⟩ := ExceptAux.bind_eq_ok_iff.mp hnarrowed
    refine ih (fun offset hoffset => ?_) hrest
    exact hlive offset (Offsets.mem_inter.mp hoffset).1

omit hconsistent hmarked in
/-- Widening a set by conditions adds what they are resolved to. -/
theorem allLive_of_widen (clauses : List Condition)
    (h : ∀ clause ∈ clauses, ∀ others, (table.resolveCondition clause).result = .ok others → table.AllLive others) :
    ∀ {found widened : Offsets}, table.AllLive found → (table.widen found clauses).result = .ok widened →
      table.AllLive widened := by
  induction clauses with
  | nil =>
    intro found widened hlive hwidened
    rw [widen] at hwidened
    obtain rfl : found = widened := Except.ok.inj hwidened
    exact hlive
  | cons clause rest ih =>
    intro found widened hlive hwidened
    obtain ⟨hclause, hothers⟩ := List.forall_mem_cons.mp h
    rw [widen, Outcome.result_bind] at hwidened
    obtain ⟨others, hresolved, hrest⟩ := ExceptAux.bind_eq_ok_iff.mp hwidened
    refine ih hothers (fun offset hoffset => ?_) hrest
    rcases Offsets.mem_union.mp hoffset with hfound | hother
    · exact hlive offset hfound
    · exact hclause others hresolved offset hother

theorem allLive_of_resolveCondition {condition : Condition} :
    ∀ {found : Offsets}, (table.resolveCondition condition).result = .ok found → table.AllLive found := by
  induction condition with
  | node own ands ors _ ihors =>
    intro found hfound
    rw [resolveCondition, Outcome.result_bind] at hfound
    obtain ⟨offsets, hown, hrest⟩ := ExceptAux.bind_eq_ok_iff.mp hfound
    rw [Outcome.result_bind] at hrest
    obtain ⟨narrowed, hnarrow, hwiden⟩ := ExceptAux.bind_eq_ok_iff.mp hrest
    have hnarrowed := allLive_of_narrow ands (allLive_of_resolvePredicate hconsistent hmarked hown) hnarrow
    exact allLive_of_widen ors (fun clause hclause others => ihors clause hclause) hnarrowed hwiden

/-- A condition is resolved to live offsets only, whether or not it suits the schema. -/
theorem allLive_of_resolve {condition : Option Condition} {found : Offsets}
    (hfound : (table.resolve condition).result = .ok found) : table.AllLive found := by
  cases condition with
  | none => exact allLive_of_scan hmarked hfound
  | some condition => exact allLive_of_resolveCondition hconsistent hmarked hfound

end

/-! ## After any calls -/

/-- Whatever is called on a table, exactly its empty slots are marked. -/
theorem marked_mutated {table : Table} (h : table.Marked) (mutations : List Mutation) : (table.mutated mutations).Marked := by
  refine Action.afterEach_preserves (P := Marked) ?_ mutations h
  intro mutation between hbetween
  cases mutation with
  | append row => exact marked_appendRow hbetween row
  | change offset changes => exact marked_changeRow hbetween offset changes
  | retire offset => exact marked_retireRow hbetween offset
  | createIndex name column => exact marked_createIndex hbetween name column

/-- A call that retires a live offset succeeds. -/
theorem result_retireRow_of_live {table : Table} {offset : Nat} (hlive : (table.row? offset).isSome = true) :
    (retireRow offset).result table = .ok () := by
  rcases retireRow_cases offset table with ⟨_, -, hresult, -⟩ | ⟨hnone, -, -⟩
  · exact hresult
  · rw [hnone] at hlive
    exact nomatch hlive

/-- A live offset is live after any calls, unless one of them retired it. -/
theorem live_or_retired {table : Table} {offset : Nat} (hlive : (table.row? offset).isSome = true) (mutations : List Mutation) :
    ((table.mutated mutations).row? offset).isSome = true ∨ ∃ done rest, mutations = done ++ .retire offset :: rest ∧
      (retireRow offset).result (table.mutated done) = .ok () := by
  obtain ⟨row, hrow⟩ := Option.isSome_iff_exists.mp hlive
  have hlt := lt_size_of_row? hrow
  by_cases hmem : .retire offset ∈ mutations
  · obtain ⟨done, rest, heq, hfirst⟩ := List.eq_append_cons_of_mem hmem
    refine Or.inr ⟨done, rest, heq, result_retireRow_of_live ?_⟩
    rw [isSome_row?_mutated done hlt, hlive, decide_eq_false hfirst]
    rfl
  · left
    rw [isSome_row?_mutated mutations hlt, hlive, decide_eq_false hmem]
    rfl

/-- The cursor hands out exactly the live offsets. -/
theorem mem_rest_cursor {table : Table} (h : table.Marked) {offset : Nat} :
    offset ∈ table.cursor.rest ↔ (table.row? offset).isSome = true := by
  rw [rest_cursor h, List.mem_filter, List.mem_range, and_iff_right_iff_imp]
  intro hlive
  obtain ⟨row, hrow⟩ := Option.isSome_iff_exists.mp hlive
  exact lt_size_of_row? hrow

variable [Pattern.Compiler]

/-- Nothing stands at the offset: it can be neither changed nor retired, since both find the table inconsistent with that
(`rowDeleted` is of this kind), and no cursor, no index and no condition finds it. -/
structure Gone (table : Table) (offset : Nat) : Prop where
  row : table.row? offset = none
  change : ∀ changes, (changeRow offset changes).result table = .error (.rowDeleted offset)
  retire : (retireRow offset).result table = .error (.rowDeleted offset)
  cursor : offset ∉ table.cursor.rest
  lookup : ∀ column predicate found, table.lookup column predicate = .ok (some found) → offset ∉ found
  resolve : ∀ condition found, (table.resolve condition).result = .ok found → offset ∉ found

/-- On a table whose indexes and marks are in step, an offset without a row is gone. -/
theorem gone_of_row?_eq_none {table : Table} (hconsistent : table.Consistent) (hmarked : table.Marked) {offset : Nat}
    (hnone : table.row? offset = none) : table.Gone offset := by
  have hdead : ¬(table.row? offset).isSome = true := by
    rw [hnone]
    exact Bool.false_ne_true
  refine ⟨hnone, fun changes => ?_, ?_, fun hmem => hdead ((mem_rest_cursor hmarked).mp hmem), ?_, ?_⟩
  · rw [result_changeRow, hnone, Option.isNone_none, if_pos rfl]
  · rcases retireRow_cases offset table with ⟨_, hrow, -, -⟩ | ⟨-, hresult, -⟩
    · exact nomatch hnone.symm.trans hrow
    · exact hresult
  · exact fun column predicate found hfound hmem => hdead (allLive_of_lookup hconsistent hfound offset hmem)
  · exact fun condition found hfound hmem => hdead (allLive_of_resolve hconsistent hmarked hfound offset hmem)

/-- At every point of any run of calls, failing ones included, a stored row gets the next offset and one slot, and no other call
takes a slot. What stands at an offset is the same after a call that is not about it, and a live offset is live until a call
retires it; from then on it is gone. The cursor hands out exactly the live offsets, in ascending order, and their number is the
count of live rows. -/
theorem offsets_permanent (name : String) (schema : Schema) (before : List Mutation) :
    let table := (empty name schema).mutated before
    (∀ row, (appendRow row).result table = .ok table.size ∧ ((appendRow row).after table).size = table.size + 1) ∧
    (∀ mutation : Mutation, (∀ row, mutation ≠ .append row) → (mutation.action.after table).size = table.size) ∧
    (∀ (mutation : Mutation) (offset : Nat), offset < table.size → (∀ changes, mutation ≠ .change offset changes) →
      mutation ≠ .retire offset → (mutation.action.after table).row? offset = table.row? offset) ∧
    (∀ offset, (table.row? offset).isSome = true → ∀ later, ((table.mutated later).row? offset).isSome = true ∨
      ∃ done rest, later = done ++ .retire offset :: rest ∧ (retireRow offset).result (table.mutated done) = .ok ()) ∧
    (∀ offset, (retireRow offset).result table = .ok () → ∀ later,
      (((retireRow offset).after table).mutated later).Gone offset) ∧
    (∀ offset, offset ∈ table.cursor.rest ↔ (table.row? offset).isSome = true) ∧
    table.cursor.rest.Pairwise (· < ·) ∧ table.liveCount = table.cursor.rest.length := by
  intro table
  have hconsistent : table.Consistent := consistent_mutated (consistent_empty name schema) before
  have hmarked : table.Marked := marked_mutated (marked_empty name schema) before
  refine ⟨fun row => ⟨rfl, size_action (.append row) table⟩, ?_, fun mutation offset => row?_action_of_ne,
    fun offset hlive later => live_or_retired hlive later, ?_, fun offset => mem_rest_cursor hmarked, ?_,
    liveCount_eq_length hmarked⟩
  · intro mutation hmutation
    rw [size_action]
    cases mutation with
    | append row => exact absurd rfl (hmutation row)
    | _ => rfl
  · intro offset hretired later
    refine gone_of_row?_eq_none (consistent_mutated (consistent_retireRow hconsistent offset) later)
      (marked_mutated (marked_retireRow hmarked offset) later) ?_
    have hlt : offset < ((retireRow offset).after table).size := by
      rw [size_retireRow]
      rcases retireRow_cases offset table with ⟨row, hrow, -, -⟩ | ⟨-, hresult, -⟩
      · exact lt_size_of_row? hrow
      · exact nomatch hretired.symm.trans hresult
    rw [← Option.not_isSome_iff_eq_none, isSome_row?_mutated later hlt, row?_retireRow, if_pos rfl]
    exact Bool.false_ne_true
  · rw [rest_cursor hmarked]
    exact List.pairwise_lt_range.filter _

end Table

end SqlEngine
