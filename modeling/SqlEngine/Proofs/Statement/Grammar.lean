import SqlEngine.Proofs.Condition.Grammar
import SqlEngine.Statement.Reader

/-!
# The grammar of statements

`Statement.Written` says which tokens stand for which statement: one form for each kind of statement, with lists of at least one
item between commas, and with clauses that may be missing in a fixed order. Tokens that stand for a statement are read as the
statement (`read_of_written`), wherever the list goes on with a token that cannot make a clause longer or begin another one.
-/

namespace SqlEngine

open Reader

/-! ## Parts -/

/-- The tokens of the definition of a column. -/
def Column.tokens (column : Column) : List Token :=
  [.ident column.name, .dataType column.type]

/-- The tokens of an assignment. -/
def Assignment.tokens (assignment : Assignment) : List Token :=
  [.ident assignment.column, .symbol .equal, assignment.value.token]

/-- The tokens of what a query shows. -/
def Projection.tokens : Projection → List Token
  | .all => [.symbol .star]
  | .columns names => commaTokens (fun name => [.ident name]) names

/-- The token of a direction. -/
def Direction.token : Direction → Token
  | .ascending => .keyword .asc
  | .descending => .keyword .desc

/-- The tokens of the column to sort on, behind the keyword that announces it. -/
def SortKey.tokens (key : SortKey) : List Token :=
  [.keyword .by, .ident key.column, key.direction.token]

/-- Behind the keyword that announces it, the tokens stand for the column to sort on; a direction that is not given is
ascending. -/
inductive SortKey.Written : List Token → SortKey → Prop where
  | unmarked (column : String) : Written [.keyword .by, .ident column] ⟨column, .ascending⟩
  | marked (key : SortKey) : Written key.tokens key

namespace Statement

/-- The tokens stand for the condition of a statement, if it has one. -/
abbrev WhereWritten : List Token → Option Condition → Prop :=
  Clause .where (Condition.Written .disjunction)

/-- The tokens stand for the statement. -/
inductive Written : List Token → Statement → Prop where
  | createTable (name : String) {columns : List Column} (hcolumns : columns ≠ []) :
      Written ([.keyword .create, .keyword .table, .ident name, .symbol .leftParen] ++
        (commaTokens Column.tokens columns ++ [.symbol .rightParen])) (.createTable name columns)
  | createIndex (name table column : String) :
      Written [.keyword .create, .keyword .index, .ident name, .keyword .on, .ident table, .symbol .leftParen, .ident column,
        .symbol .rightParen] (.createIndex name table column)
  | dropTable (name : String) : Written [.keyword .drop, .keyword .table, .ident name] (.dropTable name)
  | insert (table : String) {row : Row} (hrow : row ≠ []) :
      Written ([.keyword .insert, .keyword .into, .ident table, .keyword .values, .symbol .leftParen] ++
        (commaTokens (fun value => [value.token]) row ++ [.symbol .rightParen])) (.insert table row)
  | select (query : Query) (hprojection : query.projection ≠ .columns []) {condition sort : List Token}
      (hcondition : WhereWritten condition query.condition) (hsort : Clause .order SortKey.Written sort query.sort) :
      Written (.keyword .select :: (query.projection.tokens ++ .keyword .from :: .ident query.table :: (condition ++ (sort ++
        (optionalTokens .limit (fun n => [.number n]) query.limit ++
          optionalTokens .offset (fun n => [.number n]) query.offset))))) (.select query)
  | update (table : String) {assignments : List Assignment} (hassignments : assignments ≠ []) {tokens : List Token}
      {condition : Option Condition} (hcondition : WhereWritten tokens condition) :
      Written ([.keyword .update, .ident table, .keyword .set] ++ (commaTokens Assignment.tokens assignments ++ tokens))
        (.update table assignments condition)
  | delete (table : String) {tokens : List Token} {condition : Option Condition} (hcondition : WhereWritten tokens condition) :
      Written ([.keyword .delete, .keyword .from, .ident table] ++ tokens) (.delete table condition)
  | showTables : Written [.keyword .show, .keyword .tables] .showTables
  | showIndex (table : String) : Written [.keyword .show, .keyword .index, .keyword .from, .ident table] (.showIndex table)

/-- The tokens that could make a clause at the end of a statement longer, or begin another one. -/
def continuations : List Token :=
  [.symbol .comma, .keyword .and, .keyword .or, .keyword .where, .keyword .order, .keyword .limit, .keyword .offset, .keyword .asc,
    .keyword .desc]

/-! ## Reading parts -/

section

variable {rest : List Token}

theorem run_columns {columns : List Column} (hne : columns ≠ []) (hrest : GoesOn [.symbol .comma] rest) :
    (commaList columnReader).run (commaTokens Column.tokens columns ++ rest) = .ok (columns, rest) := by
  refine run_commaList hne (fun column _ rest hrest => ?_) hrest
  simp [columnReader, Column.tokens, hrest]

theorem run_assignments {assignments : List Assignment} (hne : assignments ≠ []) (hrest : GoesOn [.symbol .comma] rest) :
    (commaList assignmentReader).run (commaTokens Assignment.tokens assignments ++ rest) = .ok (assignments, rest) := by
  refine run_commaList hne (fun assignment _ rest hrest => ?_) hrest
  simp [assignmentReader, Assignment.tokens, hrest]

theorem run_literals {row : List Value} (hne : row ≠ []) (hrest : GoesOn [.symbol .comma] rest) :
    (commaList literal).run (commaTokens (fun value => [value.token]) row ++ rest) = .ok (row, rest) :=
  run_commaList hne (fun value _ _ hrest => run_literal hrest value) hrest

theorem run_identifiers {names : List String} (hne : names ≠ []) (hrest : GoesOn [.symbol .comma] rest) :
    (commaList identifier).run (commaTokens (fun name => [.ident name]) names ++ rest) = .ok (names, rest) :=
  run_commaList hne (fun name _ _ hrest => run_identifier hrest name) hrest

theorem run_where {tokens : List Token} {condition : Option Condition} (h : WhereWritten tokens condition)
    (hrest : GoesOn [.keyword .where, .keyword .and, .keyword .or] rest) :
    whereReader.run (tokens ++ rest) = .ok (condition, rest) :=
  run_optional h (fun _ _ hwritten => Condition.read_of_written hwritten (hrest.mono (by simp))) (hrest.mono (by simp))

theorem run_sortKey {tokens : List Token} {key : SortKey} (h : SortKey.Written tokens key)
    (hrest : GoesOn [.keyword .asc, .keyword .desc] rest) : sortKeyReader.run (tokens ++ rest) = .ok (key, rest) := by
  cases h with
  | unmarked column =>
    have hdesc : GoesOn [.keyword .desc] rest := hrest.mono (by simp)
    have hasc : GoesOn [.keyword .asc] rest := hrest.mono (by simp)
    simp [sortKeyReader, run_eatKeyword_of_goesOn hdesc, run_eatKeyword_of_goesOn hasc, hrest.ne_nil]
  | marked =>
    obtain ⟨column, direction⟩ := key
    cases direction with
    | ascending =>
      have hdesc : GoesOn [.keyword .desc] (.keyword .asc :: rest) := by simp
      simp [sortKeyReader, SortKey.tokens, Direction.token, run_eatKeyword_of_goesOn hdesc, hrest.ne_nil]
    | descending => simp [sortKeyReader, SortKey.tokens, Direction.token, hrest.ne_nil]

theorem run_sort {tokens : List Token} {key : Option SortKey} (h : Clause .order SortKey.Written tokens key)
    (hrest : GoesOn [.keyword .order, .keyword .asc, .keyword .desc] rest) :
    (optional .order sortKeyReader).run (tokens ++ rest) = .ok (key, rest) :=
  run_optional h (fun _ _ hwritten => run_sortKey hwritten (hrest.mono (by simp))) (hrest.mono (by simp))

/-- The tokens of a clause with a number are a clause. -/
theorem clause_number (word : Keyword) (amount : Option Int64) :
    Clause word (fun tokens n => tokens = [.number n]) (optionalTokens word (fun n => [.number n]) amount) amount := by
  cases amount with
  | none => exact .absent
  | some n => exact .present rfl

theorem run_amount {word : Keyword} {amount : Option Int64} (hrest : GoesOn [.keyword word] rest) :
    (optional word number).run (optionalTokens word (fun n => [.number n]) amount ++ rest) = .ok (amount, rest) := by
  refine run_optional (clause_number word amount) ?_ hrest
  rintro _ n rfl
  exact run_number hrest.ne_nil n

theorem run_projection {projection : Projection} (hne : projection ≠ .columns []) (hrest : GoesOn [.symbol .comma] rest) :
    projectionReader.run (projection.tokens ++ rest) = .ok (projection, rest) := by
  cases projection with
  | all => simp [projectionReader, Projection.tokens, hrest.ne_nil]
  | columns names =>
    obtain ⟨first, others, rfl⟩ := List.exists_cons_of_ne_nil (fun h : names = [] => hne (congrArg _ h))
    have hstar : GoesOn [.symbol .star] (commaTokens (fun name => [.ident name]) (first :: others) ++ rest) := by
      simp [commaTokens]
    rw [projectionReader, Projection.tokens, run_bind_of_ok (run_eat_of_goesOn hstar)]
    exact run_bind_of_ok (run_identifiers (List.cons_ne_nil first others) hrest)

end

/-! ## Reading statements -/

/-- The clauses of a query are told apart by their keywords. -/
theorem run_select (query : Query) (hprojection : query.projection ≠ .columns []) {condition sort : List Token}
    (hcondition : WhereWritten condition query.condition) (hsort : Clause .order SortKey.Written sort query.sort)
    {rest : List Token} (hrest : GoesOn continuations rest) :
    selectReader.run (.keyword .select :: (query.projection.tokens ++ .keyword .from :: .ident query.table :: (condition ++
      (sort ++ (optionalTokens .limit (fun n => [.number n]) query.limit ++
        (optionalTokens .offset (fun n => [.number n]) query.offset ++ rest)))))) = .ok (.select query, rest) := by
  obtain ⟨table, projection, given, key, limit, offset⟩ := query
  have hnumber : ∀ word amount, Clause word (fun tokens n => tokens = [Token.number n])
      (optionalTokens word (fun n => [.number n]) amount) amount := clause_number
  have hoffset : GoesOn [.keyword .offset] rest := hrest.mono (by simp [continuations])
  have hlimit : GoesOn [.keyword .limit] (optionalTokens .offset (fun n => [.number n]) offset ++ rest) :=
    (hrest.mono (by simp [continuations])).clause (by simp) (hnumber _ _)
  have horder : GoesOn [.keyword .order, .keyword .asc, .keyword .desc] (optionalTokens .limit (fun n => [.number n]) limit ++
      (optionalTokens .offset (fun n => [.number n]) offset ++ rest)) :=
    ((hrest.mono (by simp [continuations])).clause (by simp) (hnumber _ _)).clause (by simp) (hnumber _ _)
  have hwhere : GoesOn [.keyword .where, .keyword .and, .keyword .or] (sort ++
      (optionalTokens .limit (fun n => [.number n]) limit ++
        (optionalTokens .offset (fun n => [.number n]) offset ++ rest))) :=
    (((hrest.mono (by simp [continuations])).clause (by simp) (hnumber _ _)).clause (by simp) (hnumber _ _)).clause (by simp)
      hsort
  have hfrom : ∀ later, GoesOn [.symbol .comma] (.keyword .from :: later) := by simp
  simp [selectReader, run_projection hprojection (hfrom _), run_where hcondition hwhere, run_sort hsort horder,
    run_amount hlimit, run_amount hoffset, hrest.ne_nil]

/-- Tokens that stand for a statement are read as the statement where the list goes on with something else. -/
theorem read_of_written {tokens : List Token} {statement : Statement} (h : Written tokens statement) {rest : List Token}
    (hrest : GoesOn continuations rest) : reader.run (tokens ++ rest) = .ok (statement, rest) := by
  have hparen : ∀ later, GoesOn [.symbol .comma] (.symbol .rightParen :: later) := by simp
  have hwhere : GoesOn [.keyword .where, .keyword .and, .keyword .or] rest := hrest.mono (by simp [continuations])
  cases h with
  | createTable name hcolumns =>
    simp [reader, createReader, createTableReader, run_columns hcolumns (hparen _), hrest.ne_nil]
  | createIndex name table column => simp [reader, createReader, createIndexReader, hrest.ne_nil]
  | dropTable name => simp [reader, dropReader, hrest.ne_nil]
  | insert table hrow => simp [reader, insertReader, run_literals hrow (hparen _), hrest.ne_nil]
  | select query hprojection hcondition hsort =>
    simpa [reader] using run_select query hprojection hcondition hsort hrest
  | update table hassignments hcondition =>
    have hlist := (hrest.mono (show [Token.symbol .comma] ⊆ _ by simp [continuations])).clause (by simp) hcondition
    simp [reader, updateReader, run_assignments hassignments hlist, run_where hcondition hwhere, hrest.ne_nil]
  | delete table hcondition => simp [reader, deleteReader, run_where hcondition hwhere, hrest.ne_nil]
  | showTables => simp [reader, showReader, hrest.ne_nil]
  | showIndex table => simp [reader, showReader, hrest.ne_nil]

end Statement

end SqlEngine
