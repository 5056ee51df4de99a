import SqlEngine.Proofs.Condition.Printing
import SqlEngine.Proofs.Statement.Grammar

/-!
# Printing statements

A statement is printed clause by clause in the order of the grammar, with an explicit direction behind a column to sort on. What
is printed stands for the statement (`written_tokens`). So a printed statement is read from its tokens, with or without a
semicolon at its end (`ofTokens_tokens`).
-/

namespace SqlEngine

open Reader

/-- The tokens of the condition of a statement. -/
def Statement.whereTokens (condition : Option Condition) : List Token :=
  optionalTokens .where Condition.tokens condition

/-- The tokens of a query. -/
def Query.tokens (query : Query) : List Token :=
  .keyword .select :: (query.projection.tokens ++ .keyword .from :: .ident query.table ::
    (Statement.whereTokens query.condition ++ (optionalTokens .order SortKey.tokens query.sort ++
      (optionalTokens .limit (fun n => [.number n]) query.limit ++
        optionalTokens .offset (fun n => [.number n]) query.offset))))

namespace Statement

/-- The tokens of a statement. -/
def tokens : Statement → List Token
  | createTable name columns =>
    [.keyword .create, .keyword .table, .ident name, .symbol .leftParen] ++
      (commaTokens Column.tokens columns ++ [.symbol .rightParen])
  | dropTable name => [.keyword .drop, .keyword .table, .ident name]
  | createIndex name table column =>
    [.keyword .create, .keyword .index, .ident name, .keyword .on, .ident table, .symbol .leftParen, .ident column,
      .symbol .rightParen]
  | insert table row =>
    [.keyword .insert, .keyword .into, .ident table, .keyword .values, .symbol .leftParen] ++
      (commaTokens (fun value => [value.token]) row ++ [.symbol .rightParen])
  | select query => query.tokens
  | update table assignments condition =>
    [.keyword .update, .ident table, .keyword .set] ++
      (commaTokens Assignment.tokens assignments ++ whereTokens condition)
  | delete table condition => [.keyword .delete, .keyword .from, .ident table] ++ whereTokens condition
  | showTables => [.keyword .show, .keyword .tables]
  | showIndex table => [.keyword .show, .keyword .index, .keyword .from, .ident table]

/-- No list of the statement is empty, so that the grammar has a form for it. -/
def Printable : Statement → Prop
  | createTable _ columns => columns ≠ []
  | insert _ row => row ≠ []
  | select query => query.projection ≠ .columns []
  | update _ assignments _ => assignments ≠ []
  | dropTable _ | createIndex _ _ _ | delete _ _ | showTables | showIndex _ => True

/-- What is printed for the condition of a statement stands for it. -/
theorem written_whereTokens (condition : Option Condition) : WhereWritten (whereTokens condition) condition :=
  clause_optionalTokens Condition.written_tokens condition

/-- What is printed for a statement stands for the statement. -/
theorem written_tokens {statement : Statement} (h : statement.Printable) : Written statement.tokens statement := by
  cases statement with
  | createTable name columns => exact .createTable name h
  | dropTable name => exact .dropTable name
  | createIndex name table column => exact .createIndex name table column
  | insert table row => exact .insert table h
  | select query =>
    exact .select query h (written_whereTokens query.condition) (clause_optionalTokens SortKey.Written.marked query.sort)
  | update table assignments condition => exact .update table h (written_whereTokens condition)
  | delete table condition => exact .delete table (written_whereTokens condition)
  | showTables => exact .showTables
  | showIndex table => exact .showIndex table

/-- What is printed for a statement is read as the statement where the list goes on with something else. -/
theorem read_tokens {statement : Statement} (h : statement.Printable) {rest : List Token} (hrest : GoesOn continuations rest) :
    reader.run (statement.tokens ++ rest) = .ok (statement, rest) :=
  read_of_written (written_tokens h) hrest

/-- What is printed for a statement is read as the one statement that it is, with or without a semicolon at its end. -/
theorem ofTokens_tokens {statement : Statement} (h : statement.Printable) :
    ofTokens (statement.tokens ++ [.eof]) = .ok statement ∧
      ofTokens (statement.tokens ++ [.symbol .semicolon, .eof]) = .ok statement := by
  have hend : GoesOn [.symbol .semicolon] [.eof] := by simp
  constructor
  · have hread := read_tokens h (show GoesOn continuations [.eof] by simp [continuations])
    simp [ofTokens, singleReader, hread, run_eat_of_goesOn hend, Except.map]
  · have hread := read_tokens h (show GoesOn continuations [.symbol .semicolon, .eof] by simp [continuations])
    simp [ofTokens, singleReader, hread, Except.map]

/-- A condition with clauses at both depths comes back as it is, and so does a number of rows below zero. -/
theorem ofTokens_tokens_nested :
    let statement : Statement := .select {
      table := "people", projection := .columns ["name", "age"],
      condition := some (.node ⟨"age", .gt, .int 18⟩
        [.node ⟨"name", .like, .text "A%"⟩ [] [.ofPredicate ⟨"name", .eq, .text "Bo"⟩]]
        [.node ⟨"age", .eq, .int 7⟩ [.ofPredicate ⟨"name", .ne, .text ""⟩] []]),
      sort := some ⟨"age", .descending⟩, limit := some (-3), offset := none }
    statement.Printable ∧ ofTokens (statement.tokens ++ [.eof]) = .ok statement ∧
      ofTokens (statement.tokens ++ [.symbol .semicolon, .eof]) = .ok statement := by
  intro statement
  have hprintable : statement.Printable := by simp [statement, Printable]
  exact ⟨hprintable, ofTokens_tokens hprintable⟩

end Statement

end SqlEngine
