import SqlEngine.Condition.Reader
import SqlEngine.Statement
import SqlEngine.Token.Scan

/-!
# Reading statements

`Statement.ofTokens` reads exactly one statement, after which one semicolon may stand; `Script.ofTokens` reads any number of
statements with semicolons between them. Both need the mark of the end where the last statement ends. `Statement.ofText` and
`Script.ofText` start from a text.
-/

namespace SqlEngine

namespace Statement

open Reader

/-- Takes the definition of a column. -/
def columnReader : Reader Column := do
  let name ← identifier
  let type ← dataType
  return { name, type }

/-- Takes the assignment of a literal to a column. -/
def assignmentReader : Reader Assignment := do
  let column ← identifier
  symbol .equal
  let value ← literal
  return { column, value }

/-- Takes the condition after `WHERE`, if there is one. -/
def whereReader : Reader (Option Condition) :=
  optional .where Condition.reader

/-- Takes the rest of `CREATE TABLE`. -/
def createTableReader : Reader Statement := do
  keyword .table
  let name ← identifier
  symbol .leftParen
  let columns ← commaList columnReader
  symbol .rightParen
  return .createTable name columns

/-- Takes the rest of `CREATE INDEX`. -/
def createIndexReader : Reader Statement := do
  keyword .index
  let name ← identifier
  keyword .on
  let table ← identifier
  symbol .leftParen
  let column ← identifier
  symbol .rightParen
  return .createIndex name table column

/-- Takes what `CREATE` begins. -/
def createReader : Reader Statement := do
  keyword .create
  match ← peek with
  | .keyword .table => createTableReader
  | .keyword .index => createIndexReader
  | found => fail .createdObject found

/-- Takes `DROP TABLE`. -/
def dropReader : Reader Statement := do
  keyword .drop
  keyword .table
  return .dropTable (← identifier)

/-- Takes `INSERT INTO`. -/
def insertReader : Reader Statement := do
  keyword .insert
  keyword .into
  let table ← identifier
  keyword .values
  symbol .leftParen
  let row ← commaList literal
  symbol .rightParen
  return .insert table row

/-- Takes what a query shows. -/
def projectionReader : Reader Projection := do
  if ← eat (.symbol .star) then
    return .all
  else
    return .columns (← commaList identifier)

/-- Takes the column to sort on and the direction, ascending where none is given. -/
def sortKeyReader : Reader SortKey := do
  keyword .by
  let column ← identifier
  if ← eatKeyword .desc then
    return { column, direction := .descending }
  else
    let _ ← eatKeyword .asc
    return { column, direction := .ascending }

/-- Takes a query. -/
def selectReader : Reader Statement := do
  keyword .select
  let projection ← projectionReader
  keyword .from
  let table ← identifier
  let condition ← whereReader
  let sort ← optional .order sortKeyReader
  let limit ← optional .limit number
  let offset ← optional .offset number
  return .select { table, projection, condition, sort, limit, offset }

/-- Takes `UPDATE`. -/
def updateReader : Reader Statement := do
  keyword .update
  let table ← identifier
  keyword .set
  let assignments ← commaList assignmentReader
  let condition ← whereReader
  return .update table assignments condition

/-- Takes `DELETE FROM`. -/
def deleteReader : Reader Statement := do
  keyword .delete
  keyword .from
  let table ← identifier
  let condition ← whereReader
  return .delete table condition

/-- Takes what `SHOW` begins. -/
def showReader : Reader Statement := do
  keyword .show
  match ← peek with
  | .keyword .tables =>
    advance
    return .showTables
  | .keyword .index =>
    advance
    keyword .from
    return .showIndex (← identifier)
  | found => fail .shownObject found

/-- Takes a statement; its first keyword tells which. -/
def reader : Reader Statement := do
  match ← peek with
  | .keyword .create => createReader
  | .keyword .drop => dropReader
  | .keyword .insert => insertReader
  | .keyword .select => selectReader
  | .keyword .update => updateReader
  | .keyword .delete => deleteReader
  | .keyword .show => showReader
  | found => fail .statement found

/-- Takes one statement, a semicolon if there is one, and the mark of the end. -/
def singleReader : Reader Statement := do
  let statement ← reader
  let _ ← eat (.symbol .semicolon)
  let found ← peek
  if found = .eof then return statement else fail .statementEnd found

/-- Takes statements up to the mark of the end; between two of them stands at least one semicolon. Each semicolon and each
statement uses one unit of fuel, so only a list that ends in a semicolon can use up more than it has tokens. -/
def scriptReader : (fuel : Nat) → Reader Script
  | 0 => throw .endless
  | fuel + 1 => do
    match ← peek with
    | .symbol .semicolon =>
      advance
      scriptReader fuel
    | .eof => return []
    | _ =>
      let statement ← reader
      match ← peek with
      | .symbol .semicolon => return statement :: (← scriptReader fuel)
      | .eof => return [statement]
      | found => fail .separator found

/-- The one statement that the tokens are. -/
def ofTokens (tokens : List Token) : Except ParseError Statement :=
  (singleReader.run tokens).map Prod.fst

/-- The one statement that a text is. -/
def ofText (text : String) : Except ParseError Statement := do
  ofTokens (← Token.scan text)

end Statement

/-- The script that the tokens are. -/
def Script.ofTokens (tokens : List Token) : Except ParseError Script :=
  ((Statement.scriptReader (tokens.length + 1)).run tokens).map Prod.fst

/-- The script that a text is. -/
def Script.ofText (text : String) : Except ParseError Script := do
  ofTokens (← Token.scan text)

end SqlEngine
