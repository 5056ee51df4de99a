import SqlEngine.Operator
import SqlEngine.Token

/-!
# Errors

Every way in which a text can fail to be a statement and a statement can fail to run, as a cause with what the cause is about.
The wording is in `message` alone. Six kinds group the causes for callers that branch on them.
-/

namespace SqlEngine

/-- What a statement needs at the point where another token stands. -/
inductive Expectation where
  | token (t : Token)
  | identifier | number | literal | dataType | comparison
  | createdObject | shownObject
  | statement | statementEnd | separator
  deriving DecidableEq, Repr

/-- What is said when the token that was found is not the one that was needed. -/
def Expectation.unmet (found : Token) : Expectation → String
  | .token t => "expected " ++ t.described ++ ", found " ++ found.described
  | .identifier => "expected identifier, found " ++ found.described
  | .number => "expected number, found " ++ found.described
  | .literal => "expected a literal, found " ++ found.described
  | .dataType => "current token " ++ found.described ++ " is not a column type"
  | .comparison => "expected a comparison operator, found " ++ found.described
  | .createdObject => "expected TABLE or INDEX after CREATE, found " ++ found.described
  | .shownObject => "expected TABLES or INDEX after SHOW, found " ++ found.described
  | .statement => "unexpected token: " ++ found.described
  | .statementEnd => "unexpected token after statement: " ++ found.described
  | .separator => "expected ';' between statements, found " ++ found.described

/-- Why a text is not what a reader takes it for. -/
inductive ParseError where
  /-- The character starts no token. -/
  | character (c : Char) (position : Nat)
  /-- A quotation mark is never closed. -/
  | unterminatedString
  /-- The integer lies above the 64-bit range. -/
  | integerTooLarge (numeral : String)
  /-- The integer lies below the 64-bit range. -/
  | integerTooSmall (numeral : String)
  /-- The token found is not the one needed. -/
  | unexpected (needed : Expectation) (found : Token)
  /-- The reader asks for the same token for ever: it never moves off the last one, and that one asks for more. -/
  | endless
  /-- The wildcard pattern cannot be made ready for matching. -/
  | pattern (text reason : String)
  deriving DecidableEq, Repr

/-- The wording of a parse error. -/
def ParseError.message : ParseError → String
  | .character c position =>
    "character " ++ Text.quotedChar c ++ " at position " ++ toString position ++ " is not supported"
  | .unterminatedString => "unterminated string"
  | .integerTooLarge numeral =>
    "invalid integer " ++ Text.quoted numeral ++ ": number too large to fit in target type"
  | .integerTooSmall numeral =>
    "invalid integer " ++ Text.quoted numeral ++ ": number too small to fit in target type"
  | .unexpected needed found => needed.unmet found
  | .endless => "the statement never ends"
  | .pattern text reason => "invalid LIKE pattern " ++ Text.quoted text ++ ": " ++ reason

/-- The clause of a query that takes a number of rows. -/
inductive SliceClause where
  | limit | offset
  deriving DecidableEq, Repr

/-- The clause as messages name it. -/
def SliceClause.name : SliceClause → String
  | .limit => "limit"
  | .offset => "offset"

/-- The kind of an error. -/
inductive ErrorKind where
  | schema | typeMismatch | operatorUnsupported | consistency | range | parse
  deriving DecidableEq, Repr

/-- Why a statement, or an operation on a table, did not run to its end. -/
inductive Error where
  /-- A table without columns. -/
  | noColumns
  /-- A column name that another column of the table has. -/
  | columnRepeated (column : String)
  | columnUnknown (column : String)
  /-- A position past the last column. -/
  | positionUnknown (position : Nat)
  | tableExists (table : String)
  | tableUnknown (table : String)
  | indexExists (index table : String)
  /-- A row with more or fewer values than the table has columns. -/
  | arity (given : Nat) (table : String) (columns : Nat)
  /-- A value to be stored that is not of its column's type. -/
  | valueType (column : String) (expected found : DataType)
  /-- A literal to compare with that is not of its column's type. -/
  | literalType (column : String) (expected : DataType) (literal : Value)
  /-- An ordering operator on a column that does not hold integers. -/
  | orderingNeedsInt (operator : Operator) (column : String) (found : DataType)
  /-- A wildcard match on a column that does not hold texts. -/
  | likeNeedsText (column : String) (found : DataType)
  /-- A literal looked up in an index over values of the other type. -/
  | indexType (column : String) (held : DataType) (literal : Value)
  /-- An operator that no index answers. -/
  | lookupUnsupported (operator : Operator)
  /-- An offset at which no live row stands. -/
  | rowDeleted (offset : Nat)
  /-- A live row that ends before the position. -/
  | valueMissing (offset position : Nat)
  /-- A row that ends before the column. -/
  | columnMissing (column : String)
  /-- A cursor asked for more than there is. -/
  | cursorAtEnd
  /-- A cursor that hands out an offset at which no live row stands. -/
  | cursorAstray (offset : Nat)
  /-- A resolved offset at which no live row stands. -/
  | rowMissing (offset : Nat)
  /-- A negative number of rows. -/
  | negative (clause : SliceClause) (n : Int64)
  | parse (cause : ParseError)
  deriving DecidableEq, Repr

namespace Error

/-- The kind an error belongs to. -/
def kind : Error → ErrorKind
  | noColumns | columnRepeated _ | columnUnknown _ | positionUnknown _ | tableExists _ | tableUnknown _ | indexExists _ _
  | arity _ _ _ => .schema
  | valueType _ _ _ | literalType _ _ _ | orderingNeedsInt _ _ _ | likeNeedsText _ _ | indexType _ _ _ => .typeMismatch
  | lookupUnsupported _ => .operatorUnsupported
  | rowDeleted _ | valueMissing _ _ | columnMissing _ | cursorAtEnd | cursorAstray _ | rowMissing _ => .consistency
  | negative _ _ => .range
  | parse _ => .parse

/-- What went wrong, without the kind. -/
def detail : Error → String
  | noColumns => "a table needs at least one column"
  | columnRepeated column => "column " ++ Text.quoted column ++ " is defined twice"
  | columnUnknown column => "column " ++ Text.quoted column ++ " does not exist"
  | positionUnknown position => "no column at position " ++ toString position
  | tableExists table => "table " ++ Text.quoted table ++ " already exists"
  | tableUnknown table => "table " ++ Text.quoted table ++ " does not exist"
  | indexExists index table => "index " ++ Text.quoted index ++ " already exists on table " ++ Text.quoted table
  | arity given table columns =>
    "row has " ++ toString given ++ " values but table " ++ Text.quoted table ++ " has " ++ toString columns ++ " columns"
  | valueType column expected found =>
    "column " ++ Text.quoted column ++ " expects " ++ expected.name ++ ", got " ++ found.name
  | literalType column expected literal =>
    "column " ++ Text.quoted column ++ " is " ++ expected.name ++ " but is compared with " ++ literal.described
  | orderingNeedsInt operator column found =>
    "operator " ++ operator.symbol ++ " needs an Int column, " ++ Text.quoted column ++ " is " ++ found.name
  | likeNeedsText column found => "LIKE needs a Text column, " ++ Text.quoted column ++ " is " ++ found.name
  | indexType column held literal =>
    "index on " ++ Text.quoted column ++ " holds " ++ held.name ++ " values, got " ++ literal.described
  | lookupUnsupported operator => "operator " ++ operator.symbol ++ " is not supported by index lookups"
  | rowDeleted offset => "row with offset " ++ toString offset ++ " has been deleted"
  | valueMissing offset position =>
    "row with offset " ++ toString offset ++ " has no value at position " ++ toString position
  | columnMissing column => "row has no value for column " ++ Text.quoted column
  | cursorAtEnd => "table cursor has reached the end"
  | cursorAstray offset => "cursor points to missing row " ++ toString offset
  | rowMissing offset => "row with offset " ++ toString offset ++ " is missing"
  | negative clause n => clause.name ++ " must be non-negative, got " ++ toString n.toInt
  | parse cause => cause.message

/-- What stands before the detail; an unsupported operator needs no introduction. -/
def heading : ErrorKind → String
  | .schema => "schema error: "
  | .typeMismatch => "type mismatch: "
  | .operatorUnsupported => ""
  | .consistency => "consistency error: "
  | .range => "range error: "
  | .parse => "parse error: "

/-- The whole text of an error. -/
def message (e : Error) : String :=
  heading e.kind ++ e.detail

end Error

end SqlEngine
