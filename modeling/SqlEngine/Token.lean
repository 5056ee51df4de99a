import SqlEngine.Value

/-!
# Tokens

The tokens of the statement language: keywords, type names, identifiers, literals and symbols, and the mark of the end.
-/

namespace SqlEngine

/-- A word with a fixed meaning, type names apart. -/
inductive Keyword where
  | create | table | index | on | drop | insert | into | values | select | from | where | and | or | like | order | by | asc
  | desc | limit | offset | update | set | delete | «show» | tables
  deriving DecidableEq, Repr

/-- A token that is written with signs alone; `lower` is the sign for less than. -/
inductive Symbol where
  | leftParen | rightParen | comma | semicolon | star | equal | notEqual | greater | greaterEqual | lower | lowerEqual
  deriving DecidableEq, Repr

/-- A token. -/
inductive Token where
  | keyword (word : Keyword)
  | dataType (type : DataType)
  | ident (name : String)
  | number (n : Int64)
  | string (s : String)
  | symbol (sign : Symbol)
  | eof
  deriving DecidableEq, Repr

/-- All keywords. -/
def Keyword.all : List Keyword :=
  [.create, .table, .index, .on, .drop, .insert, .into, .values, .select, .from, .where, .and, .or, .like, .order, .by, .asc,
   .desc, .limit, .offset, .update, .set, .delete, .show, .tables]

/-- The keyword in capitals, as statements are usually written. -/
def Keyword.spelling : Keyword → String
  | .create => "CREATE"
  | .table => "TABLE"
  | .index => "INDEX"
  | .on => "ON"
  | .drop => "DROP"
  | .insert => "INSERT"
  | .into => "INTO"
  | .values => "VALUES"
  | .select => "SELECT"
  | .from => "FROM"
  | .where => "WHERE"
  | .and => "AND"
  | .or => "OR"
  | .like => "LIKE"
  | .order => "ORDER"
  | .by => "BY"
  | .asc => "ASC"
  | .desc => "DESC"
  | .limit => "LIMIT"
  | .offset => "OFFSET"
  | .update => "UPDATE"
  | .set => "SET"
  | .delete => "DELETE"
  | .show => "SHOW"
  | .tables => "TABLES"

/-- The keyword as messages name it: a capital, then small letters. -/
def Keyword.name (word : Keyword) : String :=
  String.ofList (match word.spelling.toList with
    | [] => []
    | first :: rest => first :: rest.map Char.toLower)

/-- All symbols. -/
def Symbol.all : List Symbol :=
  [.leftParen, .rightParen, .comma, .semicolon, .star, .equal, .notEqual, .greater, .greaterEqual, .lower, .lowerEqual]

/-- The symbol as messages name it. -/
def Symbol.name : Symbol → String
  | .leftParen => "LeftParen"
  | .rightParen => "RightParen"
  | .comma => "Comma"
  | .semicolon => "Semicolon"
  | .star => "Star"
  | .equal => "Equal"
  | .notEqual => "NotEqual"
  | .greater => "Greater"
  | .greaterEqual => "GreaterEqual"
  | .lower => "Lower"
  | .lowerEqual => "LowerEqual"

/-- The token as messages show it: its name, and in brackets what it carries. -/
def Token.described : Token → String
  | .keyword word => word.name
  | .dataType type => type.name
  | .ident name => "Ident(" ++ Text.quoted name ++ ")"
  | .number n => "Number(" ++ toString n.toInt ++ ")"
  | .string s => "String(" ++ Text.quoted s ++ ")"
  | .symbol sign => sign.name
  | .eof => "Eof"

end SqlEngine
