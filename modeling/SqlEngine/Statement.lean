import SqlEngine.Condition
import SqlEngine.Schema

/-!
# Statements

What the engine is asked to do. A statement is data: it may name tables and columns that do not exist, hold literals of the wrong
type, or ask for a negative number of rows; running it finds that out.
-/

namespace SqlEngine

/-- The columns that a query shows. -/
inductive Projection where
  | all
  | columns (names : List String)
  deriving DecidableEq, Repr

/-- The direction in which a query sorts. -/
inductive Direction where
  | ascending | descending
  deriving DecidableEq, Repr

/-- The column that a query sorts on, and in which direction. -/
structure SortKey where
  column : String
  direction : Direction
  deriving DecidableEq, Repr

/-- A query of one table. -/
structure Query where
  table : String
  projection : Projection
  condition : Option Condition
  sort : Option SortKey
  limit : Option Int64
  offset : Option Int64
  deriving Repr

/-- A column and the value that it is to get. -/
structure Assignment where
  column : String
  value : Value
  deriving DecidableEq, Repr

/-- A statement. -/
inductive Statement where
  | createTable (name : String) (columns : List Column)
  | dropTable (name : String)
  | createIndex (name table column : String)
  | insert (table : String) (row : Row)
  | select (query : Query)
  | update (table : String) (assignments : List Assignment) (condition : Option Condition)
  | delete (table : String) (condition : Option Condition)
  | showTables
  | showIndex (table : String)
  deriving Repr

/-- Statements that are run one after the other. -/
abbrev Script : Type := List Statement

end SqlEngine
