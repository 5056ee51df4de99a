import SqlEngine.Error

/-!
# Events

What the engine reports while it works: one event for every change of a table and of a row, and one for every predicate that it
resolves. A caller that keeps a log sees them in the order in which they were reported.
-/

namespace SqlEngine

/-- How closely one has to look to see an event. -/
inductive Level where
  | debug | trace
  deriving DecidableEq, Repr

/-- The level as a log names it. -/
def Level.name : Level → String
  | .debug => "DEBUG"
  | .trace => "TRACE"

/-- Something that the engine did to the named table. -/
inductive Event where
  | tableCreated (table : String) (columns : Nat)
  | tableDropped (table : String)
  /-- The index holds so many values in a tree so high, and takes the place of another one if the column had one. -/
  | indexCreated (table index column : String) (values height : Nat) (superseded : Option String)
  | resolvedThroughIndex (table column : String) (operator : Operator)
  | resolvedByScan (table column : String) (operator : Operator)
  | rowInserted (table : String) (offset : Nat)
  | rowUpdated (table : String) (offset : Nat)
  | rowDeleted (table : String) (offset : Nat)
  | rowsUpdated (table : String) (rows : Nat)
  | rowsDeleted (table : String) (rows : Nat)
  deriving DecidableEq, Repr

/-- What a field of an event holds. -/
inductive Event.Field where
  | number (n : Nat)
  | text (s : String)
  deriving DecidableEq, Repr

namespace Event

/-- Single rows are seen at the finer level only. -/
def level : Event → Level
  | rowInserted _ _ | rowUpdated _ _ | rowDeleted _ _ => .trace
  | _ => .debug

/-- The event in words, without what it is about. -/
def message : Event → String
  | tableCreated _ _ => "table created"
  | tableDropped _ => "table dropped"
  | indexCreated _ _ _ _ _ _ => "index created"
  | resolvedThroughIndex _ _ _ => "resolved through index"
  | resolvedByScan _ _ _ => "resolved by scan"
  | rowInserted _ _ => "row inserted"
  | rowUpdated _ _ => "row updated"
  | rowDeleted _ _ => "row deleted"
  | rowsUpdated _ _ => "rows updated"
  | rowsDeleted _ _ => "rows deleted"

/-- What the event is about, field by field. -/
def fields : Event → List (String × Field)
  | tableCreated table columns => [("table", .text table), ("columns", .number columns)]
  | tableDropped table => [("table", .text table)]
  | indexCreated table index column values height superseded =>
    [("table", .text table), ("index", .text index), ("column", .text column), ("values", .number values),
     ("height", .number height)] ++ (superseded.map fun name => ("superseded", .text name)).toList
  | resolvedThroughIndex table column operator | resolvedByScan table column operator =>
    [("table", .text table), ("column", .text column), ("operator", .text operator.symbol)]
  | rowInserted table offset | rowUpdated table offset | rowDeleted table offset =>
    [("table", .text table), ("offset", .number offset)]
  | rowsUpdated table rows | rowsDeleted table rows => [("table", .text table), ("rows", .number rows)]

end Event

end SqlEngine
