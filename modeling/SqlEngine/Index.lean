import SqlEngine.BinaryTree
import SqlEngine.Error
import SqlEngine.Offsets

/-!
# Indexes

An index of a column files offsets under values: a search tree over the order of values, with a set of offsets at each node. No
set in the tree is empty; the last offset of a value takes the node with it. An index answers every operator but the wildcard
match, by the total order of values.
-/

namespace SqlEngine

/-- An index over the values of one column. -/
structure Index where
  column : String
  type : DataType
  tree : BinaryTree Value Offsets
  deriving DecidableEq, Repr

namespace Index

/-- The index of a column that files nothing yet. -/
def empty (column : String) (type : DataType) : Index :=
  { column, type, tree := .empty }

/-- The number of values under which something is filed. -/
def size (index : Index) : Nat := index.tree.size

/-- Whether nothing is filed. -/
def isEmpty (index : Index) : Bool := index.tree.isEmpty

/-- The number of nodes on the longest path down the tree. -/
def height (index : Index) : Nat := index.tree.height

/-- The offsets filed under a value. -/
def filed (index : Index) (value : Value) : Offsets :=
  (index.tree.find? value).getD ∅

/-- Files an offset under a value. -/
def insert (index : Index) (value : Value) (offset : Nat) : Index :=
  { index with tree := index.tree.insert value ((index.filed value).insert offset) }

/-- Takes an offset away from under a value. -/
def erase (index : Index) (value : Value) (offset : Nat) : Index :=
  match index.tree.find? value with
  | none => index
  | some offsets =>
    let remaining := offsets.erase offset
    if remaining.isEmpty then { index with tree := index.tree.erase value }
    else { index with tree := index.tree.insert value remaining }

/-- The index of the same column that files the given pairs and nothing else, with a balanced tree. -/
def rebuild (index : Index) (pairs : List (Nat × Value)) : Index :=
  let filed := pairs.foldl (fun filed pair => filed.insert pair.2 pair.1) (empty index.column index.type)
  { index with tree := .ofPairs filed.tree.toList }

/-- The sets of offsets filed under the values that meet an operator with a literal. -/
def matching (index : Index) (operator : Operator) (literal : Value) : Except Error (List Offsets) :=
  match operator with
  | .eq => .ok (index.tree.find? literal).toList
  | .ne => .ok (index.tree.payloadsBelow literal false ++ index.tree.payloadsAbove literal false)
  | .gt => .ok (index.tree.payloadsAbove literal false)
  | .ge => .ok (index.tree.payloadsAbove literal true)
  | .lt => .ok (index.tree.payloadsBelow literal false)
  | .le => .ok (index.tree.payloadsBelow literal true)
  | .like => .error (.lookupUnsupported operator)

/-- The offsets filed under the values that meet an operator with a literal. -/
def lookup (index : Index) (operator : Operator) (literal : Value) : Except Error Offsets :=
  (index.matching operator literal).map Offsets.unionAll

end Index

end SqlEngine
