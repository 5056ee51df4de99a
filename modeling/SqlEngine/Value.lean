import SqlEngine.Text.Quoted

/-!
# Values

A cell holds a 64-bit signed integer or a text. Values have one total order, which keys every index: integers by size, before
all texts, and texts by code point. Statements compare values of one type only, so the order across the two types is seen only
where unchecked rows were stored.
-/

namespace SqlEngine

/-- The type of a column. -/
inductive DataType where
  | int | text
  deriving DecidableEq, Repr

/-- The type as messages name it. -/
def DataType.name : DataType → String
  | .int => "Int"
  | .text => "Text"

/-- A value of a cell. -/
inductive Value where
  | int (n : Int64)
  | text (s : String)
  deriving DecidableEq, Repr

namespace Value

/-- The type a value belongs to. -/
def dataType : Value → DataType
  | .int _ => .int
  | .text _ => .text

/-- The integer, if the value is one. -/
def int? : Value → Option Int64
  | .int n => some n
  | .text _ => none

/-- The text, if the value is one. -/
def text? : Value → Option String
  | .int _ => none
  | .text s => some s

/-- The value as a result row shows it. -/
def render : Value → String
  | .int n => toString n.toInt
  | .text s => s

/-- The value as messages show it: its type, and in brackets the integer or the quoted text. -/
def described : Value → String
  | .int n => "Int(" ++ toString n.toInt ++ ")"
  | .text s => "Text(" ++ Text.quoted s ++ ")"

/-- The order of values: integers come before texts. -/
protected def compare : Value → Value → Ordering
  | .int m, .int n => Ord.compare m n
  | .int _, .text _ => .lt
  | .text _, .int _ => .gt
  | .text s, .text t => Ord.compare s t

instance : Ord Value := ⟨Value.compare⟩

instance : Std.LawfulEqOrd Value where
  compare_self {v} := by
    cases v with
    | int n => exact Std.ReflOrd.compare_self (a := n)
    | text s => exact Std.ReflOrd.compare_self (a := s)
  eq_of_compare {v w} h := by
    cases v <;> cases w
    · exact congrArg Value.int (Std.LawfulEqOrd.eq_of_compare h)
    · exact nomatch h
    · exact nomatch h
    · exact congrArg Value.text (Std.LawfulEqOrd.eq_of_compare h)

instance : Std.TransOrd Value where
  eq_swap {v w} := by
    cases v <;> cases w
    · exact Std.OrientedOrd.eq_swap (α := Int64)
    · rfl
    · rfl
    · exact Std.OrientedOrd.eq_swap (α := String)
  isLE_trans {u v w} huv hvw := by
    cases u <;> cases v <;> cases w
    · exact Std.TransOrd.isLE_trans (α := Int64) huv hvw
    · rfl
    · exact nomatch hvw
    · rfl
    · exact nomatch huv
    · exact nomatch huv
    · exact nomatch hvw
    · exact Std.TransOrd.isLE_trans (α := String) huv hvw

end Value

end SqlEngine
