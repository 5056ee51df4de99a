import Mathlib.Logic.Basic
import SqlEngine.Condition.Evaluation
import SqlEngine.Proofs.Outcome
import SqlEngine.Proofs.Schema

/-!
# Predicates on rows

A predicate holds on a row (`Predicate.holds`) when the row has a value for its column that stands to the literal as the
operator says. A predicate is unsuited to a schema for one of four reasons (`Predicate.Unsuited`), which are exactly those
for which its check fails. Of a predicate that suits the schema, a value of the column's type passes the test exactly when
it meets the operator (`passes_eq_relates`): the types that a test asks for are then the right ones.
-/

namespace SqlEngine

/-- A value of type text is a text. -/
theorem Value.exists_text {value : Value} (h : value.dataType = .text) : ∃ s, value = .text s := by
  cases value with
  | int n => exact nomatch h
  | text s => exact ⟨s, rfl⟩

/-- Whether a value stands to a literal as the operator says: in the total order of values, or for a wildcard match between
two texts, when the pattern generates some stretch of the value. -/
def Operator.relates : Operator → Value → Value → Bool
  | .like, .text s, .text pattern => (Pattern.read pattern).matchesWithin s
  | .like, _, _ => false
  | operator, value, literal => operator.accepts (compare value literal)

/-- All operators but the wildcard match go by the order of values. -/
theorem Operator.relates_of_ne_like {operator : Operator} (h : operator ≠ .like) (value literal : Value) :
    operator.relates value literal = operator.accepts (compare value literal) := by
  cases operator with
  | like => exact absurd rfl h
  | eq => rfl
  | ne => rfl
  | gt => rfl
  | ge => rfl
  | lt => rfl
  | le => rfl

namespace Predicate

variable {schema : Schema} {predicate : Predicate} {column : Column} {position : Nat}

/-- Whether the row has a value for the predicate's column, and the value meets the predicate. -/
def holds (schema : Schema) (row : Row) (predicate : Predicate) : Bool :=
  match schema.find? predicate.column with
  | none => false
  | some (_, position) => row[position]?.any fun value => predicate.operator.relates value predicate.value

/-! ## Suiting a schema -/

/-- Why a predicate does not suit a schema. -/
inductive Unsuited (schema : Schema) (predicate : Predicate) : Prop where
  /-- Its column does not exist. -/
  | column (hfind : schema.find? predicate.column = none)
  /-- Its literal is not of the column's type. -/
  | literal (column : Column) (position : Nat) (hfind : schema.find? predicate.column = some (column, position))
      (htype : predicate.value.dataType ≠ column.type)
  /-- It asks which is greater of values that are not integers. -/
  | ordering (column : Column) (position : Nat) (hfind : schema.find? predicate.column = some (column, position))
      (hordering : predicate.operator ∈ [Operator.gt, .ge, .lt, .le]) (htype : column.type ≠ .int)
  /-- It is a wildcard match of values that are not texts. -/
  | wildcard (column : Column) (position : Nat) (hfind : schema.find? predicate.column = some (column, position))
      (hlike : predicate.operator = .like) (htype : column.type ≠ .text)

/-- What a predicate that passes its check is about. -/
theorem check_eq_ok_iff : predicate.check schema = .ok () ↔
    ∃ column position, schema.find? predicate.column = some (column, position) ∧
      predicate.value.dataType = column.type ∧ (predicate.operator.isOrdering = true → column.type = .int) ∧
      (predicate.operator = .like → column.type = .text) := by
  unfold check
  rw [ExceptAux.bind_eq_ok_iff]
  constructor
  · rintro ⟨⟨column, position⟩, hlocate, hchecks⟩
    refine ⟨column, position, Schema.locate_eq_ok_iff.mp hlocate, ?_⟩
    dsimp only at hchecks
    split at hchecks
    · exact nomatch hchecks
    next hliteral =>
      split at hchecks
      · exact nomatch hchecks
      next hordering =>
        split at hchecks
        · exact nomatch hchecks
        next hlike =>
          rw [not_and_not_right] at hordering hlike
          exact ⟨not_not.mp hliteral, hordering, hlike⟩
  · rintro ⟨column, position, hfind, hliteral, hordering, hlike⟩
    refine ⟨(column, position), Schema.locate_eq_ok_iff.mpr hfind, ?_⟩
    dsimp only
    rw [if_neg (not_not.mpr hliteral), if_neg (not_and_not_right.mpr hordering), if_neg (not_and_not_right.mpr hlike)]

/-- A predicate fails its check exactly when it does not suit the schema. -/
theorem check_ne_ok_iff : predicate.check schema ≠ .ok () ↔ predicate.Unsuited schema := by
  rw [ne_eq, check_eq_ok_iff]
  constructor
  · intro h
    cases hfind : schema.find? predicate.column with
    | none => exact .column hfind
    | some found =>
      obtain ⟨column, position⟩ := found
      by_cases hliteral : predicate.value.dataType = column.type
      · by_cases hordering : predicate.operator.isOrdering = true → column.type = .int
        · have hlike : ¬(predicate.operator = .like → column.type = .text) := by
            intro hlike
            exact h ⟨column, position, hfind, hliteral, hordering, hlike⟩
          rw [Classical.not_imp] at hlike
          exact .wildcard column position hfind hlike.1 hlike.2
        · rw [Classical.not_imp] at hordering
          exact .ordering column position hfind (Operator.isOrdering_iff.mp hordering.1) hordering.2
      · exact .literal column position hfind hliteral
  · rintro h ⟨column, position, hfind, hliteral, hordering, hlike⟩
    have hfound : ∀ {column' position'}, schema.find? predicate.column = some (column', position') → column' = column := by
      intro column' position' hfind'
      rw [hfind] at hfind'
      exact (Prod.mk.inj (Option.some.inj hfind')).1.symm
    cases h with
    | column hnone =>
      rw [hfind] at hnone
      exact nomatch hnone
    | literal column' position' hfind' htype => exact htype (hfound hfind' ▸ hliteral)
    | ordering column' position' hfind' hasks htype =>
      exact htype (hfound hfind' ▸ hordering (Operator.isOrdering_iff.mpr hasks))
    | wildcard column' position' hfind' hmatch htype => exact htype (hfound hfind' ▸ hlike hmatch)

/-! ## Making ready and testing -/

variable [Pattern.Compiler]

/-- The pattern of the predicate, if it is a wildcard match with one, can be made ready for matching. -/
def Compiles (predicate : Predicate) : Prop :=
  ∀ text, predicate.operator = .like → predicate.value = .text text → ∃ pattern, Pattern.compile text = .ok pattern

/-- All predicates but a wildcard match are comparisons and can be made ready. -/
theorem valueTest_of_ne_like (hlike : predicate.operator ≠ .like) :
    predicate.valueTest = .ok (.comparison predicate.operator predicate.value) := by
  unfold valueTest
  split
  next h _ => exact absurd h hlike
  next h _ => exact absurd h hlike
  next => rfl

/-- A wildcard match with a text is made ready by compiling the text. -/
theorem valueTest_of_text {text : String} (hlike : predicate.operator = .like) (hvalue : predicate.value = .text text) :
    predicate.valueTest = ((Pattern.compile text).map ValueTest.wildcard).mapError Error.parse := by
  unfold valueTest
  rw [hlike, hvalue]

/-- Makes the predicate ready and leaves it at that. -/
def prepare (predicate : Predicate) : Except Error Unit :=
  predicate.valueTest.map fun _ => ()

/-- A predicate can be made ready exactly when its pattern can. -/
theorem valueTest_ok_iff : (∃ test, predicate.valueTest = .ok test) ↔ predicate.Compiles := by
  by_cases hlike : predicate.operator = .like
  · cases hvalue : predicate.value with
    | int n =>
      constructor
      · intro _ text _ htext
        rw [hvalue] at htext
        exact nomatch htext
      · intro _
        refine ⟨.never, ?_⟩
        unfold valueTest
        rw [hlike, hvalue]
    | text text =>
      rw [valueTest_of_text hlike hvalue]
      constructor
      · rintro ⟨test, htest⟩ text' _ htext'
        obtain rfl := Value.text.inj (hvalue.symm.trans htext')
        cases hpattern : Pattern.compile text with
        | ok pattern => exact ⟨pattern, rfl⟩
        | error cause =>
          rw [hpattern] at htest
          exact nomatch htest
      · intro h
        obtain ⟨pattern, hpattern⟩ := h text hlike hvalue
        rw [hpattern]
        exact ⟨.wildcard pattern, rfl⟩
  · rw [valueTest_of_ne_like hlike]
    refine ⟨fun _ text h => absurd h hlike, fun _ => ⟨_, rfl⟩⟩

theorem prepare_eq_ok_iff : predicate.prepare = .ok () ↔ predicate.Compiles := by
  rw [← valueTest_ok_iff, prepare]
  cases predicate.valueTest with
  | error cause => simp [Except.map]
  | ok test => simp [Except.map]

/-- A pattern that is made ready is the pattern as it is written. -/
theorem pattern_of_compile {text : String} {pattern : Pattern} (h : Pattern.compile text = .ok pattern) :
    pattern = Pattern.read text :=
  (Pattern.compile_eq_ok_iff.mp h).2

/-- Of a predicate that suits the schema, a value of the column's type passes the test exactly when it meets the operator. -/
theorem passes_eq_relates (hcheck : predicate.check schema = .ok ())
    (hfind : schema.find? predicate.column = some (column, position)) {test : ValueTest}
    (htest : predicate.valueTest = .ok test) {value : Value} (htype : value.dataType = column.type) :
    test.passes value = predicate.operator.relates value predicate.value := by
  obtain ⟨column', position', hfind', hliteral, hordering, hlike⟩ := check_eq_ok_iff.mp hcheck
  obtain ⟨rfl, rfl⟩ := Prod.mk.inj (Option.some.inj (hfind.symm.trans hfind'))
  by_cases hoperator : predicate.operator = .like
  · have htext := hlike hoperator
    obtain ⟨s, rfl⟩ := Value.exists_text (htype.trans htext)
    obtain ⟨text, hvalue⟩ := Value.exists_text (hliteral.trans htext)
    obtain ⟨pattern, hpattern⟩ := valueTest_ok_iff.mp ⟨test, htest⟩ text hoperator hvalue
    rw [valueTest_of_text hoperator hvalue, hpattern] at htest
    obtain rfl := Except.ok.inj htest
    obtain rfl := pattern_of_compile hpattern
    rw [hoperator, hvalue]
    rfl
  · rw [valueTest_of_ne_like hoperator] at htest
    obtain rfl := Except.ok.inj htest
    have hcompares : predicate.operator.compares value.dataType predicate.value.dataType = true := by
      rw [hliteral, htype, Operator.compares]
      cases hasks : predicate.operator.isOrdering with
      | false => rfl
      | true => rw [hordering hasks]; rfl
    rw [ValueTest.passes, hcompares, Bool.true_and, Operator.relates_of_ne_like hoperator]

/-- On a row that suits the schema, a predicate that suits it too is met by the value of its column exactly when it holds. -/
theorem any_passes_eq_holds (hcheck : predicate.check schema = .ok ())
    (hfind : schema.find? predicate.column = some (column, position)) {test : ValueTest}
    (htest : predicate.valueTest = .ok test) {row : Row} (hrow : schema.Admits row) :
    row[position]?.any test.passes = predicate.holds schema row := by
  obtain ⟨value, hvalue, htype⟩ := hrow.value_at (Schema.find?_eq_some_iff.mp hfind).1
  simp only [holds, hfind, hvalue, Option.any_some]
  exact passes_eq_relates hcheck hfind htest htype

/-- On a row that suits the schema, a predicate that suits it too and can be made ready evaluates to whether it holds. -/
theorem truth_eq_holds (hcheck : predicate.check schema = .ok ()) (hcompiles : predicate.Compiles) {row : Row}
    (hrow : schema.Admits row) : predicate.truth schema row = .ok (predicate.holds schema row) := by
  obtain ⟨column, position, hfind, -⟩ := check_eq_ok_iff.mp hcheck
  obtain ⟨test, htest⟩ := valueTest_ok_iff.mpr hcompiles
  obtain ⟨value, hvalue, -⟩ := hrow.value_at (Schema.find?_eq_some_iff.mp hfind).1
  have hholds := any_passes_eq_holds hcheck hfind htest hrow
  rw [hvalue, Option.any_some] at hholds
  rw [truth, Schema.position_eq_ok_iff.mpr ⟨column, hfind⟩, ExceptAux.ok_bind, hvalue]
  simp only [htest, ExceptAux.ok_bind, hholds]
  rfl

end Predicate

end SqlEngine
