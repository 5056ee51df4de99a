import SqlEngine.Operator

/-!
# The order of values

Values are ordered as the words say (`Value.Precedes`): integers by size, all of them before all texts, and texts by the code points
of their characters, where the first difference decides and a text comes before its continuations. Comparing values decides this
order (`compare_eq_lt_iff`), and what an operator accepts is what it means by this order (`accepts_iff_meets`).
-/

namespace SqlEngine

namespace Value

/-- The first value comes before the second. -/
inductive Precedes : Value → Value → Prop where
  | ints {m n : Int64} (h : m.toInt < n.toInt) : Precedes (.int m) (.int n)
  | intText (n : Int64) (s : String) : Precedes (.int n) (.text s)
  | texts {s t : String} (h : List.Lex (fun c d : Char => c.toNat < d.toNat) s.toList t.toList) : Precedes (.text s) (.text t)

/-- Comparing decides whether a value comes before another. -/
theorem compare_eq_lt_iff {v w : Value} : compare v w = .lt ↔ v.Precedes w := by
  cases v with
  | int m =>
    cases w with
    | int n =>
      have hints : compare (int m) (int n) = .lt ↔ m < n := compareOfLessAndEq_eq_lt
      rw [hints, Int64.lt_iff_toInt_lt]
      exact ⟨.ints, fun h => by cases h with | ints h => exact h⟩
    | text t => exact iff_of_true rfl (.intText m t)
  | text s =>
    cases w with
    | int n => exact iff_of_false nofun nofun
    | text t =>
      have htexts : compare (text s) (text t) = .lt ↔ s < t := compareOfLessAndEq_eq_lt
      rw [htexts, String.lt_iff]
      exact ⟨.texts, fun h => by cases h with | texts h => exact h⟩

/-- Comparing decides whether a value comes after another. -/
theorem compare_eq_gt_iff {v w : Value} : compare v w = .gt ↔ w.Precedes v := by
  rw [Std.OrientedOrd.eq_swap, Ordering.swap_eq_gt, compare_eq_lt_iff]

/-- Comparing decides whether a value comes before another or is the same. -/
theorem isLE_compare_iff {v w : Value} : (compare v w).isLE = true ↔ v.Precedes w ∨ v = w := by
  rw [← compare_eq_lt_iff, ← Std.LawfulEqOrd.compare_eq_iff_eq (a := v)]
  cases compare v w <;> decide

theorem Precedes.asymm {v w : Value} (h : v.Precedes w) : ¬w.Precedes v := by
  rw [← compare_eq_gt_iff, compare_eq_lt_iff.mpr h]
  exact nofun

end Value

namespace Operator

/-- The first value stands to the second as the operator says; a wildcard match does not go by the order. -/
def Meets : Operator → Value → Value → Prop
  | eq, v, w => v = w
  | ne, v, w => v ≠ w
  | gt, v, w => w.Precedes v
  | ge, v, w => w.Precedes v ∨ v = w
  | lt, v, w => v.Precedes w
  | le, v, w => v.Precedes w ∨ v = w
  | like, _, _ => False

/-- Of two values that are compared, an operator accepts what it means. -/
theorem accepts_iff_meets {operator : Operator} {v w : Value} : operator.accepts (compare v w) = true ↔ operator.Meets v w := by
  have heq : compare v w = .eq ↔ v = w := Std.LawfulEqOrd.compare_eq_iff_eq
  cases operator with
  | like => exact iff_of_false nofun id
  | eq => rw [Meets, ← heq]; cases compare v w <;> decide
  | ne => rw [Meets, ne_eq, ← heq]; cases compare v w <;> decide
  | gt => rw [Meets, ← Value.compare_eq_gt_iff]; cases compare v w <;> decide
  | ge => rw [Meets, ← Value.compare_eq_gt_iff, ← heq]; cases compare v w <;> decide
  | lt => rw [Meets, ← Value.compare_eq_lt_iff]; cases compare v w <;> decide
  | le => rw [Meets, ← Value.compare_eq_lt_iff, ← heq]; cases compare v w <;> decide

end Operator

end SqlEngine
