/-!
# Sets of code points as sorted ranges

A Unicode property is stored as the ascending list of the closed ranges of code points that have it. The tables of this folder
are those of Unicode 17.0. A search stops at the first range that lies above the character, so ASCII characters, which every
table holds in its first ranges, are settled at once.
-/

namespace SqlEngine.Unicode

/-- Closed ranges of code points, ascending and apart from each other. -/
abbrev CodeRanges : Type := List (Nat × Nat)

/-- Whether the code point lies in one of the ranges. -/
def CodeRanges.contains : CodeRanges → Nat → Bool
  | [], _ => false
  | (first, last) :: rest, code => if code < first then false else code ≤ last || contains rest code

/-- The ranges ascend and no two of them touch. -/
def CodeRanges.Ascending : CodeRanges → Prop
  | [] => True
  | (first, last) :: rest => first ≤ last ∧ (∀ range ∈ rest, last + 1 < range.1) ∧ Ascending rest

/-- On ascending ranges the early stop loses nothing. -/
theorem CodeRanges.contains_iff {ranges : CodeRanges} (h : ranges.Ascending) (code : Nat) :
    ranges.contains code = true ↔ ∃ range ∈ ranges, range.1 ≤ code ∧ code ≤ range.2 := by
  induction ranges with
  | nil => simp [contains]
  | cons range rest ih =>
    obtain ⟨first, last⟩ := range
    obtain ⟨_, habove, hrest⟩ := h
    unfold contains
    by_cases hc : code < first
    · simp only [hc, if_true, Bool.false_eq_true, List.mem_cons, false_iff]
      rintro ⟨range, rfl | hmem, hle, _⟩
      · omega
      · have := habove range hmem
        omega
    · simp [hc, ih hrest, Nat.le_of_not_lt hc]

end SqlEngine.Unicode
