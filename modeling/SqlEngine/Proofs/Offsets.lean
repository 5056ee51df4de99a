import Mathlib.Data.List.Sort
import SqlEngine.Offsets

/-!
# Sets of offsets and their members

A set is known by its members (`Offsets.ext`), and it is empty exactly when it has none.
-/

namespace SqlEngine

namespace Offsets

/-- A set with an offset in it is not empty. -/
theorem isEmpty_eq_false_of_mem {offsets : Offsets} {offset : Nat} (h : offset ∈ offsets) : offsets.isEmpty = false := by
  rw [isEmpty, List.isEmpty_eq_false_iff]
  exact List.ne_nil_of_mem h

/-- There is no offset in an empty set. -/
theorem not_mem_of_isEmpty {offsets : Offsets} (h : offsets.isEmpty = true) (offset : Nat) : offset ∉ offsets := by
  intro hmem
  rw [isEmpty_eq_false_of_mem hmem] at h
  exact nomatch h

/-- Two sets with the same offsets in them are the same. -/
theorem ext {offsets others : Offsets} (h : ∀ offset, offset ∈ offsets ↔ offset ∈ others) : offsets = others := by
  obtain ⟨list, hlist⟩ := offsets
  obtain ⟨list', hlist'⟩ := others
  obtain rfl : list = list' := hlist.eq_of_mem_iff hlist' h
  rfl

end Offsets

end SqlEngine
