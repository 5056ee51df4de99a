import SqlEngine.Token.Scan

/-!
# The characters of words

What the tables say of the characters that decide where words begin and end: digits continue words but do not start them
(`startsWord_of_isDigit`), white space does neither (`continuesWord_of_isWhiteSpace`), and a letter whose ASCII capital letter is
asked for starts a word and has no other capital form (`startsWord_of_toUpper`, `asciiCapitals_of_toUpper`).
-/

namespace SqlEngine

namespace Unicode.CodeRanges

theorem contains_first {first last code : Nat} (hfirst : first ≤ code) (hlast : code ≤ last) (rest : CodeRanges) :
    contains ((first, last) :: rest) code = true := by
  rw [contains, if_neg (Nat.not_lt.mpr hfirst), decide_eq_true hlast, Bool.true_or]

theorem contains_later {first code : Nat} {rest : CodeRanges} (hfirst : first ≤ code) (hrest : rest.contains code = true)
    (last : Nat) : contains ((first, last) :: rest) code = true := by
  rw [contains, if_neg (Nat.not_lt.mpr hfirst), hrest, Bool.or_true]

end Unicode.CodeRanges

/-! ## Digits and white space -/

/-- No alphabetic character comes before the capital letters. -/
theorem startsWord_eq_false {c : Char} (h : c.toNat < 0x41) : startsWord c = false := by
  have halphabetic : Unicode.isAlphabetic c = false := by
    unfold Unicode.isAlphabetic Unicode.alphabetic Unicode.CodeRanges.contains
    exact if_pos h
  have hne : c ≠ '_' := by
    rintro rfl
    exact absurd h (by decide)
  rw [startsWord, halphabetic, Bool.false_or]
  exact beq_false_of_ne hne

theorem isDigit_bounds {c : Char} (h : c.isDigit = true) : 0x30 ≤ c.toNat ∧ c.toNat ≤ 0x39 := by
  rw [Char.isDigit, Bool.and_eq_true, decide_eq_true_eq, decide_eq_true_eq] at h
  exact ⟨h.1, h.2⟩

theorem startsWord_of_isDigit {c : Char} (h : c.isDigit = true) : startsWord c = false :=
  startsWord_eq_false (by have := isDigit_bounds h; omega)

theorem ascending_whiteSpace : Unicode.whiteSpace.Ascending := by
  simp [Unicode.CodeRanges.Ascending, Unicode.whiteSpace]

/-- No range of white space meets the alphabetic or the numeric ones. -/
theorem whiteSpace_apart : ∀ range ∈ Unicode.whiteSpace, ∀ code ∈ List.range' range.1 (range.2 + 1 - range.1),
    Unicode.alphabetic.contains code = false ∧ Unicode.numeric.contains code = false := by
  decide +kernel

/-- White space ends a word. -/
theorem continuesWord_of_isWhiteSpace {c : Char} (h : Unicode.isWhiteSpace c = true) : continuesWord c = false := by
  -- White space is few enough code points to look each of them up in the tables.
  obtain ⟨range, hrange, hfirst, hlast⟩ := (Unicode.CodeRanges.contains_iff ascending_whiteSpace _).mp h
  have hcode : c.toNat ∈ List.range' range.1 (range.2 + 1 - range.1) := List.mem_range'_1.mpr ⟨hfirst, by omega⟩
  obtain ⟨halphabetic, hnumeric⟩ := whiteSpace_apart range hrange _ hcode
  have hne : c ≠ '_' := by
    rintro rfl
    exact absurd h (by decide)
  rw [continuesWord, Unicode.isAlphabetic, Unicode.isNumeric, halphabetic, hnumeric]
  exact beq_false_of_ne hne

theorem continuesWord_of_isDigit {c : Char} (h : c.isDigit = true) : continuesWord c = true := by
  obtain ⟨hfirst, hlast⟩ := isDigit_bounds h
  have hnumeric : Unicode.isNumeric c = true := Unicode.CodeRanges.contains_first hfirst hlast _
  rw [continuesWord, hnumeric, Bool.or_true, Bool.true_or]

theorem continuesWord_of_startsWord {c : Char} (h : startsWord c = true) : continuesWord c = true := by
  rw [startsWord, Bool.or_eq_true] at h
  rw [continuesWord, Bool.or_eq_true, Bool.or_eq_true]
  exact h.imp_left .inl

/-! ## Letters -/

/-- The letters that have a capital letter of the ASCII alphabet. -/
theorem bounds_of_toUpper {c : Char} (h : c.toUpper.isUpper = true) :
    (0x41 ≤ c.toNat ∧ c.toNat ≤ 0x5A) ∨ (0x61 ≤ c.toNat ∧ c.toNat ≤ 0x7A) := by
  unfold Char.toUpper at h
  split at h
  next hsmall => exact .inr hsmall
  next => exact .inl (of_decide_eq_true h)

theorem startsWord_of_toUpper {c : Char} (h : c.toUpper.isUpper = true) : startsWord c = true := by
  have halphabetic : Unicode.isAlphabetic c = true := by
    rcases bounds_of_toUpper h with ⟨hfirst, hlast⟩ | ⟨hfirst, hlast⟩
    · exact Unicode.CodeRanges.contains_first hfirst hlast _
    · have hlater : 0x41 ≤ c.toNat := by omega
      exact Unicode.CodeRanges.contains_later hlater (Unicode.CodeRanges.contains_first hfirst hlast _) _
  rw [startsWord, halphabetic, Bool.true_or]

/-- Only the ASCII capital letter is the capital form of such a letter. -/
theorem asciiCapitals_of_toUpper {c : Char} (h : c.toUpper.isUpper = true) : Unicode.asciiCapitals c = [c.toUpper] := by
  have hbounds := bounds_of_toUpper h
  unfold Unicode.asciiCapitals
  split
  case h_11 => rfl
  all_goals exact absurd hbounds (by decide)

end SqlEngine
