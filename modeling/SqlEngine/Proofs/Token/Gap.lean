import SqlEngine.Token.Scan

/-!
# Gaps

A gap is white space and comments in front of something (`Gap`). What lies in front of a token or of the end is dropped as the longest
gap that starts there (`exists_longest`, `Longest.dropGap_eq`), and nothing is in front of what is left (`longest_of_dropGap_eq`).
-/

namespace SqlEngine

/-- White space and comments in front of what follows. A comment runs up to the end of its line, which is not part of it, or to the
end of the text. -/
inductive Gap : (gap rest : List Char) → Prop
  | nothing (rest : List Char) : Gap [] rest
  | blank {c : Char} {gap rest : List Char} (hc : Unicode.isWhiteSpace c = true) (h : Gap gap rest) : Gap (c :: gap) rest
  | comment {body gap rest : List Char} (hbody : '\n' ∉ body) (hend : ∀ c ∈ (gap ++ rest).head?, c = '\n') (h : Gap gap rest) :
      Gap ('-' :: '-' :: (body ++ gap)) rest

namespace Gap

/-- A gap is longest if no gap from the same point on is longer. -/
def Longest (gap rest : List Char) : Prop :=
  Gap gap rest ∧ ∀ other after, Gap other after → other ++ after = gap ++ rest → other.length ≤ gap.length

/-! ## Dropping gaps -/

/-- What is dropped in front of a character that does not start a comment. -/
theorem dropGap_cons {c : Char} {rest : List Char} (h : c = '-' → rest.head? ≠ some '-') :
    dropGap false (c :: rest) = if Unicode.isWhiteSpace c then dropGap false rest else c :: rest := by
  rw [dropGap]
  intro after hhyphen hafter
  exact h hhyphen (congrArg List.head? hafter)

theorem dropGap_blank {c : Char} (hc : Unicode.isWhiteSpace c = true) (rest : List Char) :
    dropGap false (c :: rest) = dropGap false rest := by
  rw [dropGap_cons, if_pos hc]
  rintro rfl
  exact absurd hc (by decide)

/-- A comment is dropped up to the end of its line. -/
theorem dropGap_comment {body rest : List Char} (hbody : '\n' ∉ body) (hend : ∀ c ∈ rest.head?, c = '\n') :
    dropGap true (body ++ rest) = dropGap false rest := by
  induction body with
  | nil =>
    cases rest with
    | nil => rfl
    | cons c after =>
      obtain rfl := hend c rfl
      exact (dropGap_blank (by decide) after).symm
  | cons c after ih =>
    rw [List.mem_cons, not_or] at hbody
    obtain ⟨hc, hafter⟩ := hbody
    rw [List.cons_append, dropGap, bne_iff_ne.mpr (Ne.symm hc), ih hafter]

/-- A gap is dropped together with whatever gap follows it. -/
theorem dropGap_append {gap rest : List Char} (h : Gap gap rest) : dropGap false (gap ++ rest) = dropGap false rest := by
  induction h with
  | nothing rest => rfl
  | blank hc _ ih => rw [List.cons_append, dropGap_blank hc, ih]
  | @comment body gap rest hbody hend _ ih =>
    rw [List.cons_append, List.cons_append, dropGap, List.append_assoc, dropGap_comment hbody hend, ih]

/-- What is dropped from a text is a gap, and in a comment first what is left of it. -/
theorem exists_gap (inComment : Bool) (text : List Char) : ∃ body gap, text = body ++ (gap ++ dropGap inComment text) ∧
    Gap gap (dropGap inComment text) ∧ (inComment = false → body = []) ∧
    '\n' ∉ body ∧ (inComment = true → ∀ c ∈ (gap ++ dropGap inComment text).head?, c = '\n') := by
  fun_induction dropGap inComment text with
  | case1 inComment => exact ⟨[], [], rfl, nothing [], fun _ => rfl, List.not_mem_nil, by simp⟩
  | case2 c rest ih =>
    obtain ⟨body, gap, hsplit, hgap, hempty, hbody, hend⟩ := ih
    by_cases hc : c = '\n'
    · -- The comment is over; its line ends with a blank.
      subst hc
      have hnone : body = [] := hempty rfl
      subst hnone
      exact ⟨[], '\n' :: gap, congrArg ('\n' :: ·) hsplit, blank (by decide) hgap, fun _ => rfl, List.not_mem_nil, by simp⟩
    · have hstays : (c != '\n') = true := bne_iff_ne.mpr hc
      refine ⟨c :: body, gap, congrArg (c :: ·) hsplit, hgap, by simp, ?_, fun _ => hend hstays⟩
      rw [List.mem_cons, not_or]
      exact ⟨Ne.symm hc, hbody⟩
  | case3 rest ih =>
    obtain ⟨body, gap, hsplit, hgap, _, hbody, hend⟩ := ih
    refine ⟨[], '-' :: '-' :: (body ++ gap), ?_, comment hbody (hend rfl) hgap, fun _ => rfl, List.not_mem_nil, by simp⟩
    rw [List.nil_append, List.cons_append, List.cons_append, List.append_assoc, ← hsplit]
  | case4 c rest _ hc ih =>
    obtain ⟨body, gap, hsplit, hgap, hempty, _, _⟩ := ih
    have hnone : body = [] := hempty rfl
    subst hnone
    exact ⟨[], c :: gap, congrArg (c :: ·) hsplit, blank hc hgap, fun _ => rfl, List.not_mem_nil, by simp⟩
  | case5 c rest _ hc => exact ⟨[], [], rfl, nothing _, fun _ => rfl, List.not_mem_nil, by simp⟩

/-! ## Longest gaps -/

/-- A gap is longest if nothing more can be dropped after it. -/
theorem longest_of_dropGap_eq {gap rest : List Char} (h : Gap gap rest) (hrest : dropGap false rest = rest) : Longest gap rest := by
  refine ⟨h, fun other after hother hsame => ?_⟩
  have hdrop : rest = dropGap false after := by rw [← hrest, ← h.dropGap_append, ← hsame, hother.dropGap_append]
  have hle := length_dropGap_le false after
  have hlength := congrArg List.length hsame
  rw [← hdrop] at hle
  rw [List.length_append, List.length_append] at hlength
  omega

/-- In front of every text is a longest gap, and what follows it is what is left when gaps are dropped. -/
theorem exists_longest (text : List Char) : ∃ gap, text = gap ++ dropGap false text ∧ Longest gap (dropGap false text) := by
  obtain ⟨body, gap, hsplit, hgap, hempty, -, -⟩ := exists_gap false text
  have hnone : body = [] := hempty rfl
  subst hnone
  refine ⟨gap, hsplit, longest_of_dropGap_eq hgap ?_⟩
  rw [← hgap.dropGap_append, ← List.nil_append (gap ++ _), ← hsplit]

/-- What follows a longest gap is what is left when gaps are dropped. -/
theorem Longest.dropGap_eq {gap rest : List Char} (h : Longest gap rest) : dropGap false (gap ++ rest) = rest := by
  obtain ⟨other, hsplit, hother⟩ := exists_longest (gap ++ rest)
  have hle := h.2 other _ hother.1 hsplit.symm
  have hge := hother.2 gap rest h.1 hsplit
  exact (List.append_inj hsplit (Nat.le_antisymm hge hle)).2.symm

end Gap

end SqlEngine
