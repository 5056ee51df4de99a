import SqlEngine.Token.Scan

/-!
# Symbols as they are written

A symbol is written in one way or, if it is the sign for what differs, in two (`Symbol.spellings`), and no two symbols are written
alike. The symbol that is found at the front of a text is written there, and no symbol is written with that and the next character
(`scan?_eq_some`); if none is found, then none is written there (`scan?_spelling_append`).
-/

namespace SqlEngine

namespace Symbol

/-- The ways of writing a symbol. -/
def spellings : Symbol → List (List Char)
  | .leftParen => [['(']]
  | .rightParen => [[')']]
  | .comma => [[',']]
  | .semicolon => [[';']]
  | .star => [['*']]
  | .equal => [['=']]
  | .notEqual => [['!', '='], ['<', '>']]
  | .greater => [['>']]
  | .greaterEqual => [['>', '=']]
  | .lower => [['<']]
  | .lowerEqual => [['<', '=']]

/-- A symbol is written with two characters at most. -/
theorem length_spelling_le {sign : Symbol} : ∀ spelling ∈ sign.spellings, spelling.length ≤ 2 := by
  cases sign <;> decide

/-- A way of writing is that of one symbol, which is found in it. -/
theorem scan?_spelling {sign : Symbol} : ∀ spelling ∈ sign.spellings, scan? spelling = some (sign, []) := by
  cases sign <;> decide

/-- The symbols that are written with two characters. -/
theorem pair_of_spelling {first second : Char} {sign : Symbol} (h : [first, second] ∈ sign.spellings) :
    first = '!' ∧ second = '=' ∨ first = '<' ∧ (second = '=' ∨ second = '>') ∨ first = '>' ∧ second = '=' := by
  cases sign <;> simp only [spellings, List.mem_cons, List.not_mem_nil, List.cons.injEq, reduceCtorEq, and_false,
    and_true, or_false] at h
  case notEqual => rcases h with h | h <;> simp [h]
  all_goals simp [h]

/-- No symbol is written with three characters. -/
theorem triple_not_spelling (first second third : Char) (sign : Symbol) : [first, second, third] ∉ sign.spellings :=
  fun h => Nat.not_succ_le_self 2 (length_spelling_le _ h)

/-- A text that begins like a symbol begins with one. -/
theorem scan?_spelling_append {sign : Symbol} {spelling : List Char} (h : spelling ∈ sign.spellings) (rest : List Char) :
    scan? (spelling ++ rest) ≠ none := by
  cases sign <;> simp only [spellings, List.mem_cons, List.not_mem_nil, or_false] at h
  case notEqual =>
    rcases h with rfl | rfl
    · exact Option.some_ne_none _
    · exact Option.some_ne_none _
  -- Each of these signs is followed by anything that does not make it a longer one.
  case lower | greater =>
    subst h
    unfold scan?
    split <;> simp_all
  all_goals
    subst h
    exact Option.some_ne_none _

/-- The symbol at the front is written there in one of its ways, and no symbol goes on behind that. -/
theorem scan?_eq_some {text after : List Char} {sign : Symbol} (h : scan? text = some (sign, after)) :
    ∃ spelling ∈ sign.spellings, text = spelling ++ after ∧
      ∀ c ∈ after.head?, ∀ other : Symbol, spelling ++ [c] ∉ other.spellings := by
  unfold scan? at h
  split at h <;> simp only [Option.some.injEq, Prod.mk.injEq, reduceCtorEq] at h
  all_goals obtain ⟨rfl, rfl⟩ := h
  case h_7 | h_8 | h_11 => exact ⟨_, List.mem_cons_self, rfl, fun c _ => triple_not_spelling _ _ c⟩
  case h_9 => exact ⟨_, List.mem_cons_of_mem _ List.mem_cons_self, rfl, fun c _ => triple_not_spelling _ _ c⟩
  case h_10 hne hne' =>
    refine ⟨['<'], List.mem_cons_self, rfl, fun c hc other hother => ?_⟩
    obtain ⟨rest, rfl⟩ := List.head?_eq_some_iff.mp hc
    have hpair : c = '=' ∨ c = '>' := by simpa using pair_of_spelling hother
    rcases hpair with rfl | rfl
    · exact hne rest rfl
    · exact hne' rest rfl
  case h_12 hne =>
    refine ⟨['>'], List.mem_cons_self, rfl, fun c hc other hother => ?_⟩
    obtain ⟨rest, rfl⟩ := List.head?_eq_some_iff.mp hc
    have hpair : c = '=' := by simpa using pair_of_spelling hother
    exact hne rest (hpair ▸ rfl)
  all_goals
    refine ⟨_, List.mem_cons_self, rfl, fun c _ other hother => ?_⟩
    simpa using pair_of_spelling hother

end Symbol

end SqlEngine
