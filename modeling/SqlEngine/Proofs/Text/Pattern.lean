import Mathlib.Data.List.Infix
import SqlEngine.Proofs.Condition.Predicate

/-!
# What a wildcard pattern matches

A written pattern generates texts, character by character (`Pattern.Generates`). The search marks the places of a text from its end
to its front, and a place is marked exactly when the pattern generates a stretch of the text that begins there (`begins_iff`). So a
wildcard match holds of a text exactly when the text can be taken apart into what goes before such a stretch, the stretch, and what
comes after it (`like_iff_generates_stretch`).
-/

namespace SqlEngine

namespace Pattern

/-- The pattern as it is written generates the text: a percent sign any run of characters, an underscore any one character, and
every other character itself. -/
inductive Generates : List Char → List Char → Prop where
  | nil : Generates [] []
  | anyRun (run : List Char) {pattern text : List Char} (h : Generates pattern text) : Generates ('%' :: pattern) (run ++ text)
  | anyOne (c : Char) {pattern text : List Char} (h : Generates pattern text) : Generates ('_' :: pattern) (c :: text)
  | exactly (c : Char) (hrun : c ≠ '%') (hone : c ≠ '_') {pattern text : List Char} (h : Generates pattern text) :
    Generates (c :: pattern) (c :: text)

theorem generates_anyRun_iff {pattern text : List Char} :
    Generates ('%' :: pattern) text ↔ ∃ run later, text = run ++ later ∧ Generates pattern later := by
  constructor
  · intro h
    cases h with
    | anyRun run h => exact ⟨run, _, rfl, h⟩
    | exactly _ hrun _ _ => exact absurd rfl hrun
  · rintro ⟨run, later, rfl, h⟩
    exact .anyRun run h

theorem generates_anyOne_iff {pattern text : List Char} :
    Generates ('_' :: pattern) text ↔ ∃ c later, text = c :: later ∧ Generates pattern later := by
  constructor
  · intro h
    cases h with
    | anyOne c h => exact ⟨c, _, rfl, h⟩
    | exactly c _ hone _ => exact absurd rfl hone
  · rintro ⟨c, later, rfl, h⟩
    exact .anyOne c h

theorem generates_exactly_iff {c : Char} (hrun : c ≠ '%') (hone : c ≠ '_') {pattern text : List Char} :
    Generates (c :: pattern) text ↔ ∃ later, text = c :: later ∧ Generates pattern later := by
  constructor
  · intro h
    cases h with
    | anyRun _ _ => exact absurd rfl hrun
    | anyOne _ _ => exact absurd rfl hone
    | exactly _ _ _ h => exact ⟨_, rfl, h⟩
  · rintro ⟨later, rfl, h⟩
    exact .exactly c hrun hone h

/-- Every character but the two wildcards is a sign for itself. -/
theorem signOf_of_ne {c : Char} (hrun : c ≠ '%') (hone : c ≠ '_') : signOf c = .exactly c := by
  unfold signOf
  split
  · exact absurd rfl hrun
  · exact absurd rfl hone
  · rfl

/-! ## The marks of a search -/

/-- Whether the pattern generates some stretch at the front of a text, tried sign by sign. -/
def begins : Pattern → List Char → Bool
  | [], _ => true
  | .anyRun :: rest, text => text.tails.any (begins rest)
  | .anyOne :: _, [] => false
  | .anyOne :: rest, _ :: text => begins rest text
  | .exactly _ :: _, [] => false
  | .exactly c :: rest, found :: text => found == c && begins rest text

/-- Marking what comes before a marked place marks the suffixes that have a marked suffix. -/
theorem fromHereOn_map_tails (mark : List Char → Bool) (text : List Char) :
    fromHereOn (text.tails.map mark) = text.tails.map fun rest => rest.tails.any mark := by
  induction text with
  | nil => simp [fromHereOn]
  | cons c text ih =>
    rw [List.tails_cons, List.map_cons, fromHereOn, ih, List.map_cons, List.tails_cons, List.any_cons]
    cases text <;> simp

/-- The search keeps for every place whether the pattern generates some stretch that begins there. -/
theorem fits_eq_map_begins (pattern : Pattern) : ∀ text, fits pattern text = text.tails.map (begins pattern) := by
  induction pattern with
  | nil =>
    intro text
    have hconst : begins [] = fun _ => true := by
      funext rest
      rw [begins]
    rw [fits, hconst, List.map_const', List.length_tails]
  | cons sign rest ih =>
    cases sign with
    | anyRun =>
      intro text
      have hfirst : begins (.anyRun :: rest) = fun text => text.tails.any (begins rest) := by
        funext text
        rw [begins]
      rw [fits, ih, fromHereOn_map_tails, hfirst]
    | anyOne =>
      intro text
      rw [fits, ih]
      induction text with
      | nil => simp [begins]
      | cons c text ihText =>
        rw [List.tails_cons, List.map_cons, List.map_cons, begins, ← ihText]
        cases text <;> simp
    | exactly c =>
      intro text
      rw [fits, ih]
      induction text with
      | nil => simp [begins]
      | cons found text ihText =>
        rw [List.tails_cons, List.map_cons, List.map_cons, begins, ← ihText]
        cases text <;> simp

/-- The signs of a written pattern begin a text exactly when the pattern generates a stretch at its front. -/
theorem begins_iff {pattern : List Char} : ∀ {text : List Char},
    begins (pattern.map signOf) text = true ↔ ∃ mid post, text = mid ++ post ∧ Generates pattern mid := by
  induction pattern with
  | nil =>
    intro text
    exact iff_of_true (by rw [List.map_nil, begins]) ⟨[], text, rfl, .nil⟩
  | cons c pattern ih =>
    intro text
    rw [List.map_cons]
    by_cases hrun : c = '%'
    · subst hrun
      rw [show signOf '%' = .anyRun from rfl, begins, List.any_eq_true]
      simp only [List.mem_tails, ih, generates_anyRun_iff]
      constructor
      · rintro ⟨_, ⟨run, rfl⟩, mid, post, rfl, h⟩
        exact ⟨run ++ mid, post, (List.append_assoc _ _ _).symm, run, mid, rfl, h⟩
      · rintro ⟨_, post, rfl, run, later, rfl, h⟩
        exact ⟨later ++ post, ⟨run, (List.append_assoc _ _ _).symm⟩, later, post, rfl, h⟩
    · by_cases hone : c = '_'
      · subst hone
        rw [show signOf '_' = .anyOne from rfl]
        simp only [generates_anyOne_iff]
        cases text with
        | nil => simp [begins]
        | cons first text =>
          rw [begins, ih]
          constructor
          · rintro ⟨mid, post, rfl, h⟩
            exact ⟨first :: mid, post, rfl, first, mid, rfl, h⟩
          · rintro ⟨_, post, htext, c, later, rfl, h⟩
            exact ⟨later, post, (List.cons_eq_cons.mp htext).2, h⟩
      · rw [signOf_of_ne hrun hone]
        simp only [generates_exactly_iff hrun hone]
        cases text with
        | nil => simp [begins]
        | cons first text =>
          rw [begins, Bool.and_eq_true, beq_iff_eq, ih]
          constructor
          · rintro ⟨rfl, mid, post, rfl, h⟩
            exact ⟨first :: mid, post, rfl, mid, rfl, h⟩
          · rintro ⟨_, post, htext, later, rfl, h⟩
            obtain ⟨hfirst, hrest⟩ := List.cons_eq_cons.mp htext
            exact ⟨hfirst, later, post, hrest, h⟩

/-- A pattern matches a text exactly when it generates some stretch of it. -/
theorem matchesWithin_read_iff (pattern text : String) : (read pattern).matchesWithin text = true ↔
    ∃ pre mid post : String, text = pre ++ mid ++ post ∧ Generates pattern.toList mid.toList := by
  rw [matchesWithin, fits_eq_map_begins, List.any_map, List.any_eq_true]
  simp only [List.mem_tails, Function.comp, id, read, begins_iff]
  constructor
  · rintro ⟨_, ⟨pre, htext⟩, mid, post, rfl, h⟩
    refine ⟨String.ofList pre, String.ofList mid, String.ofList post, ?_, by rwa [String.toList_ofList]⟩
    rw [← String.toList_inj, ← htext]
    simp
  · rintro ⟨pre, mid, post, rfl, h⟩
    refine ⟨mid.toList ++ post.toList, ⟨pre.toList, ?_⟩, mid.toList, post.toList, rfl, h⟩
    rw [String.toList_append, String.toList_append, List.append_assoc]

end Pattern

/-- A wildcard match whose pattern can be made ready holds of a text exactly when the text can be split around a stretch that the
pattern generates, and of no integer. -/
theorem Predicate.like_iff_generates_stretch [Pattern.Compiler] (column pattern : String)
    (hcompiles : ∃ compiled, Pattern.compile pattern = .ok compiled) :
    ∃ test, (⟨column, .like, .text pattern⟩ : Predicate).valueTest = .ok test ∧
      (∀ text, test.passes (.text text) = true ↔
        ∃ pre mid post : String, text = pre ++ mid ++ post ∧ Pattern.Generates pattern.toList mid.toList) ∧
      ∀ n, test.passes (.int n) = false := by
  obtain ⟨compiled, hcompiled⟩ := hcompiles
  refine ⟨.wildcard compiled, ?_, fun text => ?_, fun _ => rfl⟩
  · rw [valueTest_of_text rfl rfl, hcompiled]
    rfl
  · rw [ValueTest.passes, pattern_of_compile hcompiled]
    exact Pattern.matchesWithin_read_iff pattern text

/-- A pattern with a point between wildcards finds a stretch of a text over a line break, and none in a text where the point has no
character behind it. -/
theorem Predicate.like_iff_generates_stretch_overLines :
    letI : Pattern.Compiler := .unbounded
    (∃ compiled, Pattern.compile "a%._" = .ok compiled) ∧
      ∃ test, (⟨"s", .like, .text "a%._"⟩ : Predicate).valueTest = .ok test ∧
        test.passes (.text "(aé\n.\n") = true ∧ test.passes (.text "(aé\n.") = false := by
  let : Pattern.Compiler := .unbounded
  have hcompiles : ∃ compiled, Pattern.compile "a%._" = .ok compiled := ⟨_, rfl⟩
  obtain ⟨test, htest, htexts, -⟩ := like_iff_generates_stretch "s" "a%._" hcompiles
  refine ⟨hcompiles, test, htest, (htexts _).mpr ⟨"(", "aé\n.\n", "", by decide, ?_⟩, ?_⟩
  · exact .exactly 'a' (by decide) (by decide) (.anyRun ['é', '\n'] (.exactly '.' (by decide) (by decide) (.anyOne '\n' .nil)))
  · have hread : .ok (.wildcard (Pattern.read "a%._")) = (.ok test : Except Error ValueTest) := htest
    obtain rfl := Except.ok.inj hread
    decide

end SqlEngine
