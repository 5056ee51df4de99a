import SqlEngine.Proofs.Token.Passing

/-!
# Where readers halt

A reader that runs out of fuel has not come to an end. With more fuel it may, and then nothing else is read than with still more
(`ContinuedBy`). Readers need fuel because the last token of a list is never left: one that takes a token moves on, unless there is no
other token (`MovesOn`).
-/

namespace SqlEngine

namespace Reader

variable {α β : Type}

/-- A reader that fails before it gives its value up to a function fails as itself. -/
theorem error_of_run_bind_pure {reader : Reader α} {f : α → β} {tokens : List Token} {cause : ParseError}
    (h : (reader >>= fun value => pure (f value)).run tokens = .error cause) : reader.run tokens = .error cause := by
  cases hrun : reader.run tokens with
  | error other =>
    rw [run_bind_of_error hrun] at h
    exact congrArg _ (Except.error.inj h)
  | ok result => exact nomatch (run_bind_of_ok hrun).symm.trans h

/-! ## More fuel -/

/-- Where the reader comes to an end, the other one comes to the same. -/
def ContinuedBy (reader other : Reader α) : Prop :=
  ∀ tokens, reader.run tokens = .error .endless ∨ other.run tokens = reader.run tokens

section

variable {reader other third : Reader α}

theorem continuedBy_refl (reader : Reader α) : ContinuedBy reader reader := fun _ => Or.inr rfl

theorem continuedBy_of_endless : ContinuedBy (throw .endless) reader := fun _ => Or.inl rfl

theorem ContinuedBy.trans (h : ContinuedBy reader other) (hthird : ContinuedBy other third) : ContinuedBy reader third := by
  intro tokens
  rcases h tokens with hend | hsame
  · exact Or.inl hend
  · rw [← hsame]
    exact hthird tokens

/-- What goes on for ever with more fuel does so with less. -/
theorem ContinuedBy.endless (h : ContinuedBy reader other) {tokens : List Token} (hother : other.run tokens = .error .endless) :
    reader.run tokens = .error .endless :=
  (h tokens).elim id fun hsame => hsame.symm.trans hother

/-- A result does not change with more fuel. -/
theorem ContinuedBy.ok (h : ContinuedBy reader other) {tokens rest : List Token} {value : α}
    (hreader : reader.run tokens = .ok (value, rest)) : other.run tokens = .ok (value, rest) := by
  rcases h tokens with hend | hsame
  · exact nomatch hend.symm.trans hreader
  · exact hsame.trans hreader

/-- Readers in a row continue readers in a row. -/
theorem ContinuedBy.bind {next more : α → Reader β} (h : ContinuedBy reader other) (hnext : ∀ value, ContinuedBy (next value) (more value)) :
    ContinuedBy (reader >>= next) (other >>= more) := by
  intro tokens
  rcases h tokens with hend | hsame
  · exact Or.inl (run_bind_of_error hend)
  · rw [StateT.run_bind, StateT.run_bind, hsame]
    cases reader.run tokens with
    | error cause => exact Or.inr rfl
    | ok result => exact hnext result.1 result.2

theorem ContinuedBy.ite {first more : Reader α} (c : Prop) [Decidable c] (h : ContinuedBy reader other) (helse : ContinuedBy first more) :
    ContinuedBy (if c then reader else first) (if c then other else more) := by
  split
  · exact h
  · exact helse

/-- Behind one and the same first reader, more fuel is more fuel for what follows. -/
theorem continuedBy_bind {next more : α → Reader β} (hnext : ∀ value, ContinuedBy (next value) (more value)) :
    ContinuedBy (reader >>= next) (reader >>= more) :=
  (continuedBy_refl reader).bind hnext

end

/-- Among readers with ever more fuel, each is continued by all later ones. -/
theorem continuedBy_of_le {readers : Nat → Reader α} (h : ∀ fuel, ContinuedBy (readers fuel) (readers (fuel + 1))) {fuel more : Nat}
    (hle : fuel ≤ more) : ContinuedBy (readers fuel) (readers more) := by
  induction hle with
  | refl => exact continuedBy_refl _
  | step _ ih => exact ih.trans (h _)

/-- Where some more fuel ever again is not enough, no fuel is. -/
theorem endless_of_large {readers : Nat → Reader α} (h : ∀ fuel, ContinuedBy (readers fuel) (readers (fuel + 1)))
    {tokens : List Token} (least : Nat) (hlarge : ∀ fuel, least ≤ fuel → (readers fuel).run tokens = .error .endless) (fuel : Nat) :
    (readers fuel).run tokens = .error .endless :=
  (continuedBy_of_le h (Nat.le_max_left fuel least)).endless (hlarge _ (Nat.le_max_right fuel least))

/-! ## Moving on -/

/-- One token or more is left behind, unless the list has no other token than the one at its front. -/
def MovesOn (tokens rest : List Token) : Prop := rest.length < tokens.length ∨ tokens.length ≤ 1 ∧ rest = tokens

theorem run_advance_moves (tokens : List Token) : ∃ rest, advance.run tokens = .ok ((), rest) ∧ MovesOn tokens rest := by
  match tokens with
  | [] => exact ⟨[], rfl, Or.inr ⟨Nat.zero_le 1, rfl⟩⟩
  | [token] => exact ⟨[token], rfl, Or.inr ⟨Nat.le_refl 1, rfl⟩⟩
  | token :: next :: rest => exact ⟨next :: rest, rfl, Or.inl (Nat.lt_succ_self _)⟩

section

variable {sign : Token} {tokens rest : List Token}

theorem advance_moves (h : advance.run tokens = .ok ((), rest)) : MovesOn tokens rest := by
  obtain ⟨after, hrun, hmoves⟩ := run_advance_moves tokens
  obtain rfl : after = rest := congrArg Prod.snd (Except.ok.inj (hrun.symm.trans h))
  exact hmoves

theorem eat_moves (h : (eat sign).run tokens = .ok (true, rest)) : MovesOn tokens rest := by
  rw [eat, run_bind_of_ok (run_peek _)] at h
  split at h
  · obtain ⟨after, hrun, hmoves⟩ := run_advance_moves tokens
    rw [run_bind_of_ok hrun] at h
    obtain rfl : after = rest := congrArg Prod.snd (Except.ok.inj h)
    exact hmoves
  · exact absurd (congrArg Prod.fst (Except.ok.inj h)) Bool.false_ne_true

theorem expect_moves (h : (expect sign).run tokens = .ok ((), rest)) : MovesOn tokens rest := by
  rw [expect, run_bind_of_ok (run_peek _)] at h
  split at h
  · exact advance_moves h
  · have hfails : Except.error (ParseError.unexpected (.token sign) (tokens.headD .eof)) = .ok ((), rest) := h
    cases hfails

/-- A token that is taken from the end of a list stands there alone. -/
theorem eat_cases (hne : sign ≠ .eof) (h : (eat sign).run tokens = .ok (true, rest)) :
    rest ≠ [] ∧ rest.length < tokens.length ∨ rest = [sign] := by
  cases tokens with
  | nil =>
    rw [eat, run_bind_of_ok (run_peek _), List.headD_nil, if_neg hne.symm] at h
    exact absurd (congrArg Prod.fst (Except.ok.inj h)) Bool.false_ne_true
  | cons found others =>
    by_cases heq : found = sign
    · subst heq
      by_cases hothers : others = []
      · subst hothers
        exact Or.inr (congrArg Prod.snd (Except.ok.inj (h.symm.trans (run_eat_last found))))
      · obtain rfl : others = rest := congrArg Prod.snd (Except.ok.inj ((run_eat_self hothers found).symm.trans h))
        exact Or.inl ⟨hothers, Nat.lt_succ_self _⟩
    · have hstops : GoesOn [sign] (found :: others) := goesOn_cons (by simpa using heq) others
      exact absurd (congrArg Prod.fst (Except.ok.inj ((run_eat_of_goesOn hstops).symm.trans h))) Bool.false_ne_true

end

/-- Behind the sign, the reader leaves fewer tokens than there were before the sign. -/
def MovesBehind (sign : Token) (item : Reader α) : Prop :=
  ∀ tokens between rest value, (eat sign).run tokens = .ok (true, between) → item.run between = .ok (value, rest) →
    rest.length < tokens.length

/-- The reader leaves no more tokens than it is given. -/
def NeverLengthens (item : Reader α) : Prop :=
  ∀ tokens rest value, tokens ≠ [] → item.run tokens = .ok (value, rest) → rest.length ≤ tokens.length

theorem PassesFrom.length_le {last : Token} {tokens rest : List Token} {item : Reader α} {form : List Token → α → Prop}
    {caught : List Token → Prop} {value : α} (h : PassesFrom last tokens item form caught)
    (hrun : item.run tokens = .ok (value, rest)) : rest.length ≤ tokens.length := by
  rw [PassesFrom, hrun] at h
  obtain ⟨-, taken, rfl, -⟩ := h
  rw [List.length_append]
  omega

theorem neverLengthens_of_passes {item : Reader α} {form : List Token → α → Prop} {caught : List Token → Prop}
    (h : ∀ {last bound}, Passes last bound item form caught) : NeverLengthens item :=
  fun tokens _ _ hne hrun => (h tokens (List.getLast?_eq_some_getLast hne) (Nat.le_refl _)).length_le hrun

/-- With less fuel than is enough there may be no result, but not one that leaves more. -/
theorem neverLengthens_of_large {readers : Nat → Reader α} {form : List Token → α → Prop} {caught : List Token → Prop}
    (h : ∀ fuel, ContinuedBy (readers fuel) (readers (fuel + 1)))
    (hlarge : ∀ last bound, ∃ least, ∀ fuel, least ≤ fuel → Passes last bound (readers fuel) form caught) (fuel : Nat) :
    NeverLengthens (readers fuel) := by
  intro tokens rest value hne hrun
  obtain ⟨least, hpasses⟩ := hlarge (tokens.getLast hne) tokens.length
  have hmore := (continuedBy_of_le h (Nat.le_max_left fuel least)).ok hrun
  exact (hpasses _ (Nat.le_max_right fuel least) tokens (List.getLast?_eq_some_getLast hne) (Nat.le_refl _)).length_le hmore

/-- A reader that gives nothing at the sign itself moves on behind it. -/
theorem NeverLengthens.movesBehind {item : Reader α} (h : NeverLengthens item) {sign : Token} (hne : sign ≠ .eof)
    (hsign : ∃ cause, item.run [sign] = .error cause) : MovesBehind sign item := by
  intro tokens between rest value heat hitem
  rcases eat_cases hne heat with ⟨hbetween, hlength⟩ | rfl
  · exact Nat.lt_of_le_of_lt (h between rest value hbetween hitem) hlength
  · obtain ⟨cause, hsign⟩ := hsign
    exact nomatch hsign.symm.trans hitem

end Reader

end SqlEngine
