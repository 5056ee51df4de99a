import SqlEngine.Proofs.Token.Passing

/-!
# What readers accept

On a list that ends in the mark of the end, and has it nowhere else, a reader that ends well has taken the front of the list, and
one that fails has come to a token that does not fit; it never asks for the same token for ever. `Takes` says so of a
reader together with a form that whatever it takes has. A reader takes what it passes (`takes_of_passes`), since nothing catches it
at the mark of the end.
-/

namespace SqlEngine

namespace Reader

variable {α β : Type}

/-! ## Lists with a mark of the end -/

/-- The mark of the end stands at the end of the list, and nowhere else. -/
def Ended (tokens : List Token) : Prop := ∃ body, tokens = body ++ [.eof] ∧ .eof ∉ body

theorem ended_append {body : List Token} (h : .eof ∉ body) : Ended (body ++ [.eof]) := ⟨body, rfl, h⟩

theorem Ended.ne_nil {tokens : List Token} (h : Ended tokens) : tokens ≠ [] := by
  obtain ⟨body, rfl, -⟩ := h
  exact List.append_ne_nil_of_right_ne_nil body (List.cons_ne_nil _ _)

/-- Behind a token that is not the mark of the end, the list goes on to its end. -/
theorem Ended.tail {token : Token} {rest : List Token} (h : Ended (token :: rest)) (hne : token ≠ .eof) : Ended rest := by
  obtain ⟨body, heq, hbody⟩ := h
  cases body with
  | nil => exact absurd (List.cons.inj heq).1 hne
  | cons first others => exact ⟨others, (List.cons.inj heq).2, fun hmem => hbody (List.mem_cons_of_mem _ hmem)⟩

/-- What is left of such a list, if it has an end, is such a list. -/
theorem Ended.of_append {taken rest : List Token} (h : Ended (taken ++ rest)) (hrest : rest.getLast? = some .eof) : Ended rest := by
  obtain ⟨body, heq, hbody⟩ := h
  obtain ⟨left, rfl⟩ := List.getLast?_eq_some_iff.mp hrest
  rw [← List.append_assoc] at heq
  obtain rfl := List.append_cancel_right heq
  exact ⟨left, rfl, fun hmem => hbody (List.mem_append_right _ hmem)⟩

theorem Ended.getLast?_eq {tokens : List Token} (h : Ended tokens) : tokens.getLast? = some .eof := by
  obtain ⟨body, rfl, -⟩ := h
  exact List.getLast?_concat

/-- Behind the mark of the end there is nothing. -/
theorem Ended.eq_nil_of_eof {rest : List Token} (h : Ended (.eof :: rest)) : rest = [] := by
  obtain ⟨body, heq, hbody⟩ := h
  cases body with
  | nil => exact (List.cons.inj heq).2
  | cons first others => exact absurd (List.mem_cons.mpr (Or.inl (List.cons.inj heq).1)) hbody

/-! ## Taking -/

/-- The reader takes the front of the tokens, in the form, and leaves a rest with the mark of the end, or it fails at a token
that does not fit. -/
def TakesFrom (tokens : List Token) (reader : Reader α) (form : List Token → α → Prop) : Prop :=
  match reader.run tokens with
  | .ok (value, rest) => Ended rest ∧ ∃ taken, tokens = taken ++ rest ∧ form taken value
  | .error cause => ∃ needed found, cause = .unexpected needed found

/-- From every list with the mark of the end that is no longer than the bound, the reader takes something of the form. -/
def Takes (bound : Nat) (reader : Reader α) (form : List Token → α → Prop) : Prop :=
  ∀ tokens, Ended tokens → tokens.length ≤ bound → TakesFrom tokens reader form

section

variable {reader : Reader α} {form : List Token → α → Prop}

/-- What the reader does on a list of its own. -/
theorem takesFrom_of_ok {tokens rest taken : List Token} {value : α} (h : reader.run tokens = .ok (value, rest))
    (hended : Ended rest) (htokens : tokens = taken ++ rest) (hform : form taken value) : TakesFrom tokens reader form := by
  rw [TakesFrom, h]
  exact ⟨hended, taken, htokens, hform⟩

/-- A reader takes what it goes past. -/
theorem takes_of_passes {bound : Nat} {caught : List Token → Prop} (h : Passes .eof bound reader form caught) :
    Takes bound reader form := by
  intro tokens hended hlength
  have hpasses := h tokens hended.getLast?_eq hlength
  unfold PassesFrom at hpasses
  unfold TakesFrom
  cases hrun : reader.run tokens with
  | error cause =>
    rw [hrun] at hpasses
    rcases hpasses with hunexpected | ⟨-, heq, -⟩
    · exact hunexpected
    · exact nomatch heq
  | ok result =>
    rw [hrun] at hpasses
    obtain ⟨hrest, taken, rfl, hform⟩ := hpasses
    exact ⟨hended.of_append hrest, taken, rfl, hform Token.stops_eof⟩

/-- What is taken in a form is taken in any weaker form. -/
theorem TakesFrom.mono {tokens : List Token} {weaker : List Token → α → Prop} (h : TakesFrom tokens reader form)
    (himp : ∀ taken value, form taken value → weaker taken value) : TakesFrom tokens reader weaker := by
  unfold TakesFrom at h ⊢
  cases hrun : reader.run tokens with
  | error cause =>
    rw [hrun] at h
    exact h
  | ok result =>
    rw [hrun] at h
    obtain ⟨hrest, taken, htokens, hform⟩ := h
    exact ⟨hrest, taken, htokens, himp taken result.1 hform⟩

/-- After what one reader takes from a list, another one takes from the rest. -/
theorem TakesFrom.bind {tokens : List Token} {next : α → Reader β} {whole : List Token → β → Prop}
    (hfirst : TakesFrom tokens reader form)
    (hnext : ∀ taken value rest, tokens = taken ++ rest → Ended rest → form taken value →
      TakesFrom rest (next value) fun later result => whole (taken ++ later) result) :
    TakesFrom tokens (reader >>= next) whole := by
  unfold TakesFrom at hfirst ⊢
  rw [StateT.run_bind]
  cases hrun : reader.run tokens with
  | error cause =>
    rw [hrun] at hfirst
    exact hfirst
  | ok result =>
    obtain ⟨value, rest⟩ := result
    rw [hrun] at hfirst
    obtain ⟨hrest, taken, rfl, hform⟩ := hfirst
    have hlater := hnext taken value rest rfl hrest hform
    unfold TakesFrom at hlater
    show match (next value).run rest with
      | .ok (result, rest') => Ended rest' ∧ ∃ taken', taken ++ rest = taken' ++ rest' ∧ whole taken' result
      | .error cause => ∃ needed found, cause = .unexpected needed found
    cases hrun' : (next value).run rest with
    | error cause =>
      rw [hrun'] at hlater
      exact hlater
    | ok result =>
      rw [hrun'] at hlater
      obtain ⟨hrest', later, rfl, hwhole⟩ := hlater
      exact ⟨hrest', taken ++ later, (List.append_assoc _ _ _).symm, hwhole⟩

end

/-- After a look for a token a reader goes on behind the token, or from where it was. -/
theorem takesFrom_eat_bind {α : Type} {token : Token} (hne : token ≠ .eof) {tokens : List Token} (hended : Ended tokens)
    {next : Bool → Reader α} {form : List Token → α → Prop}
    (hfound : ∀ rest, tokens = token :: rest → Ended rest →
      TakesFrom rest (next true) fun later result => form (token :: later) result)
    (hother : TakesFrom tokens (next false) form) : TakesFrom tokens (eat token >>= next) form := by
  obtain ⟨found, rest, rfl⟩ := List.exists_cons_of_ne_nil hended.ne_nil
  by_cases heq : found = token
  · subst heq
    have hrest := hended.tail hne
    have heat : TakesFrom (found :: rest) (eat found) fun taken eaten => taken = [found] ∧ eaten = true :=
      takesFrom_of_ok (run_eat_self hrest.ne_nil found) hrest rfl ⟨rfl, rfl⟩
    refine heat.bind ?_
    rintro _ _ others htokens hothers ⟨rfl, rfl⟩
    exact hfound others htokens hothers
  · have hstops : GoesOn [token] (found :: rest) := goesOn_cons (by simpa using heq) rest
    have heat : TakesFrom (found :: rest) (eat token) fun taken eaten => taken = [] ∧ eaten = false :=
      takesFrom_of_ok (run_eat_of_goesOn hstops) hended rfl ⟨rfl, rfl⟩
    refine heat.bind ?_
    rintro _ _ others htokens - ⟨rfl, rfl⟩
    obtain rfl : found :: rest = others := htokens
    exact hother

end Reader

end SqlEngine
