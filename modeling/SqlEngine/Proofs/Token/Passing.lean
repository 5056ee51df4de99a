import SqlEngine.Proofs.Token.Reader

/-!
# What becomes of readers

`Passes` says what becomes of a reader on a list of tokens with a given last token: it goes past a front of the list that has a form,
or it comes to a token that does not fit, or it is caught at an opening parenthesis at the end of the list, and then what stands
before the parenthesis has a form of its own. Readers in a row go past what each of them goes past in a row (`Passes.bind`), so that
the forms are found step by step along the definition of a reader.

The last token of a list can be taken again and again, so that what a reader has taken need not stand in the list. It does on
lists that end in the mark of the end, a semicolon or an opening parenthesis (`Token.Stops`), which no reader takes there without being
caught or refused, and only of these lists anything is said about the form.
-/

namespace SqlEngine

/-- A token that no reader takes when it is the last, unless it is caught there. -/
def Token.Stops (token : Token) : Prop := token = .eof ∨ token = .symbol .semicolon ∨ token = .symbol .leftParen

namespace Token

theorem stops_eof : eof.Stops := Or.inl rfl

theorem stops_leftParen : (symbol .leftParen).Stops := Or.inr (Or.inr rfl)

@[simp] theorem not_stops_keyword (word : Keyword) : ¬(keyword word).Stops := by simp [Stops]

@[simp] theorem not_stops_dataType (type : DataType) : ¬(dataType type).Stops := by simp [Stops]

@[simp] theorem not_stops_ident (name : String) : ¬(ident name).Stops := by simp [Stops]

@[simp] theorem not_stops_number (n : Int64) : ¬(number n).Stops := by simp [Stops]

@[simp] theorem not_stops_string (s : String) : ¬(string s).Stops := by simp [Stops]

@[simp] theorem stops_symbol {sign : Symbol} : (symbol sign).Stops ↔ sign = .semicolon ∨ sign = .leftParen := by
  simp [Stops]

end Token

namespace Reader

variable {α β : Type}

/-! ## Passing -/

/-- On the tokens, which end in the last one, the reader takes a front and leaves a rest, or it fails at a token that does not fit, or
it is caught at an opening parenthesis at the end. The front has the form if no reader takes the last token; what stands before the
parenthesis is said by `caught`. -/
def PassesFrom (last : Token) (tokens : List Token) (reader : Reader α) (form : List Token → α → Prop)
    (caught : List Token → Prop) : Prop :=
  match reader.run tokens with
  | .ok (value, rest) => rest.getLast? = some last ∧ ∃ taken, tokens = taken ++ rest ∧ (last.Stops → form taken value)
  | .error cause => (∃ needed found, cause = .unexpected needed found) ∨
      cause = .endless ∧ last = .symbol .leftParen ∧ ∃ front, tokens = front ++ [last] ∧ caught front

/-- So it is on every list that ends in the last token and is no longer than the bound. -/
def Passes (last : Token) (bound : Nat) (reader : Reader α) (form : List Token → α → Prop) (caught : List Token → Prop) : Prop :=
  ∀ tokens, tokens.getLast? = some last → tokens.length ≤ bound → PassesFrom last tokens reader form caught

/-- Nothing that a reader is caught behind. -/
def nowhere : List Token → Prop := fun _ => False

/-- At the token alone, the reader is refused. -/
def RefusedAt (token : Token) (reader : Reader α) : Prop := ∃ needed found, reader.run [token] = .error (.unexpected needed found)

section

variable {last : Token} {bound : Nat} {reader : Reader α} {form : List Token → α → Prop} {caught : List Token → Prop}
  {tokens : List Token}

theorem passesFrom_of_ok {rest taken : List Token} {value : α} (h : reader.run tokens = .ok (value, rest))
    (hrest : rest.getLast? = some last) (htokens : tokens = taken ++ rest) (hform : last.Stops → form taken value) :
    PassesFrom last tokens reader form caught := by
  rw [PassesFrom, h]
  exact ⟨hrest, taken, htokens, hform⟩

theorem passesFrom_of_unexpected {needed : Expectation} {found : Token}
    (h : reader.run tokens = .error (.unexpected needed found)) : PassesFrom last tokens reader form caught := by
  rw [PassesFrom, h]
  exact Or.inl ⟨needed, found, rfl⟩

theorem passesFrom_fail (needed : Expectation) (found : Token) : PassesFrom last tokens (fail needed found) form caught :=
  passesFrom_of_unexpected rfl

theorem passesFrom_of_refusedAt {token : Token} (h : RefusedAt token reader) : PassesFrom last [token] reader form caught := by
  obtain ⟨needed, found, hrun⟩ := h
  exact passesFrom_of_unexpected hrun

theorem passes_pure {value : α} (h : last.Stops → form [] value) : Passes last bound (pure value) form caught :=
  fun tokens hlast _ => passesFrom_of_ok (run_pure value tokens) hlast (List.nil_append tokens).symm h

theorem PassesFrom.mono {weaker : List Token → α → Prop} {caught' : List Token → Prop} (h : PassesFrom last tokens reader form caught)
    (himp : last.Stops → ∀ taken value, form taken value → weaker taken value)
    (hcaught : last.Stops → ∀ front, caught front → caught' front) : PassesFrom last tokens reader weaker caught' := by
  unfold PassesFrom at h ⊢
  cases hrun : reader.run tokens with
  | error cause =>
    rw [hrun] at h
    refine h.imp_right ?_
    rintro ⟨hend, rfl, front, htokens, hfront⟩
    exact ⟨hend, rfl, front, htokens, hcaught Token.stops_leftParen front hfront⟩
  | ok result =>
    rw [hrun] at h
    obtain ⟨hrest, taken, htokens, hform⟩ := h
    exact ⟨hrest, taken, htokens, fun hstops => himp hstops taken result.1 (hform hstops)⟩

theorem Passes.mono {weaker : List Token → α → Prop} {caught' : List Token → Prop} (h : Passes last bound reader form caught)
    (himp : last.Stops → ∀ taken value, form taken value → weaker taken value)
    (hcaught : last.Stops → ∀ front, caught front → caught' front) : Passes last bound reader weaker caught' :=
  fun tokens hlast hlength => (h tokens hlast hlength).mono himp hcaught

/-- Where the last token may be taken without being left, no form is asked for. -/
theorem PassesFrom.of_not_stops {other : List Token → α → Prop} {caught' : List Token → Prop}
    (h : PassesFrom last tokens reader form caught) (hlast : ¬last.Stops) : PassesFrom last tokens reader other caught' :=
  h.mono (fun hstops => absurd hstops hlast) fun hstops => absurd hstops hlast

/-- A reader that nothing catches is caught nowhere. -/
theorem PassesFrom.of_nowhere (h : PassesFrom last tokens reader form nowhere) : PassesFrom last tokens reader form caught :=
  h.mono (fun _ _ _ => id) fun _ _ => False.elim

/-- A reader that goes on behind some tokens as another one does passes these tokens too. -/
theorem PassesFrom.append {taken rest : List Token} {whole : Reader α}
    (h : PassesFrom last rest reader (fun later result => form (taken ++ later) result) fun front => caught (taken ++ front))
    (hrun : whole.run (taken ++ rest) = reader.run rest) : PassesFrom last (taken ++ rest) whole form caught := by
  unfold PassesFrom at h ⊢
  rw [hrun]
  cases hrest : reader.run rest with
  | error cause =>
    rw [hrest] at h
    refine h.imp_right ?_
    rintro ⟨hend, hparen, front, rfl, hfront⟩
    exact ⟨hend, hparen, taken ++ front, (List.append_assoc _ _ _).symm, hfront⟩
  | ok result =>
    rw [hrest] at h
    obtain ⟨hafter, later, rfl, hform⟩ := h
    exact ⟨hafter, taken ++ later, (List.append_assoc _ _ _).symm, hform⟩

theorem PassesFrom.cons {token : Token} {rest : List Token} {whole : Reader α}
    (h : PassesFrom last rest reader (fun later result => form (token :: later) result) fun front => caught (token :: front))
    (hrun : whole.run (token :: rest) = reader.run rest) : PassesFrom last (token :: rest) whole form caught := by
  have happend : PassesFrom last ([token] ++ rest) whole form caught := h.append hrun
  exact happend

/-- After what one reader goes past, another one starts, with as many tokens at the most. -/
theorem Passes.bind {next : α → Reader β} {whole : List Token → β → Prop} {caught' : List Token → Prop}
    (hfirst : Passes last bound reader form caught) (hcaught : last.Stops → ∀ front, caught front → caught' front)
    (hnext : ∀ taken value, (last.Stops → form taken value) →
      Passes last bound (next value) (fun later result => whole (taken ++ later) result) fun front => caught' (taken ++ front)) :
    Passes last bound (reader >>= next) whole caught' := by
  intro tokens hlast hlength
  have hpasses := hfirst tokens hlast hlength
  unfold PassesFrom at hpasses
  cases hrun : reader.run tokens with
  | error cause =>
    rw [hrun] at hpasses
    rw [PassesFrom, run_bind_of_error hrun]
    refine hpasses.imp_right ?_
    rintro ⟨hend, rfl, front, htokens, hfront⟩
    exact ⟨hend, rfl, front, htokens, hcaught Token.stops_leftParen front hfront⟩
  | ok result =>
    rw [hrun] at hpasses
    obtain ⟨hrest, taken, rfl, hform⟩ := hpasses
    rw [List.length_append] at hlength
    exact (hnext taken result.1 hform result.2 hrest (by omega)).append (run_bind_of_ok hrun)

/-- Where a value always has the same tokens and nothing catches its reader, the next reader goes on behind these tokens. -/
theorem Passes.andThen {print : α → List Token} {next : α → Reader β} {whole : List Token → β → Prop} {caught' : List Token → Prop}
    (hfirst : Passes last bound reader (fun taken value => taken = print value) nowhere)
    (hnext : ∀ value, Passes last bound (next value) (fun later result => whole (print value ++ later) result)
      fun front => caught' (print value ++ front)) :
    Passes last bound (reader >>= next) whole caught' := by
  refine hfirst.bind (fun _ _ => False.elim) fun taken value hform => ?_
  refine (hnext value).mono ?_ ?_
  · intro hstops later result hwhole
    rwa [hform hstops]
  · intro hstops front hcaught
    rwa [hform hstops]

theorem passes_get_bind {next : List Token → Reader α}
    (h : ∀ tokens : List Token, tokens.length ≤ bound → Passes last tokens.length (next tokens) form caught) :
    Passes last bound (get >>= next) form caught := by
  intro tokens hlast hlength
  have hnext := h tokens hlength tokens hlast (Nat.le_refl _)
  rwa [PassesFrom, run_bind_of_ok (run_get tokens)]

theorem passes_peek_bind {next : Token → Reader α} (h : ∀ token rest, (token :: rest).getLast? = some last →
      (token :: rest).length ≤ bound → PassesFrom last (token :: rest) (next token) form caught) :
    Passes last bound (peek >>= next) form caught := by
  intro tokens hlast hlength
  cases tokens with
  | nil => exact nomatch hlast
  | cons token rest =>
    have hnext := h token rest hlast hlength
    rwa [PassesFrom, run_bind_of_ok (run_peek _), List.headD_cons]

theorem run_advance_last (token : Token) : advance.run [token] = .ok ((), [token]) := rfl

theorem run_eat_last (token : Token) : (eat token).run [token] = .ok (true, [token]) := by
  rw [eat, run_bind_of_ok (run_peek _), List.headD_cons, if_pos rfl, run_bind_of_ok (run_advance_last token), run_pure]

/-- What follows a list with an end is a list with this end. -/
theorem getLast?_of_cons {token : Token} {rest : List Token} (h : (token :: rest).getLast? = some last) (hne : rest ≠ []) :
    rest.getLast? = some last := by
  obtain ⟨first, others, rfl⟩ := List.exists_cons_of_ne_nil hne
  rwa [List.getLast?_cons_cons] at h

/-- What is not read to an end is caught at a parenthesis. -/
theorem PassesFrom.caught_of_endless (h : PassesFrom last tokens reader form caught) (hend : reader.run tokens = .error .endless) :
    ∃ front, tokens = front ++ [.symbol .leftParen] ∧ caught front := by
  rw [PassesFrom, hend] at h
  rcases h with ⟨_, _, hunexpected⟩ | ⟨-, rfl, hfront⟩
  · exact nomatch hunexpected
  · exact hfront

/-- A reader goes on behind the token at the front, or at this token if it is the last. -/
theorem passesFrom_advance_bind {token : Token} {rest : List Token} {next : Unit → Reader α}
    (hlast : (token :: rest).getLast? = some last) (hlength : (token :: rest).length ≤ bound) (htoken : ¬token.Stops)
    (hnext : Passes last bound (next ()) (fun later result => form (token :: later) result) fun front => caught (token :: front)) :
    PassesFrom last (token :: rest) (advance >>= next) form caught := by
  by_cases hne : rest = []
  · subst hne
    obtain rfl : token = last := Option.some.inj hlast
    have hheld : PassesFrom token [token] (next ()) form caught := (hnext [token] rfl hlength).of_not_stops htoken
    rwa [PassesFrom, run_bind_of_ok (run_advance_last token)]
  · rw [List.length_cons] at hlength
    exact (hnext rest (getLast?_of_cons hlast hne) (by omega)).cons (run_bind_of_ok (run_advance hne token))

end

/-! ## Single tokens -/

section

variable {last : Token} {bound : Nat}

theorem passes_expect {token : Token} (h : ¬token.Stops) :
    Passes last bound (expect token) (fun taken _ => taken = [token]) nowhere := by
  refine passes_peek_bind fun found rest hlast hlength => ?_
  split
  next heq =>
    subst heq
    have hadvance : PassesFrom last (found :: rest) (advance >>= pure) (fun taken _ => taken = [found]) nowhere :=
      passesFrom_advance_bind hlast hlength h (passes_pure fun _ => rfl)
    exact hadvance
  next => exact passesFrom_fail _ _

theorem passes_keyword (word : Keyword) : Passes last bound (keyword word) (fun taken _ => taken = [.keyword word]) nowhere :=
  passes_expect (Token.not_stops_keyword word)

/-- After a look for a token a reader goes on behind the token, or at the token if it is the last, or from where it was. -/
theorem passes_eat_bind {token : Token} {next : Bool → Reader α} {form : List Token → α → Prop} {caught : List Token → Prop}
    (hfound : 0 < bound → Passes last (bound - 1) (next true) (fun later result => form (token :: later) result)
      fun front => caught (token :: front))
    (hheld : 0 < bound → last = token → PassesFrom last [token] (next true) form caught)
    (hother : Passes last bound (next false) form caught) : Passes last bound (eat token >>= next) form caught := by
  intro tokens hlast hlength
  cases tokens with
  | nil => exact nomatch hlast
  | cons found rest =>
    rw [List.length_cons] at hlength
    by_cases heq : found = token
    · subst heq
      by_cases hne : rest = []
      · subst hne
        have hstay := hheld (by omega) (Option.some.inj hlast).symm
        rwa [PassesFrom, run_bind_of_ok (run_eat_last found)]
      · exact (hfound (by omega) rest (getLast?_of_cons hlast hne) (by omega)).cons (run_bind_of_ok (run_eat_self hne found))
    · have hstops : GoesOn [token] (found :: rest) := goesOn_cons (by simpa using heq) rest
      have hstay := hother (found :: rest) hlast hlength
      rwa [PassesFrom, run_bind_of_ok (run_eat_of_goesOn hstops)]

/-- What is read depends on whether a token is there. -/
theorem passes_ite_eat {token : Token} {found other : Reader α} {form : List Token → α → Prop} {caught : List Token → Prop}
    (hfound : 0 < bound → Passes last (bound - 1) found (fun later result => form (token :: later) result)
      fun front => caught (token :: front))
    (hheld : 0 < bound → last = token → PassesFrom last [token] found form caught)
    (hother : Passes last bound other form caught) :
    Passes last bound (do if ← eat token then found else other) form caught := by
  refine passes_eat_bind ?_ ?_ ?_
  · rwa [if_pos rfl]
  · rwa [if_pos rfl]
  · rwa [if_neg Bool.false_ne_true]

section

variable {token : Token} (h : ¬token.Stops) {form : List Token → α → Prop} {caught : List Token → Prop}

include h

/-- Of a token that may be taken without being left, it is enough to say what is read behind it. -/
theorem passes_eat_bind_of_not_stops {next : Bool → Reader α}
    (hfound : ∀ {bound : Nat}, Passes last bound (next true) (fun later result => form (token :: later) result)
      fun front => caught (token :: front))
    (hother : Passes last bound (next false) form caught) : Passes last bound (eat token >>= next) form caught := by
  refine passes_eat_bind (fun _ => hfound) (fun _ heq => ?_) hother
  subst heq
  exact (hfound [last] rfl (Nat.le_refl 1)).of_not_stops h

theorem passes_ite_eat_of_not_stops {found other : Reader α}
    (hfound : ∀ {bound : Nat}, Passes last bound found (fun later result => form (token :: later) result)
      fun front => caught (token :: front))
    (hother : Passes last bound other form caught) :
    Passes last bound (do if ← eat token then found else other) form caught := by
  refine passes_eat_bind_of_not_stops h ?_ ?_
  · rwa [if_pos rfl]
  · rwa [if_neg Bool.false_ne_true]

end

/-- A parenthesis that must be there does not catch the reader if what follows is refused at it. -/
theorem passes_leftParen_bind {next : Unit → Reader α} {form : List Token → α → Prop} {caught : List Token → Prop}
    (hnext : Passes last bound (next ()) (fun later result => form (.symbol .leftParen :: later) result)
      fun front => caught (.symbol .leftParen :: front))
    (hrefused : RefusedAt (.symbol .leftParen) (next ())) :
    Passes last bound (symbol .leftParen >>= next) form caught := by
  intro tokens hlast hlength
  cases tokens with
  | nil => exact nomatch hlast
  | cons found rest =>
    by_cases heq : found = .symbol .leftParen
    · subst heq
      by_cases hne : rest = []
      · subst hne
        have hstay : PassesFrom last [.symbol .leftParen] (next ()) form caught := passesFrom_of_refusedAt hrefused
        have hrun : (symbol .leftParen).run [.symbol .leftParen] = .ok ((), [.symbol .leftParen]) := rfl
        rwa [PassesFrom, run_bind_of_ok hrun]
      · rw [List.length_cons] at hlength
        exact (hnext rest (getLast?_of_cons hlast hne) (by omega)).cons (run_bind_of_ok (run_symbol hne .leftParen))
    · have hrun : (symbol .leftParen).run (found :: rest) = .error (.unexpected (.token (.symbol .leftParen)) found) := by
        rw [symbol, expect, run_bind_of_ok (run_peek _), List.headD_cons, if_neg heq]
        rfl
      exact passesFrom_of_unexpected (run_bind_of_error hrun)

theorem passes_identifier : Passes last bound identifier (fun taken name => taken = [.ident name]) nowhere := by
  refine passes_peek_bind fun token rest hlast hlength => ?_
  cases token with
  | ident name => exact passesFrom_advance_bind hlast hlength (by simp) (passes_pure fun _ => rfl)
  | _ => exact passesFrom_fail _ _

theorem passes_number : Passes last bound number (fun taken n => taken = [.number n]) nowhere := by
  refine passes_peek_bind fun token rest hlast hlength => ?_
  cases token with
  | number n => exact passesFrom_advance_bind hlast hlength (by simp) (passes_pure fun _ => rfl)
  | _ => exact passesFrom_fail _ _

theorem passes_literal : Passes last bound literal (fun taken value => taken = [value.token]) nowhere := by
  refine passes_peek_bind fun token rest hlast hlength => ?_
  cases token with
  | number n => exact passesFrom_advance_bind hlast hlength (by simp) (passes_pure fun _ => rfl)
  | string s => exact passesFrom_advance_bind hlast hlength (by simp) (passes_pure fun _ => rfl)
  | _ => exact passesFrom_fail _ _

theorem passes_dataType : Passes last bound dataType (fun taken type => taken = [.dataType type]) nowhere := by
  refine passes_peek_bind fun token rest hlast hlength => ?_
  cases token with
  | dataType type => exact passesFrom_advance_bind hlast hlength (by simp) (passes_pure fun _ => rfl)
  | _ => exact passesFrom_fail _ _

end

/-! ## Lists and clauses -/

section

variable {last : Token} {bound : Nat} {item : Reader α} {print : α → List Token}
  (hitem : ∀ {bound : Nat}, Passes last bound item (fun taken value => taken = print value) nowhere)
  (hcomma : RefusedAt (.symbol .comma) item)

include hitem hcomma

/-- A comma is left behind before the next one is looked for, or else no item is found. -/
theorem passes_furtherItems (fuel : Nat) : ∀ {bound : Nat}, bound < fuel → Passes last bound (furtherItems item fuel)
    (fun taken others => taken = others.flatMap fun item => .symbol .comma :: print item) nowhere := by
  induction fuel with
  | zero => exact fun h => absurd h (Nat.not_lt_zero _)
  | succ fuel ih =>
    intro bound hfuel
    refine passes_ite_eat (fun hpos => ?_) (fun _ _ => ?_) ?_
    · refine hitem.andThen fun next => ?_
      refine (ih (by omega)).andThen fun others => ?_
      exact passes_pure fun _ => by simp
    · obtain ⟨needed, found, hrun⟩ := hcomma
      exact passesFrom_of_unexpected (run_bind_of_error hrun)
    · exact passes_pure fun _ => rfl

theorem passes_commaList : Passes last bound (commaList item) (fun taken items => items ≠ [] ∧ taken = commaTokens print items)
    nowhere := by
  refine hitem.andThen fun first => ?_
  refine passes_get_bind fun tokens _ => ?_
  refine (passes_furtherItems hitem hcomma _ (Nat.lt_succ_self _)).andThen fun others => ?_
  exact passes_pure fun _ => ⟨List.cons_ne_nil first others, by simp [commaTokens]⟩

end

/-- What catches the reader of a clause catches it behind the keyword. -/
theorem passes_optional {last : Token} {bound : Nat} {word : Keyword} {content : Reader α} {form : List Token → α → Prop}
    {caught : List Token → Prop} (h : ∀ {bound : Nat}, Passes last bound content form caught) :
    Passes last bound (optional word content) (Clause word form)
      fun tokens => ∃ front, tokens = .keyword word :: front ∧ caught front := by
  refine passes_ite_eat_of_not_stops (Token.not_stops_keyword word) ?_ ?_
  · refine h.bind (fun _ front hfront => ⟨front, rfl, hfront⟩) fun taken value hform => ?_
    refine passes_pure fun hstops => ?_
    rw [List.append_nil]
    exact .present (hform hstops)
  · exact passes_pure fun _ => .absent

end Reader

end SqlEngine
