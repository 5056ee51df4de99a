import SqlEngine.Proofs.Except
import SqlEngine.Token.Reader

/-!
# What readers take

A reader that finds the tokens it looks for takes them and leaves the rest, provided that there is a rest: the last token of a
list is never left. What a reader of a list or of an optional clause takes also depends on how the rest begins, since another
comma or the keyword would make it go on (`GoesOn`). The statements below say for each reader what it takes from the front of
a list that goes on suitably.
-/

namespace SqlEngine

namespace Reader

variable {α β : Type}

/-! ## How a list goes on -/

/-- The list goes on, and with none of the tokens. -/
def GoesOn (stops : List Token) (rest : List Token) : Prop :=
  ∃ next later, rest = next :: later ∧ next ∉ stops

theorem GoesOn.ne_nil {stops rest : List Token} (h : GoesOn stops rest) : rest ≠ [] := by
  obtain ⟨next, later, rfl, _⟩ := h
  exact List.cons_ne_nil next later

/-- A list that goes on with none of some tokens goes on with none of fewer. -/
theorem GoesOn.mono {stops fewer rest : List Token} (h : GoesOn stops rest) (hsub : fewer ⊆ stops) : GoesOn fewer rest := by
  obtain ⟨next, later, rfl, hnext⟩ := h
  exact ⟨next, later, rfl, fun hmem => hnext (hsub hmem)⟩

theorem goesOn_cons {stops : List Token} {next : Token} (h : next ∉ stops) (later : List Token) :
    GoesOn stops (next :: later) := ⟨next, later, rfl, h⟩

@[simp] theorem goesOn_cons_iff {stops later : List Token} {next : Token} : GoesOn stops (next :: later) ↔ next ∉ stops := by
  constructor
  · rintro ⟨_, _, heq, hnext⟩
    rwa [(List.cons.inj heq).1]
  · exact fun h => goesOn_cons h later

/-! ## Single tokens -/

@[simp] theorem run_pure (value : α) (tokens : List Token) : (pure value : Reader α).run tokens = .ok (value, tokens) := rfl

/-- What follows a reader that ends well starts where it ended. -/
theorem run_bind_of_ok {first : Reader α} {next : α → Reader β} {tokens rest : List Token} {value : α}
    (h : first.run tokens = .ok (value, rest)) : (first >>= next).run tokens = (next value).run rest := by
  rw [StateT.run_bind, h]
  rfl

/-- Nothing follows a reader that fails. -/
theorem run_bind_of_error {first : Reader α} {next : α → Reader β} {tokens : List Token} {cause : ParseError}
    (h : first.run tokens = .error cause) : (first >>= next).run tokens = .error cause := by
  rw [StateT.run_bind, h]
  rfl

@[simp] theorem run_get (tokens : List Token) : (get : Reader (List Token)).run tokens = .ok (tokens, tokens) := rfl

@[simp] theorem run_peek (tokens : List Token) : peek.run tokens = .ok (tokens.headD .eof, tokens) := rfl

section

variable {rest : List Token} (h : rest ≠ [])

include h

@[simp] theorem run_advance (token : Token) : advance.run (token :: rest) = .ok ((), rest) := by
  cases rest with
  | nil => exact absurd rfl h
  | cons next later => rfl

@[simp] theorem run_eat_self (token : Token) : (eat token).run (token :: rest) = .ok (true, rest) := by
  rw [eat, run_bind_of_ok (run_peek _), List.headD_cons, if_pos rfl, run_bind_of_ok (run_advance h token), run_pure]

@[simp] theorem run_expect (token : Token) : (expect token).run (token :: rest) = .ok ((), rest) := by
  rw [expect, run_bind_of_ok (run_peek _), List.headD_cons, if_pos rfl, run_advance h]

@[simp] theorem run_eatKeyword_self (word : Keyword) :
    (eatKeyword word).run (.keyword word :: rest) = .ok (true, rest) :=
  run_eat_self h (.keyword word)

@[simp] theorem run_keyword (word : Keyword) : (keyword word).run (.keyword word :: rest) = .ok ((), rest) :=
  run_expect h (.keyword word)

@[simp] theorem run_symbol (sign : Symbol) : (symbol sign).run (.symbol sign :: rest) = .ok ((), rest) :=
  run_expect h (.symbol sign)

@[simp] theorem run_identifier (name : String) : identifier.run (.ident name :: rest) = .ok (name, rest) := by
  rw [identifier, run_bind_of_ok (run_peek _)]
  exact run_bind_of_ok (run_advance h (.ident name))

@[simp] theorem run_number (n : Int64) : number.run (.number n :: rest) = .ok (n, rest) := by
  rw [number, run_bind_of_ok (run_peek _)]
  exact run_bind_of_ok (run_advance h (.number n))

@[simp] theorem run_dataType (type : DataType) : dataType.run (.dataType type :: rest) = .ok (type, rest) := by
  rw [dataType, run_bind_of_ok (run_peek _)]
  exact run_bind_of_ok (run_advance h (.dataType type))

end

/-- Where another token stands, nothing is taken. -/
theorem run_eat_of_goesOn {token : Token} {rest : List Token} (h : GoesOn [token] rest) :
    (eat token).run rest = .ok (false, rest) := by
  obtain ⟨next, later, rfl, hnext⟩ := h
  have hne : next ≠ token := fun heq => hnext (List.mem_singleton.mpr heq)
  rw [eat, run_bind_of_ok (run_peek _), List.headD_cons, if_neg hne, run_pure]

theorem run_eatKeyword_of_goesOn {word : Keyword} {rest : List Token} (h : GoesOn [.keyword word] rest) :
    (eatKeyword word).run rest = .ok (false, rest) :=
  run_eat_of_goesOn h

end Reader

/-- The token of a literal. -/
def Value.token : Value → Token
  | .int n => .number n
  | .text s => .string s

namespace Reader

variable {α : Type}

@[simp] theorem run_literal {rest : List Token} (h : rest ≠ []) (value : Value) :
    literal.run (value.token :: rest) = .ok (value, rest) := by
  rw [literal, run_bind_of_ok (run_peek _)]
  cases value with
  | int n => exact run_bind_of_ok (run_advance h (.number n))
  | text s => exact run_bind_of_ok (run_advance h (.string s))

/-! ## Lists and clauses -/

/-- The tokens of items with commas between them. -/
def commaTokens (print : α → List Token) : List α → List Token
  | [] => []
  | first :: others => print first ++ others.flatMap fun item => .symbol .comma :: print item

/-- As many further items are taken as commas announce. -/
theorem run_furtherItems {item : Reader α} {print : α → List Token} (others : List α)
    (hitem : ∀ value ∈ others, ∀ rest, rest ≠ [] → item.run (print value ++ rest) = .ok (value, rest))
    {rest : List Token} (hrest : GoesOn [.symbol .comma] rest) : ∀ {fuel : Nat}, others.length < fuel →
    (furtherItems item fuel).run ((others.flatMap fun item => .symbol .comma :: print item) ++ rest) =
      .ok (others, rest) := by
  induction others with
  | nil =>
    intro fuel hfuel
    obtain ⟨fuel, rfl⟩ := Nat.exists_eq_add_one_of_ne_zero (Nat.ne_of_gt hfuel)
    rw [furtherItems, List.flatMap_nil, List.nil_append, run_bind_of_ok (run_eat_of_goesOn hrest)]
    rfl
  | cons value others ih =>
    intro fuel hfuel
    obtain ⟨fuel, rfl⟩ := Nat.exists_eq_add_one_of_ne_zero (Nat.ne_of_gt (Nat.zero_lt_of_lt hfuel))
    obtain ⟨hvalue, hothers⟩ := List.forall_mem_cons.mp hitem
    have hlater : (others.flatMap fun item => Token.symbol .comma :: print item) ++ rest ≠ [] := by
      simp [hrest.ne_nil]
    have hfront : print value ++ ((others.flatMap fun item => Token.symbol .comma :: print item) ++ rest) ≠ [] := by
      simp [hrest.ne_nil]
    rw [furtherItems, List.flatMap_cons, List.cons_append, List.cons_append, List.append_assoc,
      run_bind_of_ok (run_eat_self hfront _), if_pos rfl, run_bind_of_ok (hvalue _ hlater),
      run_bind_of_ok (ih hothers (Nat.lt_of_succ_lt_succ hfuel))]
    rfl

/-- Items with commas between them are taken as the list that they are. -/
theorem run_commaList {item : Reader α} {print : α → List Token} {items : List α} (hne : items ≠ [])
    (hitem : ∀ value ∈ items, ∀ rest, rest ≠ [] → item.run (print value ++ rest) = .ok (value, rest))
    {rest : List Token} (hrest : GoesOn [.symbol .comma] rest) :
    (commaList item).run (commaTokens print items ++ rest) = .ok (items, rest) := by
  obtain ⟨first, others, rfl⟩ := List.exists_cons_of_ne_nil hne
  obtain ⟨hfirst, hothers⟩ := List.forall_mem_cons.mp hitem
  have hlater : (others.flatMap fun item => Token.symbol .comma :: print item) ++ rest ≠ [] := by
    simp [hrest.ne_nil]
  -- Every further item has a comma of its own, so the tokens at hand are enough fuel.
  have hfuel : others.length <
      ((others.flatMap fun item => Token.symbol .comma :: print item) ++ rest).length + 1 := by
    have hcommas : others.length ≤ (others.flatMap fun item => Token.symbol .comma :: print item).length := by
      clear hne hitem hothers hlater
      induction others with
      | nil => exact Nat.le_refl 0
      | cons value others ih => simp only [List.flatMap_cons, List.length_cons, List.length_append]; omega
    rw [List.length_append]
    omega
  rw [commaList, commaTokens, List.append_assoc, run_bind_of_ok (hfirst _ hlater), run_bind_of_ok (run_get _),
    run_bind_of_ok (run_furtherItems others hothers hrest hfuel)]
  rfl

/-- The tokens are nothing, or a keyword and behind it what stands for the value of the clause that it begins. -/
inductive Clause (word : Keyword) (form : List Token → α → Prop) : List Token → Option α → Prop where
  | absent : Clause word form [] none
  | present {tokens : List Token} {value : α} (h : form tokens value) :
      Clause word form (.keyword word :: tokens) (some value)

/-- What may not begin the rest of a list does not begin it with a clause before it either, unless it is the clause's own
keyword. -/
theorem GoesOn.clause {stops rest : List Token} (h : GoesOn stops rest) {word : Keyword} (hword : .keyword word ∉ stops)
    {form : List Token → α → Prop} {tokens : List Token} {value : Option α} (hclause : Clause word form tokens value) :
    GoesOn stops (tokens ++ rest) := by
  cases hclause with
  | absent => exact h
  | present _ => exact goesOn_cons hword _

/-- A clause is taken, and where there is none, nothing is. -/
theorem run_optional {word : Keyword} {content : Reader α} {form : List Token → α → Prop} {tokens rest : List Token}
    {value : Option α} (hclause : Clause word form tokens value)
    (hcontent : ∀ inner given, form inner given → content.run (inner ++ rest) = .ok (given, rest))
    (hrest : GoesOn [.keyword word] rest) : (optional word content).run (tokens ++ rest) = .ok (value, rest) := by
  unfold optional
  cases hclause with
  | absent =>
    rw [List.nil_append, run_bind_of_ok (run_eatKeyword_of_goesOn hrest)]
    rfl
  | @present inner given h =>
    have hfront : inner ++ rest ≠ [] := by
      simp [hrest.ne_nil]
    rw [List.cons_append, run_bind_of_ok (run_eatKeyword_self hfront word), if_pos rfl,
      run_bind_of_ok (hcontent inner given h)]
    rfl

/-- The tokens of what a keyword announces, if there is anything. -/
def optionalTokens (word : Keyword) (print : α → List Token) : Option α → List Token
  | none => []
  | some value => .keyword word :: print value

/-- The tokens of a clause are a clause. -/
theorem clause_optionalTokens {word : Keyword} {form : List Token → α → Prop} {print : α → List Token}
    (h : ∀ value, form (print value) value) (value : Option α) : Clause word form (optionalTokens word print value) value := by
  cases value with
  | none => exact .absent
  | some given => exact .present (h given)

end Reader

end SqlEngine
