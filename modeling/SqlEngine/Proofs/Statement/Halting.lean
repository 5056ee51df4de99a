import SqlEngine.Proofs.Condition.Halting
import SqlEngine.Proofs.Statement.Segments

/-!
# Where the reading of statements halts

On a list with a mark of the end, reading comes to an end. On a list without one it need not: the last token is taken again and again
if it is a semicolon between the statements of a script, or an opening parenthesis where an operand of a condition is due. These are
the only cases (`halts_unless_trapped`). In particular, no list of items with commas between them and no chain of operands with `AND`
or `OR` between them goes on for ever, since a sign at the end of the list is not followed by what it announces.
-/

namespace SqlEngine

open Reader

/-- A list that ends in the token may keep a reader for ever. -/
def Token.Traps (token : Token) : Prop := token = .symbol .semicolon ∨ token = .symbol .leftParen

theorem Token.Traps.stops {token : Token} (h : token.Traps) : token.Stops := Or.inr h

namespace Statement

/-! ## Where an operand is due -/

theorem run_where_endless {front : List Token} (h : Condition.Awaits .disjunction front) :
    whereReader.run (.keyword .where :: (front ++ [.symbol .leftParen])) = .error .endless := by
  have hcondition : Condition.reader.run (front ++ [.symbol .leftParen]) = .error .endless := h.endless _
  unfold whereReader Reader.optional
  rw [run_bind_of_ok (run_eatKeyword_self (by simp) .where), if_pos rfl]
  exact run_bind_of_error hcondition

/-- A statement whose condition is endless is endless. -/
theorem Awaits.endless {front : List Token} (h : Awaits front) :
    reader.run (front ++ [.symbol .leftParen]) = .error .endless := by
  cases h with
  | select hprojection table h =>
    have hfrom : ∀ later, GoesOn [.symbol .comma] (.keyword .from :: later) := by simp
    simp [reader, selectReader, run_projection hprojection (hfrom _), run_where_endless h]
  | update table hassignments h =>
    have hwhere : ∀ later, GoesOn [.symbol .comma] (.keyword .where :: later) := by simp
    simp [reader, updateReader, run_assignments hassignments (hwhere _), run_where_endless h]
  | delete table h => simp [reader, deleteReader, run_where_endless h]

/-- A statement that awaits an operand does not begin where one ends. -/
theorem Awaits.endsStatement_headD {front : List Token} (h : Awaits front) (rest : List Token) :
    ((front ++ rest).headD .eof).endsStatement = false := by
  cases h <;> rfl

/-! ## Everywhere else -/

section

variable {last : Token} {bound : Nat}

/-- Behind a statement, nothing catches the reader of one statement any more. -/
theorem passes_single : Passes last bound singleReader (fun _ _ => True) Awaits := by
  have hend : ∀ {bound} (statement : Statement), Passes last bound
      (peek >>= fun found => if found = .eof then pure statement else fail .statementEnd found) (fun _ _ => True) nowhere := by
    intro bound statement
    refine passes_peek_bind fun token rest hlast hlength => ?_
    split
    · exact passes_pure (fun _ => trivial) _ hlast hlength
    · exact passesFrom_fail _ _
  refine passes_statement.bind (fun _ _ => id) fun _ statement _ => ?_
  refine Passes.mono ?_ (fun _ _ _ => id) fun _ _ => False.elim
  refine passes_eat_bind (fun _ => hend statement) (fun _ heq => ?_) (hend statement)
  exact hend statement _ (heq ▸ rfl) (Nat.le_refl 1)

/-- One statement is read to an end unless it awaits an operand at a parenthesis at the end of the list. -/
theorem ofTokens_eq_endless_iff {tokens : List Token} : ofTokens tokens = .error .endless ↔
    ∃ front, tokens = front ++ [.symbol .leftParen] ∧ Awaits front := by
  rw [ofTokens, ExceptAux.map_eq_error_iff]
  constructor
  · intro hend
    have hne : tokens ≠ [] := by
      rintro rfl
      exact ParseError.noConfusion (Except.error.inj hend)
    exact (passes_single tokens (List.getLast?_eq_some_getLast hne) (Nat.le_refl _)).caught_of_endless hend
  · rintro ⟨front, rfl, hfront⟩
    exact run_bind_of_error hfront.endless

end

end Statement

/-! ## Rounds -/

/-- Every item behind a comma, every operand behind an `AND`, every alternative behind an `OR` and every condition in parentheses that
is read leaves fewer tokens than there were before the sign. -/
structure RoundsMove : Prop where
  columns : MovesBehind (.symbol .comma) Statement.columnReader
  values : MovesBehind (.symbol .comma) literal
  shown : MovesBehind (.symbol .comma) identifier
  assignments : MovesBehind (.symbol .comma) Statement.assignmentReader
  operands : ∀ fuel, MovesBehind (.keyword .and) (operand fuel)
  alternatives : ∀ fuel, MovesBehind (.keyword .or) (conjunction fuel)
  parentheses : ∀ fuel, MovesBehind (.symbol .leftParen) (disjunction fuel)

theorem roundsMove : RoundsMove where
  columns := (neverLengthens_of_passes Statement.passes_column).movesBehind nofun ⟨_, rfl⟩
  values := (neverLengthens_of_passes passes_literal).movesBehind nofun ⟨_, rfl⟩
  shown := (neverLengthens_of_passes passes_identifier).movesBehind nofun ⟨_, rfl⟩
  assignments := (neverLengthens_of_passes Statement.passes_assignment).movesBehind nofun ⟨_, rfl⟩
  operands := Condition.movesBehind_and
  alternatives := Condition.movesBehind_or
  parentheses := Condition.movesBehind_leftParen

namespace Script

open Statement

/-- The tokens are a script that holds its reader for ever: behind statements with semicolons between them, they end in a semicolon,
or in a parenthesis where an operand is due. -/
inductive Endless : List Token → Prop where
  | semicolon : Endless [.symbol .semicolon]
  | operand {front : List Token} (h : Awaits front) : Endless (front ++ [.symbol .leftParen])
  | skip {rest : List Token} (h : Endless rest) : Endless (.symbol .semicolon :: rest)
  | statement {tokens : List Token} {statement : Statement} (hwritten : Written tokens statement) {rest : List Token}
      (h : Endless (.symbol .semicolon :: rest)) : Endless (tokens ++ .symbol .semicolon :: rest)

/-- A script that holds its reader ends in a token that traps. -/
theorem Endless.exists_traps {tokens : List Token} (h : Endless tokens) :
    ∃ last, tokens.getLast? = some last ∧ last.Traps := by
  induction h with
  | semicolon => exact ⟨_, rfl, Or.inl rfl⟩
  | operand _ => exact ⟨_, List.getLast?_concat, Or.inr rfl⟩
  | skip _ ih =>
    obtain ⟨last, hlast, htraps⟩ := ih
    exact ⟨last, by rw [List.getLast?_cons, hlast, Option.getD_some], htraps⟩
  | statement _ _ ih =>
    obtain ⟨last, hlast, htraps⟩ := ih
    exact ⟨last, by rw [List.getLast?_append, hlast, Option.some_or], htraps⟩

theorem Endless.ne_nil {tokens : List Token} (h : Endless tokens) : tokens ≠ [] := by
  rintro rfl
  obtain ⟨_, hlast, -⟩ := h.exists_traps
  exact nomatch hlast

/-! ## More fuel -/

theorem continued_scriptReader (fuel : Nat) : ContinuedBy (scriptReader fuel) (scriptReader (fuel + 1)) := by
  induction fuel with
  | zero => exact continuedBy_of_endless
  | succ fuel ih =>
    refine continuedBy_bind fun found => ?_
    split
    · exact continuedBy_bind fun _ => ih
    · exact continuedBy_refl _
    · refine continuedBy_bind fun statement => continuedBy_bind fun found => ?_
      split
      · exact ih.bind fun _ => continuedBy_refl _
      · exact continuedBy_refl _
      · exact continuedBy_refl _

/-- The reader of such a script does not come to an end, with any fuel. -/
theorem Endless.run {tokens : List Token} (h : Endless tokens) : ∀ fuel, (scriptReader fuel).run tokens = .error .endless := by
  induction h with
  | semicolon =>
    intro fuel
    induction fuel with
    | zero => rfl
    | succ fuel ih => exact ih
  | operand h =>
    rintro (_ | fuel)
    · rfl
    · rw [run_scriptReader_statement (h.endsStatement_headD _), run_bind_of_error h.endless]
  | skip h ih =>
    rintro (_ | fuel)
    · rfl
    · rw [run_scriptReader_semicolon h.ne_nil, ih]
  | @statement tokens statement hwritten rest _ ih =>
    rintro (_ | fuel)
    · rfl
    · have hfirst : ((tokens ++ .symbol .semicolon :: rest).headD .eof).endsStatement = false := by
        obtain ⟨first, others, rfl⟩ := List.exists_cons_of_ne_nil hwritten.ne_nil
        exact (unended_cons.mp hwritten.unended).1
      have hgoes : GoesOn continuations (.symbol .semicolon :: rest) := goesOn_cons (by decide) rest
      have hread := Statement.read_of_written hwritten hgoes
      rw [run_scriptReader_statement hfirst, run_bind_of_ok hread, run_bind_of_ok (run_peek _), List.headD_cons]
      exact run_bind_of_error (ih fuel)

/-! ## All lists -/

/-- If the reader goes on for ever from a statement on, it does so in the statement, or from a semicolon behind it. -/
theorem endless_round {fuel : Nat} {tokens : List Token} (hne : tokens ≠ []) (hfirst : (tokens.headD .eof).endsStatement = false)
    (hlater : ∀ rest : List Token, rest.length < tokens.length → (scriptReader fuel).run rest = .error .endless → Endless rest)
    (hend : (scriptReader (fuel + 1)).run tokens = .error .endless) : Endless tokens := by
  have hpasses := passes_statement tokens (List.getLast?_eq_some_getLast hne) (Nat.le_refl _)
  rw [run_scriptReader_statement hfirst] at hend
  cases hrun : reader.run tokens with
  | error cause =>
    rw [run_bind_of_error hrun] at hend
    obtain ⟨front, rfl, hfront⟩ := hpasses.caught_of_endless (hrun.trans (congrArg _ (Except.error.inj hend)))
    exact .operand hfront
  | ok result =>
    obtain ⟨statement, after⟩ := result
    rw [run_bind_of_ok hrun, run_bind_of_ok (run_peek _)] at hend
    rw [PassesFrom, hrun] at hpasses
    obtain ⟨hafter, taken, htokens, hwritten⟩ := hpasses
    cases after with
    | nil => simp at hafter
    | cons found others =>
      rw [List.headD_cons] at hend
      split at hend
      -- No statement begins with a semicolon, so what it begins with is left behind.
      · have hlength : (.symbol .semicolon :: others : List Token).length < tokens.length := by
          cases taken with
          | nil => simp [htokens] at hfirst
          | cons first more =>
            simp only [htokens, List.length_append, List.length_cons]
            omega
        have hrest := hlater _ hlength (error_of_run_bind_pure hend)
        obtain ⟨final, hfinal, htraps⟩ := hrest.exists_traps
        obtain rfl := Option.some.inj (hafter.symm.trans hfinal)
        exact htokens ▸ .statement (hwritten htraps.stops) hrest
      · cases hend
      · cases hend

/-- With fuel for all tokens, only a script that holds its reader uses it up. -/
theorem endless_of_run (fuel : Nat) : ∀ tokens : List Token, tokens.length < fuel →
    (scriptReader fuel).run tokens = .error .endless → Endless tokens := by
  induction fuel with
  | zero => exact fun _ hfuel => absurd hfuel (Nat.not_lt_zero _)
  | succ fuel ih =>
    intro tokens hfuel hend
    cases tokens with
    | nil => exact nomatch hend
    | cons token rest =>
      cases hends : token.endsStatement with
      | true =>
        rcases Token.eq_of_endsStatement hends with rfl | rfl
        · by_cases hne : rest = []
          · subst hne
            exact .semicolon
          · rw [run_scriptReader_semicolon hne] at hend
            exact .skip (ih rest (Nat.lt_of_succ_lt_succ hfuel) hend)
        · exact nomatch run_scriptReader_eof.symm.trans hend
      | false =>
        exact endless_round (List.cons_ne_nil token rest) hends (fun later hlater => ih later (by omega)) hend

theorem ofTokens_eq_endless_iff {tokens : List Token} : Script.ofTokens tokens = .error .endless ↔ Endless tokens := by
  rw [Script.ofTokens, ExceptAux.map_eq_error_iff]
  exact ⟨endless_of_run _ tokens (Nat.lt_succ_self _), fun h => h.run _⟩

/-- What there is fuel enough for is read in the same way with more fuel. -/
theorem run_scriptReader_of_lt {tokens : List Token} {fuel : Nat} (h : tokens.length < fuel) :
    (scriptReader fuel).run tokens = (scriptReader (tokens.length + 1)).run tokens := by
  rcases continuedBy_of_le continued_scriptReader h tokens with hend | hsame
  · have hendless := endless_of_run _ tokens (Nat.lt_succ_self _) hend
    rw [hendless.run, hendless.run]
  · exact hsame

/-- To read one statement goes on for ever exactly on the lists that end in a parenthesis where an operand of its condition is due, and to
read a script exactly on those that hold its reader. None of them is empty, or ends in the mark of the end or in any other token than a
semicolon or an opening parenthesis. A token that is taken is left behind unless it is the last, and a round of a loop or a condition in
parentheses that is read leaves fewer tokens than it found. What fuel there is, is enough: with more of it, the same is read. -/
theorem halts_unless_trapped (tokens : List Token) :
    (Statement.ofTokens tokens = .error .endless ↔ ∃ front, tokens = front ++ [.symbol .leftParen] ∧ Awaits front) ∧
      (Script.ofTokens tokens = .error .endless ↔ Endless tokens) ∧
      ((∀ last ∈ tokens.getLast?, ¬last.Traps) →
        Statement.ofTokens tokens ≠ .error .endless ∧ Script.ofTokens tokens ≠ .error .endless) ∧
      (∀ fuel, 4 * tokens.length + 4 ≤ fuel → (disjunction fuel).run tokens = Condition.reader.run tokens) ∧
      (∀ fuel, tokens.length < fuel → (scriptReader fuel).run tokens = (scriptReader (tokens.length + 1)).run tokens) ∧
      (∀ rest, advance.run tokens = .ok ((), rest) → MovesOn tokens rest) ∧
      (∀ sign rest, (expect sign).run tokens = .ok ((), rest) → MovesOn tokens rest) ∧
      (∀ sign rest, (eat sign).run tokens = .ok (true, rest) → MovesOn tokens rest) ∧ RoundsMove := by
  refine ⟨Statement.ofTokens_eq_endless_iff, ofTokens_eq_endless_iff, fun hlast => ⟨fun hend => ?_, fun hend => ?_⟩,
    fun fuel => Condition.run_disjunction_of_le, fun fuel => run_scriptReader_of_lt, fun rest => advance_moves,
    fun sign rest => expect_moves, fun sign rest => eat_moves, roundsMove⟩
  · obtain ⟨front, rfl, -⟩ := Statement.ofTokens_eq_endless_iff.mp hend
    exact hlast _ List.getLast?_concat (Or.inr rfl)
  · obtain ⟨last, hsome, htraps⟩ := (ofTokens_eq_endless_iff.mp hend).exists_traps
    exact hlast last hsome htraps

/-- Two statements without the mark of the end behind them are refused, and with a condition that begins with a parenthesis at the end
of the list, they hold the reader of scripts, but not the one of single statements, which does not come so far. -/
theorem halts_unless_trapped_unmarked :
    let script : List Token := [.keyword .drop, .keyword .table, .ident "t", .symbol .semicolon, .keyword .delete, .keyword .from,
      .ident "t"]
    let longer : List Token := script ++ [.keyword .where, .symbol .leftParen]
    (∀ last ∈ script.getLast?, ¬last.Traps) ∧ Script.ofTokens script ≠ .error .endless ∧
      Script.ofTokens longer = .error .endless ∧ Statement.ofTokens longer ≠ .error .endless := by
  intro script longer
  have hlast : ∀ last ∈ script.getLast?, ¬last.Traps := by
    intro last hmem
    obtain rfl : .ident "t" = last := Option.some.inj hmem
    simp [Token.Traps]
  have hawaits : Awaits [.keyword .delete, .keyword .from, .ident "t", .keyword .where] :=
    .delete "t" (.conjunction (.operand .here))
  have hendless : Endless longer := .statement (.dropTable "t") (.skip (.operand hawaits))
  have hrefused : Statement.ofTokens longer = .error (.unexpected .statementEnd (.keyword .delete)) := by rfl
  refine ⟨hlast, ((halts_unless_trapped script).2.2.1 hlast).2, (halts_unless_trapped longer).2.1.mpr hendless, ?_⟩
  rw [hrefused]
  exact nofun

/-- What is taken at the end of a list is not left. A comma there is found again in place of the value that it announces. The script that
is one semicolon is not read to an end, and neither is the statement whose condition begins with a parenthesis there, whatever the
fuel. -/
theorem last_token_not_left :
    (eat (.symbol .comma)).run [.symbol .comma] = .ok (true, [.symbol .comma]) ∧
      Statement.ofTokens [.keyword .insert, .keyword .into, .ident "t", .keyword .values, .symbol .leftParen, .number 1,
        .symbol .comma] = .error (.unexpected .literal (.symbol .comma)) ∧
      Script.ofTokens [.symbol .semicolon] = .error .endless ∧
      (∀ fuel, (scriptReader fuel).run [.symbol .semicolon] = .error .endless) ∧
      Statement.ofTokens [.keyword .delete, .keyword .from, .ident "t", .keyword .where, .symbol .leftParen] = .error .endless ∧
      ∀ fuel, (disjunction fuel).run [.symbol .leftParen] = .error .endless := by
  refine ⟨rfl, rfl, rfl, Endless.semicolon.run, rfl, ?_⟩
  exact Condition.isEndless_leftParen.conjunction.disjunction

end Script

end SqlEngine
