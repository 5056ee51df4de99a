import SqlEngine.Proofs.Condition.Acceptance
import SqlEngine.Proofs.Statement.Grammar
import SqlEngine.Proofs.Token.Taking

/-!
# Which statements are accepted

What is passed as a statement stands for the statement by the grammar, and only the condition of a statement catches a reader
(`passes_statement`). So a list of tokens with the mark of the end is read as a statement exactly when the tokens before the mark stand
for the statement by the grammar, with at most one semicolon behind them; any other is refused at a token that does not fit
(`ofTokens_accepts_grammar`).
-/

namespace SqlEngine

open Reader

namespace Statement

/-- Behind the tokens, an operand is due of the condition of a statement that they begin. -/
inductive Awaits : List Token → Prop where
  | select {projection : Projection} (hprojection : projection ≠ .columns []) (table : String) {front : List Token}
      (h : Condition.Awaits .disjunction front) :
      Awaits (.keyword .select :: (projection.tokens ++ .keyword .from :: .ident table :: .keyword .where :: front))
  | update (table : String) {assignments : List Assignment} (hassignments : assignments ≠ []) {front : List Token}
      (h : Condition.Awaits .disjunction front) :
      Awaits ([.keyword .update, .ident table, .keyword .set] ++
        (commaTokens Assignment.tokens assignments ++ .keyword .where :: front))
  | delete (table : String) {front : List Token} (h : Condition.Awaits .disjunction front) :
      Awaits ([.keyword .delete, .keyword .from, .ident table, .keyword .where] ++ front)

/-! ## Parts -/

section

variable {last : Token} {bound : Nat}

theorem passes_column : Passes last bound columnReader (fun taken column => taken = column.tokens) nowhere := by
  refine passes_identifier.andThen fun name => ?_
  refine passes_dataType.andThen fun type => ?_
  exact passes_pure fun _ => rfl

theorem passes_assignment : Passes last bound assignmentReader (fun taken assignment => taken = assignment.tokens) nowhere := by
  refine passes_identifier.andThen fun column => ?_
  refine (passes_expect (by simp)).andThen fun _ => ?_
  refine passes_literal.andThen fun value => ?_
  exact passes_pure fun _ => rfl

theorem passes_where : Passes last bound whereReader WhereWritten
    fun tokens => ∃ front, tokens = .keyword .where :: front ∧ Condition.Awaits .disjunction front :=
  passes_optional Condition.passes_condition

theorem passes_amount (word : Keyword) : Passes last bound (optional word number)
    (fun taken amount => taken = optionalTokens word (fun n => [.number n]) amount) nowhere := by
  refine (passes_optional passes_number).mono ?_ ?_
  · rintro - _ _ (_ | rfl)
    · rfl
    · rfl
  · rintro - _ ⟨_, -, hnowhere⟩
    exact hnowhere

theorem passes_projection : Passes last bound projectionReader
    (fun taken projection => projection ≠ .columns [] ∧ taken = projection.tokens) nowhere := by
  refine passes_ite_eat_of_not_stops (by simp) ?_ ?_
  · exact passes_pure fun _ => ⟨nofun, rfl⟩
  · refine (passes_commaList passes_identifier ⟨.identifier, _, rfl⟩).bind (fun _ _ => id) fun taken names hnames => ?_
    refine passes_pure fun hstops => ?_
    obtain ⟨hne, rfl⟩ := hnames hstops
    exact ⟨fun heq => hne (Projection.columns.inj heq), List.append_nil _⟩

theorem passes_sortKey : Passes last bound sortKeyReader SortKey.Written nowhere := by
  refine (passes_keyword .by).andThen fun _ => ?_
  refine passes_identifier.andThen fun column => ?_
  refine passes_ite_eat_of_not_stops (by simp) ?_ ?_
  · exact passes_pure fun _ => .marked ⟨column, .descending⟩
  · refine passes_eat_bind_of_not_stops (by simp) ?_ ?_
    · exact passes_pure fun _ => .marked ⟨column, .ascending⟩
    · exact passes_pure fun _ => .unmarked column

/-! ## Statements -/

theorem passes_createTable : Passes last bound createTableReader (fun taken statement => Written (.keyword .create :: taken) statement)
    nowhere := by
  refine (passes_keyword .table).andThen fun _ => ?_
  refine passes_identifier.andThen fun name => ?_
  refine passes_leftParen_bind ?_ ⟨.identifier, _, rfl⟩
  refine (passes_commaList passes_column ⟨.identifier, _, rfl⟩).bind (fun _ _ => id) fun taken columns hcolumns => ?_
  refine (passes_expect (by simp)).andThen fun _ => ?_
  refine passes_pure fun hstops => ?_
  obtain ⟨hne, rfl⟩ := hcolumns hstops
  exact .createTable name hne

theorem passes_createIndex : Passes last bound createIndexReader (fun taken statement => Written (.keyword .create :: taken) statement)
    nowhere := by
  refine (passes_keyword .index).andThen fun _ => ?_
  refine passes_identifier.andThen fun name => ?_
  refine (passes_keyword .on).andThen fun _ => ?_
  refine passes_identifier.andThen fun table => ?_
  refine passes_leftParen_bind ?_ ⟨.identifier, _, rfl⟩
  refine passes_identifier.andThen fun column => ?_
  refine (passes_expect (by simp)).andThen fun _ => ?_
  exact passes_pure fun _ => .createIndex name table column

theorem passes_create : Passes last bound createReader Written nowhere := by
  refine (passes_keyword .create).andThen fun _ => ?_
  refine passes_peek_bind fun token rest hlast hlength => ?_
  split
  · exact passes_createTable _ hlast hlength
  · exact passes_createIndex _ hlast hlength
  · exact passesFrom_fail _ _

theorem passes_drop : Passes last bound dropReader Written nowhere := by
  refine (passes_keyword .drop).andThen fun _ => ?_
  refine (passes_keyword .table).andThen fun _ => ?_
  refine passes_identifier.andThen fun name => ?_
  exact passes_pure fun _ => .dropTable name

theorem passes_insert : Passes last bound insertReader Written nowhere := by
  refine (passes_keyword .insert).andThen fun _ => ?_
  refine (passes_keyword .into).andThen fun _ => ?_
  refine passes_identifier.andThen fun table => ?_
  refine (passes_keyword .values).andThen fun _ => ?_
  refine passes_leftParen_bind ?_ ⟨.literal, _, rfl⟩
  refine (passes_commaList passes_literal ⟨.literal, _, rfl⟩).bind (fun _ _ => id) fun taken row hrow => ?_
  refine (passes_expect (by simp)).andThen fun _ => ?_
  refine passes_pure fun hstops => ?_
  obtain ⟨hne, rfl⟩ := hrow hstops
  exact .insert table hne

theorem passes_select : Passes last bound selectReader Written Awaits := by
  refine (passes_keyword .select).andThen fun _ => ?_
  refine passes_projection.bind (fun _ _ => False.elim) fun shown projection hprojection => ?_
  refine (passes_keyword .from).andThen fun _ => ?_
  refine passes_identifier.andThen fun table => ?_
  refine passes_where.bind (fun hstops front => ?_) fun whereTokens condition hcondition => ?_
  · rintro ⟨front, rfl, hfront⟩
    obtain ⟨hne, rfl⟩ := hprojection hstops
    exact .select hne table hfront
  · refine Passes.mono ?_ (fun _ _ _ => id) fun _ _ => False.elim
    refine ((passes_optional passes_sortKey).bind ?_ fun sortTokens sort hsort => ?_ : Passes _ _ _ _ nowhere)
    · rintro - _ ⟨_, -, hnowhere⟩
      exact hnowhere
    refine (passes_amount .limit).andThen fun limit => ?_
    refine (passes_amount .offset).andThen fun offset => ?_
    refine passes_pure fun hstops => ?_
    obtain ⟨hne, rfl⟩ := hprojection hstops
    simpa using Written.select { table, projection, condition, sort, limit, offset } hne (hcondition hstops) (hsort hstops)

theorem passes_update : Passes last bound updateReader Written Awaits := by
  refine (passes_keyword .update).andThen fun _ => ?_
  refine passes_identifier.andThen fun table => ?_
  refine (passes_keyword .set).andThen fun _ => ?_
  refine (passes_commaList passes_assignment ⟨.identifier, _, rfl⟩).bind (fun _ _ => False.elim) fun listed assignments hlist => ?_
  refine passes_where.bind (fun hstops front => ?_) fun whereTokens condition hcondition => ?_
  · rintro ⟨front, rfl, hfront⟩
    obtain ⟨hne, rfl⟩ := hlist hstops
    exact .update table hne hfront
  · refine passes_pure fun hstops => ?_
    obtain ⟨hne, rfl⟩ := hlist hstops
    simpa using Written.update table hne (hcondition hstops)

theorem passes_delete : Passes last bound deleteReader Written Awaits := by
  refine (passes_keyword .delete).andThen fun _ => ?_
  refine (passes_keyword .from).andThen fun _ => ?_
  refine passes_identifier.andThen fun table => ?_
  refine passes_where.bind (fun hstops front => ?_) fun whereTokens condition hcondition => ?_
  · rintro ⟨front, rfl, hfront⟩
    exact .delete table hfront
  · refine passes_pure fun hstops => ?_
    simpa using Written.delete table (hcondition hstops)

theorem passes_show : Passes last bound showReader Written nowhere := by
  refine (passes_keyword .show).andThen fun _ => ?_
  refine passes_peek_bind fun token rest hlast hlength => ?_
  split
  · exact passesFrom_advance_bind hlast hlength (by simp) (passes_pure fun _ => .showTables)
  · refine passesFrom_advance_bind hlast hlength (by simp) ?_
    refine (passes_keyword .from).andThen fun _ => ?_
    refine passes_identifier.andThen fun table => ?_
    exact passes_pure fun _ => .showIndex table
  · exact passesFrom_fail _ _

/-- Only the condition of a statement catches its reader. -/
theorem passes_statement : Passes last bound reader Written Awaits := by
  refine passes_peek_bind fun token rest hlast hlength => ?_
  split
  · exact (passes_create _ hlast hlength).of_nowhere
  · exact (passes_drop _ hlast hlength).of_nowhere
  · exact (passes_insert _ hlast hlength).of_nowhere
  · exact passes_select _ hlast hlength
  · exact passes_update _ hlast hlength
  · exact passes_delete _ hlast hlength
  · exact (passes_show _ hlast hlength).of_nowhere
  · exact passesFrom_fail _ _

end

/-- What is taken as a statement stands for it. -/
theorem takes_statement {bound : Nat} : Takes bound reader Written := takes_of_passes passes_statement

/-! ## Whole lists -/

/-- The tokens are those of the statement, with at most one semicolon behind them. -/
def Sentence (body : List Token) (statement : Statement) : Prop :=
  ∃ tokens, Written tokens statement ∧ (body = tokens ∨ body = tokens ++ [.symbol .semicolon])

/-- Nothing else than the mark of the end lets a statement end. -/
theorem takesFrom_end {tokens : List Token} (h : Ended tokens) (statement : Statement) :
    TakesFrom tokens (peek >>= fun found => if found = .eof then pure statement else fail .statementEnd found)
      fun taken given => taken = [] ∧ given = statement ∧ tokens = [.eof] := by
  obtain ⟨found, rest, rfl⟩ := List.exists_cons_of_ne_nil h.ne_nil
  rw [TakesFrom, run_bind_of_ok (run_peek _), List.headD_cons]
  by_cases heq : found = .eof
  · subst heq
    obtain rfl := h.eq_nil_of_eof
    exact ⟨h, [], rfl, rfl, rfl, rfl⟩
  · rw [if_neg heq]
    exact ⟨.statementEnd, found, rfl⟩

/-- All tokens before the mark of the end are taken, and they are a statement with at most one semicolon behind it. -/
theorem takesFrom_single {body : List Token} (h : .eof ∉ body) :
    TakesFrom (body ++ [.eof]) singleReader fun _ statement => Sentence body statement := by
  refine (takes_statement _ (ended_append h) (Nat.le_refl _)).bind ?_
  rintro tokens statement rest htokens hrest hwritten
  refine takesFrom_eat_bind (show Token.symbol .semicolon ≠ .eof from nofun) hrest (fun later hlater hended => ?_) ?_
  · refine (takesFrom_end hended statement).mono ?_
    rintro _ _ ⟨rfl, rfl, rfl⟩
    refine ⟨tokens, hwritten, Or.inr (List.append_cancel_right (?_ : _ ++ [Token.eof] = _ ++ [Token.eof]))⟩
    rw [htokens, hlater, List.append_assoc, List.singleton_append]
  · refine (takesFrom_end hrest statement).mono ?_
    rintro _ _ ⟨rfl, rfl, rfl⟩
    exact ⟨tokens, hwritten, Or.inl (List.append_cancel_right htokens)⟩

/-- A statement with at most one semicolon behind it is read as the statement. -/
theorem Sentence.ofTokens {body : List Token} {statement : Statement} (h : Sentence body statement) :
    ofTokens (body ++ [.eof]) = .ok statement := by
  obtain ⟨tokens, hwritten, rfl | rfl⟩ := h
  · have hread := read_of_written hwritten (show GoesOn continuations [.eof] by simp [continuations])
    have hend : GoesOn [.symbol .semicolon] [.eof] := by simp
    simp [Statement.ofTokens, singleReader, hread, run_eat_of_goesOn hend, Except.map]
  · have hread := read_of_written hwritten (show GoesOn continuations [.symbol .semicolon, .eof] by simp [continuations])
    simp [Statement.ofTokens, singleReader, hread, Except.map]

/-- Tokens before the mark of the end are read as a statement exactly when the grammar has them stand for the statement, with at
most one semicolon behind them. Any other tokens are refused, and the failure names what is needed and what is found in its
place. -/
theorem ofTokens_accepts_grammar {body : List Token} (h : .eof ∉ body) :
    (∀ statement, ofTokens (body ++ [.eof]) = .ok statement ↔ Sentence body statement) ∧
      ((¬∃ statement, Sentence body statement) →
        ∃ needed found, ofTokens (body ++ [.eof]) = .error (.unexpected needed found)) := by
  have htakes := takesFrom_single h
  unfold TakesFrom at htakes
  have hread : ofTokens (body ++ [.eof]) = (singleReader.run (body ++ [.eof])).map Prod.fst := rfl
  cases hrun : singleReader.run (body ++ [.eof]) with
  | error cause =>
    rw [hrun] at htakes hread
    obtain ⟨needed, found, rfl⟩ := htakes
    refine ⟨fun statement => ⟨fun hok => ?_, Sentence.ofTokens⟩, fun _ => ⟨needed, found, hread⟩⟩
    rw [hread] at hok
    exact absurd hok nofun
  | ok result =>
    obtain ⟨statement, rest⟩ := result
    rw [hrun] at htakes hread
    obtain ⟨-, _, -, hsentence⟩ := htakes
    refine ⟨fun other => ⟨fun hok => ?_, Sentence.ofTokens⟩, fun hnone => absurd ⟨statement, hsentence⟩ hnone⟩
    rw [hread] at hok
    obtain rfl : statement = other := Except.ok.inj hok
    exact hsentence

/-- With a comma behind its last column, a query is a sentence no more, though what stands before the comma begins one. -/
theorem ofTokens_accepts_grammar_trailingComma :
    let body : List Token := [.keyword .select, .ident "name", .symbol .comma, .keyword .from, .ident "guests"]
    .eof ∉ body ∧ (¬∃ statement, Sentence body statement) ∧
      ∃ needed found, ofTokens (body ++ [.eof]) = .error (.unexpected needed found) := by
  intro body
  have heof : .eof ∉ body := by decide
  have hrefused : ofTokens (body ++ [.eof]) = .error (.unexpected .identifier (.keyword .from)) := by rfl
  obtain ⟨haccepts, hrefuses⟩ := ofTokens_accepts_grammar heof
  have hnone : ¬∃ statement, Sentence body statement := by
    rintro ⟨statement, hsentence⟩
    rw [← haccepts, hrefused] at hsentence
    exact absurd hsentence nofun
  exact ⟨heof, hnone, hrefuses hnone⟩

end Statement

end SqlEngine
