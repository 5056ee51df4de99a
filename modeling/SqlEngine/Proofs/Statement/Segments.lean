import Mathlib.Data.List.Forall2
import SqlEngine.Proofs.Statement.Acceptance

/-!
# Scripts and their segments

Semicolons cut the tokens of a script into segments, of which the empty ones do not count. No statement has a semicolon among its
tokens, and what follows a statement does not change how it is read, be it a semicolon or the mark of the end. So a script is read
as the list of the statements that its segments are read as, each on its own, and it is refused where one of them is
(`ofTokens_reads_segments`).
-/

namespace SqlEngine

open Reader

/-! ## Tokens inside of statements -/

/-- Whether a statement ends before the token, wherever it stands. -/
def Token.endsStatement : Token → Bool
  | .symbol .semicolon | .eof => true
  | _ => false

namespace Token

@[simp] theorem endsStatement_keyword (word : Keyword) : (keyword word).endsStatement = false := rfl

@[simp] theorem endsStatement_ident (name : String) : (ident name).endsStatement = false := rfl

@[simp] theorem endsStatement_number (n : Int64) : (number n).endsStatement = false := rfl

@[simp] theorem endsStatement_dataType (type : DataType) : (dataType type).endsStatement = false := rfl

@[simp] theorem endsStatement_symbol (sign : Symbol) : (symbol sign).endsStatement = decide (sign = .semicolon) := by
  cases sign <;> rfl

theorem eq_of_endsStatement {token : Token} (h : token.endsStatement = true) : token = symbol .semicolon ∨ token = eof := by
  cases token with
  | eof => exact Or.inr rfl
  | symbol sign => exact Or.inl (congrArg symbol (by simpa using h))
  | _ => exact nomatch h

end Token

@[simp] theorem Value.endsStatement_token (value : Value) : value.token.endsStatement = false := by
  cases value <;> rfl

@[simp] theorem Operator.endsStatement_token (operator : Operator) : operator.token.endsStatement = false := by
  cases operator <;> rfl

/-- No statement ends among the tokens. -/
def Unended (tokens : List Token) : Prop := ∀ token ∈ tokens, token.endsStatement = false

@[simp] theorem unended_nil : Unended [] := nofun

@[simp] theorem unended_cons {token : Token} {tokens : List Token} :
    Unended (token :: tokens) ↔ token.endsStatement = false ∧ Unended tokens := List.forall_mem_cons

@[simp] theorem unended_append {tokens others : List Token} : Unended (tokens ++ others) ↔ Unended tokens ∧ Unended others :=
  List.forall_mem_append

theorem Unended.eof_not_mem {tokens : List Token} (h : Unended tokens) : .eof ∉ tokens := fun hmem => nomatch h _ hmem

theorem unended_of_not_mem {tokens : List Token} (hsemicolon : .symbol .semicolon ∉ tokens) (heof : .eof ∉ tokens) :
    Unended tokens := by
  intro token hmem
  rw [← Bool.not_eq_true]
  intro hends
  rcases Token.eq_of_endsStatement hends with rfl | rfl
  · exact hsemicolon hmem
  · exact heof hmem

theorem Unended.ne_semicolon {tokens : List Token} (h : Unended tokens) :
    ∀ token ∈ tokens, (token == .symbol .semicolon) = false := by
  intro token hmem
  rw [beq_eq_false_iff_ne]
  rintro rfl
  exact nomatch h _ hmem

section

variable {α : Type}

theorem unended_commaTokens {print : α → List Token} (h : ∀ item, Unended (print item)) (items : List α) : Unended (commaTokens print items) := by
  cases items with
  | nil => exact unended_nil
  | cons first others =>
    refine unended_append.mpr ⟨h first, ?_⟩
    induction others with
    | nil => exact unended_nil
    | cons item others ih => exact unended_append.mpr ⟨unended_cons.mpr ⟨rfl, h item⟩, ih⟩

theorem Reader.Clause.unended {word : Keyword} {form : List Token → α → Prop} {tokens : List Token} {value : Option α}
    (hclause : Clause word form tokens value) (h : ∀ inner given, form inner given → Unended inner) : Unended tokens := by
  cases hclause with
  | absent => exact unended_nil
  | present hform => exact unended_cons.mpr ⟨rfl, h _ _ hform⟩

end

theorem Predicate.unended_tokens (own : Predicate) : Unended own.tokens := by
  simp [Predicate.tokens]

theorem Condition.Written.unended {rank : Condition.Rank} {tokens : List Token} {condition : Condition}
    (h : Condition.Written rank tokens condition) : Unended tokens := by
  induction h with
  | predicate own => exact own.unended_tokens
  | parentheses _ ih => simpa using ih
  | operand _ ih | conjunction _ ih => exact ih
  | and _ _ ih ihother | or _ _ ih ihother => exact unended_append.mpr ⟨ih, unended_cons.mpr ⟨rfl, ihother⟩⟩

theorem Projection.unended_tokens (projection : Projection) : Unended projection.tokens := by
  cases projection with
  | all => simp [Projection.tokens]
  | columns names => exact unended_commaTokens (fun name => by simp) names

theorem SortKey.Written.unended {tokens : List Token} {key : SortKey} (h : SortKey.Written tokens key) : Unended tokens := by
  rcases h with _ | ⟨_, _ | _⟩ <;> simp [SortKey.tokens, Direction.token]

namespace Statement

/-- No statement ends among the tokens of one. -/
theorem Written.unended {tokens : List Token} {statement : Statement} (h : Written tokens statement) : Unended tokens := by
  have hwhere : ∀ {tokens condition}, WhereWritten tokens condition → Unended tokens :=
    fun hclause => hclause.unended fun _ _ hwritten => hwritten.unended
  have hamount : ∀ word amount, Unended (optionalTokens word (fun n => [Token.number n]) amount) := by
    intro word amount
    exact (clause_number word amount).unended fun _ _ hform => by simp [hform]
  cases h with
  | @createTable name columns =>
    have hlist : Unended (commaTokens Column.tokens columns) := unended_commaTokens (fun _ => by simp [Column.tokens]) columns
    simp [hlist]
  | createIndex | dropTable | showTables | showIndex => simp
  | @insert table row =>
    have hlist : Unended (commaTokens (fun value => [value.token]) row) := unended_commaTokens (fun _ => by simp) row
    simp [hlist]
  | select query _ hcondition hsort =>
    have hsort' := hsort.unended fun _ _ hwritten => hwritten.unended
    simp [hwhere hcondition, hsort', hamount, Projection.unended_tokens]
  | @update table assignments _ _ _ hcondition =>
    have hlist : Unended (commaTokens Assignment.tokens assignments) :=
      unended_commaTokens (fun _ => by simp [Assignment.tokens]) assignments
    simp [hlist, hwhere hcondition]
  | delete table hcondition => simp [hwhere hcondition]

/-- A statement has tokens. -/
theorem Written.ne_nil {tokens : List Token} {statement : Statement} (h : Written tokens statement) : tokens ≠ [] := by
  cases h <;> simp

/-! ## One statement of many -/

section

variable {segment : List Token} {statement : Statement}

/-- Without a semicolon at its end, a sentence is a statement. -/
theorem sentence_iff_written (h : Unended segment) : Sentence segment statement ↔ Written segment statement := by
  constructor
  · rintro ⟨tokens, hwritten, rfl | rfl⟩
    · exact hwritten
    · exact absurd (unended_append.mp h).2 (by simp)
  · exact fun hwritten => ⟨segment, hwritten, Or.inl rfl⟩

/-- A segment is read, on its own, as the statement that its tokens stand for. -/
theorem ofTokens_segment_iff (h : Unended segment) : ofTokens (segment ++ [.eof]) = .ok statement ↔ Written segment statement := by
  rw [← sentence_iff_written h]
  refine ⟨fun hok => ?_, Sentence.ofTokens⟩
  have htakes := takesFrom_single h.eof_not_mem
  have hread : (singleReader.run (segment ++ [.eof])).map Prod.fst = .ok statement := hok
  unfold TakesFrom at htakes
  cases hrun : singleReader.run (segment ++ [.eof]) with
  | error cause =>
    rw [hrun] at hread
    exact nomatch hread
  | ok result =>
    rw [hrun] at htakes hread
    obtain ⟨-, _, -, hsentence⟩ := htakes
    exact Except.ok.inj hread ▸ hsentence

/-- A segment that stands for a statement is taken as a whole, and one that does not is refused, or else left at a token with which
no statement ends. -/
theorem run_segment (h : Unended segment) {next : Token} {later : List Token} (hnext : next.endsStatement = true)
    (hended : Ended (next :: later)) :
    (∃ statement, Written segment statement ∧ reader.run (segment ++ next :: later) = .ok (statement, next :: later)) ∨
      (¬∃ statement, Written segment statement) ∧
        ((∃ needed found, reader.run (segment ++ next :: later) = .error (.unexpected needed found)) ∨
          ∃ statement found rest, reader.run (segment ++ next :: later) = .ok (statement, found :: rest) ∧
            found.endsStatement = false) := by
  by_cases hwritten : ∃ statement, Written segment statement
  · obtain ⟨statement, hwritten⟩ := hwritten
    have hgoes : GoesOn continuations (next :: later) := by
      refine goesOn_cons ?_ later
      rcases Token.eq_of_endsStatement hnext with rfl | rfl <;> decide
    exact Or.inl ⟨statement, hwritten, read_of_written hwritten hgoes⟩
  · refine Or.inr ⟨hwritten, ?_⟩
    have hwhole : Ended (segment ++ next :: later) := by
      obtain ⟨body, hbody, heof⟩ := hended
      refine ⟨segment ++ body, by rw [hbody, List.append_assoc], ?_⟩
      simp [h.eof_not_mem, heof]
    have htakes := takes_statement _ hwhole (Nat.le_refl _)
    unfold TakesFrom at htakes
    cases hrun : reader.run (segment ++ next :: later) with
    | error cause =>
      rw [hrun] at htakes
      obtain ⟨needed, found, rfl⟩ := htakes
      exact Or.inl ⟨needed, found, rfl⟩
    | ok result =>
      obtain ⟨statement, rest⟩ := result
      rw [hrun] at htakes
      obtain ⟨-, taken, htokens, htaken⟩ := htakes
      -- What was taken has no token that ends a statement, so it is a part of the segment, and not all of it.
      rcases List.append_eq_append_iff.mp htokens with ⟨more, rfl, hrest⟩ | ⟨left, rfl, rfl⟩
      · cases more with
        | nil => exact absurd ⟨statement, by simpa using htaken⟩ hwritten
        | cons first others =>
          obtain ⟨rfl, -⟩ := List.cons.inj hrest
          have hfirst := (unended_cons.mp (unended_append.mp htaken.unended).2).1
          exact absurd hnext (by rw [hfirst]; exact Bool.false_ne_true)
      · cases left with
        | nil => exact absurd ⟨statement, by simpa using htaken⟩ hwritten
        | cons found others =>
          exact Or.inr ⟨statement, found, _, rfl, (unended_cons.mp (unended_append.mp h).2).1⟩

end

/-! ## Reading scripts -/

section

variable {fuel : Nat} {tokens rest : List Token} {statement : Statement} {found : Token}

/-- Semicolons before a statement are passed over. -/
theorem run_scriptReader_semicolon (h : rest ≠ []) :
    (scriptReader (fuel + 1)).run (.symbol .semicolon :: rest) = (scriptReader fuel).run rest := by
  rw [scriptReader, run_bind_of_ok (run_peek _)]
  exact run_bind_of_ok (run_advance h _)

theorem run_scriptReader_eof : (scriptReader (fuel + 1)).run (.eof :: rest) = .ok ([], .eof :: rest) := by
  rw [scriptReader, run_bind_of_ok (run_peek _)]
  rfl

/-- Before any other token a statement is read, and then what stands behind it tells whether there is more to come. -/
theorem run_scriptReader_statement (h : (tokens.headD .eof).endsStatement = false) :
    (scriptReader (fuel + 1)).run tokens = (reader >>= fun statement => peek >>= fun found =>
      match found with
      | .symbol .semicolon => scriptReader fuel >>= fun script => pure (statement :: script)
      | .eof => pure [statement]
      | found => fail .separator found).run tokens := by
  rw [scriptReader, run_bind_of_ok (run_peek _)]
  generalize tokens.headD .eof = first at h
  cases first with
  | eof => exact nomatch h
  | symbol sign =>
    cases sign with
    | semicolon => exact nomatch h
    | _ => rfl
  | _ => rfl

end

end Statement

namespace Script

open Statement

/-- The tokens between semicolons, wherever there are any. -/
def segments (body : List Token) : List (List Token) :=
  (body.splitOn (.symbol .semicolon)).filter fun segment => !segment.isEmpty

@[simp] theorem segments_nil : segments [] = [] := rfl

/-- Up to the first semicolon there is the first segment, unless it is empty. -/
theorem segments_append {segment : List Token} (h : Unended segment) (rest : List Token) :
    segments (segment ++ .symbol .semicolon :: rest) = if segment = [] then segments rest else segment :: segments rest := by
  rw [segments, List.splitOn, List.splitOnP_append_cons_of_forall_mem h.ne_semicolon _ (beq_self_eq_true _), List.filter_cons]
  cases segment <;> rfl

theorem segments_semicolon (rest : List Token) : segments (.symbol .semicolon :: rest) = segments rest :=
  segments_append unended_nil rest

/-- Without a semicolon, all tokens are one segment. -/
theorem segments_self {segment : List Token} (h : Unended segment) (hne : segment ≠ []) : segments segment = [segment] := by
  rw [segments, List.splitOn, List.splitOnP_eq_singleton h.ne_semicolon, List.filter_singleton]
  cases segment with
  | nil => exact absurd rfl hne
  | cons first others => rfl

/-- On its own, the segment is read as the statement. -/
def Reads (segment : List Token) (statement : Statement) : Prop :=
  Statement.ofTokens (segment ++ [.eof]) = .ok statement

/-- The outcome is the one list of statements that the segments are read as, or it is a failure at a token that does not fit, and
there is no such list. -/
def Settles (outcome : Except ParseError Script) (segments : List (List Token)) : Prop :=
  match outcome with
  | .ok script => ∀ other, List.Forall₂ Reads segments other ↔ other = script
  | .error cause => (∃ needed found, cause = .unexpected needed found) ∧ ∀ other, ¬List.Forall₂ Reads segments other

theorem settles_nil : Settles (.ok []) [] := fun other => by rw [List.forall₂_nil_left_iff]

/-- If a first segment is read as a statement, this comes before what the other segments are read as. -/
theorem Settles.cons {outcome : Except ParseError Script} {segments : List (List Token)} (h : Settles outcome segments)
    {segment : List Token} {statement : Statement} (hreads : Reads segment statement) :
    Settles (outcome.map (statement :: ·)) (segment :: segments) := by
  have hsame : ∀ {other}, Reads segment other ↔ other = statement := by
    intro other
    exact ⟨fun hother => Except.ok.inj (hother.symm.trans hreads), fun heq => heq ▸ hreads⟩
  cases outcome with
  | ok script =>
    intro other
    rw [List.forall₂_cons_left_iff]
    constructor
    · rintro ⟨first, others, hfirst, hothers, rfl⟩
      rw [hsame.mp hfirst, (h others).mp hothers]
    · rintro rfl
      exact ⟨statement, script, hreads, (h script).mpr rfl, rfl⟩
  | error cause =>
    refine ⟨h.1, fun other hother => ?_⟩
    obtain ⟨_, others, -, hothers, rfl⟩ := List.forall₂_cons_left_iff.mp hother
    exact h.2 others hothers

/-- If a first segment is read as no statement, the segments are not read. -/
theorem settles_refused {segment : List Token} (h : ∀ statement, ¬Reads segment statement) (segments : List (List Token))
    (needed : Expectation) (found : Token) : Settles (.error (.unexpected needed found)) (segment :: segments) := by
  refine ⟨⟨needed, found, rfl⟩, fun other hother => ?_⟩
  obtain ⟨statement, _, hreads, -, rfl⟩ := List.forall₂_cons_left_iff.mp hother
  exact h statement hreads

/-- A segment up to a semicolon or to the mark of the end is read, and then the script from there on. -/
theorem settles_round {fuel : Nat} {segment : List Token} (h : Unended segment) (hne : segment ≠ []) {next : Token}
    {later : List Token} (hnext : next.endsStatement = true) (hended : Ended (next :: later)) {segments : List (List Token)}
    (hsemicolon : next = .symbol .semicolon → Settles (((scriptReader fuel).run (next :: later)).map Prod.fst) segments)
    (heof : next = .eof → segments = []) :
    Settles (((scriptReader (fuel + 1)).run (segment ++ next :: later)).map Prod.fst) (segment :: segments) := by
  have hfirst : ((segment ++ next :: later).headD .eof).endsStatement = false := by
    obtain ⟨first, others, rfl⟩ := List.exists_cons_of_ne_nil hne
    exact (unended_cons.mp h).1
  rw [run_scriptReader_statement hfirst]
  rcases run_segment h hnext hended with ⟨statement, hwritten, hread⟩ | ⟨hnone, hrefused⟩
  · have hreads : Reads segment statement := (ofTokens_segment_iff h).mpr hwritten
    rw [run_bind_of_ok hread, run_bind_of_ok (run_peek _), List.headD_cons]
    rcases Token.eq_of_endsStatement hnext with rfl | rfl
    · have hscript := (hsemicolon rfl).cons hreads
      dsimp only
      rw [StateT.run_bind]
      cases hlater : (scriptReader fuel).run (.symbol .semicolon :: later) with
      | error cause =>
        rw [hlater] at hscript
        exact hscript
      | ok result =>
        rw [hlater] at hscript
        exact hscript
    · rw [heof rfl]
      exact settles_nil.cons hreads
  · have hnone' : ∀ statement, ¬Reads segment statement :=
      fun statement hreads => hnone ⟨statement, (ofTokens_segment_iff h).mp hreads⟩
    rcases hrefused with ⟨needed, found, hread⟩ | ⟨statement, found, rest, hread, hfound⟩
    · rw [StateT.run_bind, hread]
      exact settles_refused hnone' segments needed found
    · rw [run_bind_of_ok hread, run_bind_of_ok (run_peek _), List.headD_cons]
      split
      next => exact nomatch hfound
      next => exact nomatch hfound
      next => exact settles_refused hnone' segments .separator found

/-- With fuel for all tokens, a script is read as its segments are. -/
theorem settles_scriptReader (fuel : Nat) : ∀ body : List Token, .eof ∉ body → body.length < fuel →
    Settles (((scriptReader fuel).run (body ++ [.eof])).map Prod.fst) (segments body) := by
  induction fuel with
  | zero => exact fun _ _ hfuel => absurd hfuel (Nat.not_lt_zero _)
  | succ fuel ih =>
    intro body heof hfuel
    by_cases hsemicolon : .symbol .semicolon ∈ body
    · obtain ⟨segment, rest, rfl, hsegment⟩ := List.eq_append_cons_of_mem hsemicolon
      rw [List.mem_append, List.mem_cons, not_or, not_or] at heof
      rw [List.length_append, List.length_cons] at hfuel
      have hrest := ih rest heof.2.2 (by omega)
      have hsplit := unended_of_not_mem hsegment heof.1
      rw [segments_append hsplit, List.append_assoc, List.cons_append]
      split
      next hnil =>
        subst hnil
        rw [List.nil_append, run_scriptReader_semicolon (by simp)]
        exact hrest
      next hne =>
        have hplain : .eof ∉ .symbol .semicolon :: rest := by simp [heof.2.2]
        have hpos : 0 < segment.length := List.length_pos_iff.mpr hne
        have hafter := ih (.symbol .semicolon :: rest) hplain (by rw [List.length_cons]; omega)
        rw [segments_semicolon] at hafter
        exact settles_round hsplit hne rfl (ended_append hplain) (fun _ => hafter) nofun
    · have hsplit := unended_of_not_mem hsemicolon heof
      by_cases hne : body = []
      · subst hne
        rw [List.nil_append, run_scriptReader_eof]
        exact settles_nil
      · rw [segments_self hsplit hne]
        exact settles_round hsplit hne rfl ⟨[], rfl, nofun⟩ nofun fun _ => rfl

/-- A script is read as a list of statements exactly when the statements are what its segments are read as, each on its own and in
this order. Where there is no such list, the script is refused at a token that does not fit. -/
theorem ofTokens_reads_segments {body : List Token} (h : .eof ∉ body) :
    (∀ script, Script.ofTokens (body ++ [.eof]) = .ok script ↔
        List.Forall₂ (fun segment statement => Statement.ofTokens (segment ++ [.eof]) = .ok statement) (segments body) script) ∧
      ((¬∃ script, List.Forall₂ (fun segment statement => Statement.ofTokens (segment ++ [.eof]) = .ok statement)
          (segments body) script) →
        ∃ needed found, Script.ofTokens (body ++ [.eof]) = .error (.unexpected needed found)) := by
  have hsettles : Settles (Script.ofTokens (body ++ [.eof])) (segments body) :=
    settles_scriptReader _ body h (by rw [List.length_append]; omega)
  cases hread : Script.ofTokens (body ++ [.eof]) with
  | ok script =>
    rw [hread] at hsettles
    refine ⟨fun other => ?_, fun hnone => absurd ⟨script, (hsettles script).mpr rfl⟩ hnone⟩
    exact Iff.trans ⟨fun hsame => (Except.ok.inj hsame).symm, fun hsame => hsame ▸ rfl⟩ (hsettles other).symm
  | error cause =>
    rw [hread] at hsettles
    obtain ⟨⟨needed, found, rfl⟩, hnone⟩ := hsettles
    refine ⟨fun other => ?_, fun _ => ⟨needed, found, rfl⟩⟩
    exact iff_of_false nofun (hnone other)

/-- Semicolons in front, in a row and at the end leave two segments, and with a part of a statement behind them the whole script is
refused. -/
theorem ofTokens_reads_segments_blanks :
    let body : List Token := [.symbol .semicolon, .keyword .show, .keyword .tables, .symbol .semicolon, .symbol .semicolon,
      .keyword .drop, .keyword .table, .ident "t", .symbol .semicolon]
    .eof ∉ body ∧ segments body = [[.keyword .show, .keyword .tables], [.keyword .drop, .keyword .table, .ident "t"]] ∧
      Script.ofTokens (body ++ [.eof]) = .ok [.showTables, .dropTable "t"] ∧ .eof ∉ body ++ [.keyword .drop] ∧
      ∃ needed found, Script.ofTokens (body ++ [.keyword .drop] ++ [.eof]) = .error (.unexpected needed found) := by
  intro body
  have heof : .eof ∉ body := by decide
  have heof' : .eof ∉ body ++ [.keyword .drop] := by decide
  have hsegments : segments body = [[.keyword .show, .keyword .tables], [.keyword .drop, .keyword .table, .ident "t"]] := rfl
  refine ⟨heof, hsegments, ?_, heof', ?_⟩
  · rw [(ofTokens_reads_segments heof).1, hsegments]
    exact .cons rfl (.cons rfl .nil)
  · refine (ofTokens_reads_segments heof').2 ?_
    rintro ⟨script, hscript⟩
    have hrefused : Script.ofTokens (body ++ [.keyword .drop] ++ [.eof]) =
        .error (.unexpected (.token (.keyword .table)) .eof) := by rfl
    rw [← (ofTokens_reads_segments heof').1, hrefused] at hscript
    exact nomatch hscript

end Script

end SqlEngine
