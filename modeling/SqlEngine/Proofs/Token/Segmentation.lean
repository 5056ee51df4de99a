import Mathlib.Data.List.TakeWhile
import SqlEngine.Proofs.Token.Gap
import SqlEngine.Proofs.Token.Lexeme

/-!
# Texts in segments

A text is cut into segments where gaps and lexemes take turns in it, each of them the longest one from its point on (`Segments`), or
it cannot be cut up because at some point no lexeme starts, a quotation is never closed, or an integer is out of range (`Halts`). What
a text begins with is settled (`Begins.unique`), and it is what is scanned there (`begins_scanOne`). So the tokens that are scanned
are those of the segments, and there is an error exactly where the text cannot be cut up (`Token.scan_segments`).
-/

namespace SqlEngine

/-- What stops a text from going on with a token: its first character starts no lexeme, it opens a quotation that is never closed, or
its longest lexeme is an integer out of range. -/
inductive Fault (position : Nat) : (text : List Char) → (cause : ParseError) → Prop
  | character {first : Char} {rest : List Char} (hnone : ∀ lexeme : Lexeme, ¬lexeme.chars <+: first :: rest)
      (hmark : ¬(first = '\'' ∨ first = '"')) : Fault position (first :: rest) (.character first position)
  | quotation {mark : Char} {rest : List Char} (hmark : mark = '\'' ∨ mark = '"') (hnever : mark ∉ rest) :
      Fault position (mark :: rest) .unterminatedString
  | integer {text : List Char} {cause : ParseError} {lexeme : Lexeme} (hlongest : lexeme.Longest text)
      (hmeans : lexeme.Means (.error cause)) : Fault position text cause

/-- A text begins with a token if that is what its longest lexeme means, and with an error if there is a fault. -/
def Begins (position : Nat) (text : List Char) : Except ParseError (Token × List Char) → Prop
  | .ok (token, rest) => ∃ lexeme : Lexeme, text = lexeme.chars ++ rest ∧ lexeme.Longest text ∧ lexeme.Means (.ok token)
  | .error cause => Fault position text cause

/-- The text is a gap, a lexeme, a gap, a lexeme and so on to a last gap, all as long as they can be; the lexemes mean the tokens. -/
inductive Segments : (text : List Char) → (tokens : List Token) → Prop
  | last {gap : List Char} (hgap : Gap.Longest gap []) : Segments gap []
  | cons {gap rest : List Char} {lexeme : Lexeme} {token : Token} {tokens : List Token}
      (hgap : Gap.Longest gap (lexeme.chars ++ rest)) (hlexeme : lexeme.Longest (lexeme.chars ++ rest))
      (hmeans : lexeme.Means (.ok token)) (hrest : Segments rest tokens) :
      Segments (gap ++ (lexeme.chars ++ rest)) (token :: tokens)

/-- After gaps and lexemes, all as long as they can be, there is a fault; the text starts at the given position. -/
inductive Halts : (position : Nat) → (text : List Char) → (cause : ParseError) → Prop
  | fault {position : Nat} {gap text : List Char} {cause : ParseError} (hgap : Gap.Longest gap text)
      (hfault : Fault (position + gap.length) text cause) : Halts position (gap ++ text) cause
  | cons {position : Nat} {gap rest : List Char} {lexeme : Lexeme} {token : Token} {cause : ParseError}
      (hgap : Gap.Longest gap (lexeme.chars ++ rest)) (hlexeme : lexeme.Longest (lexeme.chars ++ rest))
      (hmeans : lexeme.Means (.ok token)) (hrest : Halts (position + gap.length + lexeme.chars.length) rest cause) :
      Halts position (gap ++ (lexeme.chars ++ rest)) cause

/-! ## The beginning of a text -/

/-- If there is a longest lexeme, then a fault is what the lexeme means. -/
theorem Fault.means {position : Nat} {text : List Char} {cause : ParseError} (h : Fault position text cause) {lexeme : Lexeme}
    (hlongest : lexeme.Longest text) : lexeme.Means (.error cause) := by
  cases h with
  | character hnone _ => exact absurd hlongest.1 (hnone lexeme)
  | @quotation mark rest hmark hnever =>
    obtain ⟨first, more, hchars⟩ := lexeme.exists_chars_eq
    have hfront := hlongest.1
    rw [hchars, List.cons_prefix_cons] at hfront
    obtain ⟨rfl, hfront⟩ := hfront
    have hkind : lexeme.kind = .quotation := by
      rw [Lexeme.kind_eq hchars]
      rcases hmark with rfl | rfl <;> decide
    cases lexeme with
    | quotation own content hown hcontent =>
      obtain ⟨rfl, rfl⟩ := List.cons_eq_cons.mp hchars
      exact absurd (hfront.subset List.mem_concat_self) hnever
    | _ => exact nomatch hkind
  | integer hother hmeans => rwa [Lexeme.eq_of_chars_eq (hlongest.chars_eq hother)]

theorem Fault.unique {position : Nat} {text : List Char} {cause other : ParseError} (h : Fault position text cause)
    (hother : Fault position text other) : cause = other := by
  cases hother with
  | integer hlongest hmeans => exact Except.error.inj ((h.means hlongest).unique hmeans)
  | character hnone hmark =>
    cases h with
    | character => rfl
    | quotation hquote _ => exact absurd hquote hmark
    | integer hlongest _ => exact absurd hlongest.1 (hnone _)
  | quotation hmark hnever =>
    cases h with
    | character _ hother => exact absurd hmark hother
    | quotation => rfl
    | integer hlongest hmeans =>
      have hquotation : Fault position _ _ := .quotation hmark hnever
      exact Except.error.inj (hmeans.unique (hquotation.means hlongest))

/-- What a text begins with is settled. -/
theorem Begins.unique {position : Nat} {text : List Char} {result other : Except ParseError (Token × List Char)}
    (h : Begins position text result) (hother : Begins position text other) : result = other := by
  match result, other, h, hother with
  | .ok (token, rest), .ok (same, after), ⟨lexeme, hsplit, hlongest, hmeans⟩, ⟨found, hcut, hfound, hmeaning⟩ =>
    obtain rfl := Lexeme.eq_of_chars_eq (hlongest.chars_eq hfound)
    obtain rfl := Except.ok.inj (hmeans.unique hmeaning)
    obtain rfl := List.append_cancel_left (hsplit.symm.trans hcut)
    rfl
  | .ok (token, rest), .error cause, ⟨lexeme, _, hlongest, hmeans⟩, hfault =>
    exact nomatch hmeans.unique (Fault.means hfault hlongest)
  | .error cause, .ok (token, rest), hfault, ⟨lexeme, _, hlongest, hmeans⟩ =>
    exact nomatch hmeans.unique (Fault.means hfault hlongest)
  | .error cause, .error same, hfault, hsame => rw [Fault.unique hfault hsame]

/-- A text begins with what a lexeme at its front means, if the lexeme does not go on behind that. -/
theorem begins_of_means {position : Nat} {text rest : List Char} {lexeme : Lexeme} {meaning : Except ParseError Token}
    (hmeans : lexeme.Means meaning) (hsplit : text = lexeme.chars ++ rest) (hstops : ∀ c ∈ rest.head?, ¬lexeme.GoesOn c) :
    Begins position text (meaning.map (·, rest)) := by
  have hlongest : lexeme.Longest text := hsplit ▸ Lexeme.longest_of_stops hstops
  cases meaning with
  | ok token => exact ⟨lexeme, hsplit, hlongest, hmeans⟩
  | error cause => exact .integer hlongest hmeans

/-- A run of characters of a class stops where the next one is not of the class. -/
theorem not_of_mem_head?_dropWhile {p : Char → Bool} {text : List Char} {c : Char} (h : c ∈ (text.dropWhile p).head?) :
    ¬p c = true := by
  have hhead := List.head?_dropWhile_not p text
  rw [Option.mem_def.mp h] at hhead
  exact Bool.eq_false_iff.mp hhead

/-- A quotation that is scanned ends at the next mark of its kind. -/
theorem begins_scanString {position : Nat} {mark : Char} (hmark : mark = '\'' ∨ mark = '"') (rest : List Char) :
    Begins position (mark :: rest) (Token.scanString mark rest) := by
  have hsplit : rest.takeWhile (· != mark) ++ rest.dropWhile (· != mark) = rest := List.takeWhile_append_dropWhile
  have hcontent : mark ∉ rest.takeWhile (· != mark) := by
    intro h
    have hne := List.mem_takeWhile_imp h
    exact bne_iff_ne.mp hne rfl
  unfold Token.scanString
  split
  next hend =>
    rw [hend, List.append_nil] at hsplit
    exact .quotation hmark (hsplit ▸ hcontent)
  next c after hend =>
    have hhead : c ∈ (rest.dropWhile (· != mark)).head? := by rw [hend]; rfl
    have hc := not_of_mem_head?_dropWhile hhead
    obtain rfl : c = mark := by simpa using hc
    have hmeans : (Lexeme.quotation c _ hmark hcontent).Means (.ok (.string (String.ofList (rest.takeWhile (· != c))))) := rfl
    refine begins_of_means hmeans ?_ (fun _ _ => id)
    show c :: rest = c :: (rest.takeWhile (· != c) ++ [c]) ++ after
    rw [List.cons_append, List.append_assoc, List.singleton_append, ← hend, hsplit]

/-- No lexeme is at the front of a text that no branch of the scan fits. -/
theorem no_lexeme_in_front {first : Char} {rest : List Char} (hsymbol : Symbol.scan? (first :: rest) = none)
    (hword : ¬startsWord first = true) (hdigit : ¬first.isDigit = true)
    (hhyphen : ¬(first = '-' ∧ (rest.head?.any Char.isDigit) = true)) (hmark : ¬(first = '\'' ∨ first = '"')) (lexeme : Lexeme) :
    ¬lexeme.chars <+: first :: rest := by
  intro hfront
  cases lexeme with
  | symbol sign spelling hspelling =>
    obtain ⟨after, hafter⟩ := hfront
    exact Symbol.scan?_spelling_append hspelling after (hafter ▸ hsymbol)
  | word start more hstart _ =>
    obtain ⟨rfl, -⟩ := List.cons_prefix_cons.mp hfront
    exact hword hstart
  | numeral negative digits hne hdigits =>
    obtain ⟨digit, more, rfl⟩ := List.exists_cons_of_ne_nil hne
    have hisDigit : digit.isDigit = true := hdigits digit List.mem_cons_self
    cases negative with
    | true =>
      obtain ⟨rfl, hdigits⟩ := List.cons_prefix_cons.mp hfront
      obtain ⟨after, rfl⟩ := hdigits
      exact hhyphen ⟨rfl, hisDigit⟩
    | false =>
      obtain ⟨rfl, -⟩ := List.cons_prefix_cons.mp hfront
      exact hdigit hisDigit
  | quotation mark content hquote _ =>
    obtain ⟨rfl, -⟩ := List.cons_prefix_cons.mp hfront
    exact hmark hquote

/-- What is scanned at the front of a text is what the text begins with. -/
theorem begins_scanOne (total : Nat) (first : Char) (rest : List Char) :
    Begins (total - (rest.length + 1)) (first :: rest) (Token.scanOne total first rest) := by
  unfold Token.scanOne
  split
  next sign after hsymbol =>
    obtain ⟨spelling, hspelling, hsplit, hstops⟩ := Symbol.scan?_eq_some hsymbol
    have hmeans : (Lexeme.symbol sign spelling hspelling).Means (.ok (.symbol sign)) := rfl
    refine begins_of_means hmeans hsplit fun c hc => ?_
    rintro ⟨other, hother⟩
    exact hstops c hc other hother
  next hsymbol =>
    have hdigits : ∀ c ∈ rest.takeWhile Char.isDigit, c.isDigit = true := fun c hc => List.mem_takeWhile_imp hc
    split
    next hword =>
      have hmore : ∀ c ∈ rest.takeWhile continuesWord, continuesWord c = true := fun c hc => List.mem_takeWhile_imp hc
      have hmeans : (Lexeme.word first _ hword hmore).Means (.ok (Token.ofWord (first :: rest.takeWhile continuesWord))) :=
        ⟨_, names_iff.mpr rfl, rfl⟩
      refine begins_of_means hmeans ?_ fun c hc => not_of_mem_head?_dropWhile hc
      exact congrArg (first :: ·) List.takeWhile_append_dropWhile.symm
    next hword =>
      split
      next hdigit =>
        have hall : ∀ c ∈ first :: rest.takeWhile Char.isDigit, c.isDigit = true := List.forall_mem_cons.mpr ⟨hdigit, hdigits⟩
        have hmeans : (Lexeme.numeral false _ _ hall).Means _ := Lexeme.means_ofNumeral (List.cons_ne_nil _ _) hall
        refine begins_of_means hmeans ?_ fun c hc => not_of_mem_head?_dropWhile hc
        exact congrArg (first :: ·) List.takeWhile_append_dropWhile.symm
      next hdigit =>
        split
        next hhyphen =>
          obtain ⟨rfl, hhead⟩ := hhyphen
          have hne : rest.takeWhile Char.isDigit ≠ [] := by
            cases rest with
            | nil => exact nomatch hhead
            | cons digit more =>
              rw [List.takeWhile_cons_of_pos (show digit.isDigit = true from hhead)]
              exact List.cons_ne_nil digit _
          have hmeans : (Lexeme.numeral true _ hne hdigits).Means _ := Lexeme.means_ofNumeral hne hdigits
          refine begins_of_means hmeans ?_ fun c hc => not_of_mem_head?_dropWhile hc
          exact congrArg ('-' :: ·) List.takeWhile_append_dropWhile.symm
        next hhyphen =>
          split
          next hmark => exact begins_scanString hmark rest
          next hmark => exact .character (no_lexeme_in_front hsymbol hword hdigit hhyphen hmark) hmark

/-! ## The whole text -/

/-- Where only a gap is left, the end is scanned. -/
theorem scanFrom_of_nil {total : Nat} {text : List Char} (h : dropGap false text = []) : Token.scanFrom total text = .ok [.eof] := by
  rw [Token.scanFrom]
  split
  next => rfl
  next first rest hcons => exact absurd (hcons.symm.trans h) (List.cons_ne_nil first rest)

/-- Behind a gap one token is scanned, then the rest. -/
theorem scanFrom_of_cons {total : Nat} {text rest : List Char} {first : Char} (h : dropGap false text = first :: rest) :
    Token.scanFrom total text =
      (Token.scanOne total first rest).bind fun (token, after) => (Token.scanFrom total after).map (token :: ·) := by
  rw [Token.scanFrom]
  split
  next hnil => exact absurd (h.symm.trans hnil) (List.cons_ne_nil first rest)
  next start more hcons =>
    obtain ⟨rfl, rfl⟩ := List.cons_eq_cons.mp (h.symm.trans hcons)
    split
    next cause hone => rw [hone]; rfl
    next token after hone => rw [hone]; rfl

/-- A longest gap and a longest lexeme give a token, and the scan goes on behind them. -/
theorem scanFrom_append {gap rest : List Char} {lexeme : Lexeme} {token : Token} (hgap : Gap.Longest gap (lexeme.chars ++ rest))
    (hlexeme : lexeme.Longest (lexeme.chars ++ rest)) (hmeans : lexeme.Means (.ok token)) (total : Nat) :
    Token.scanFrom total (gap ++ (lexeme.chars ++ rest)) = (Token.scanFrom total rest).map (token :: ·) := by
  have hdrop := hgap.dropGap_eq
  obtain ⟨first, more, hchars⟩ := lexeme.exists_chars_eq
  have hbegins : ∀ position, Begins position (lexeme.chars ++ rest) (.ok (token, rest)) := fun _ => ⟨lexeme, rfl, hlexeme, hmeans⟩
  rw [hchars, List.cons_append] at hdrop hbegins ⊢
  have hone : Token.scanOne total first (more ++ rest) = .ok (token, rest) := (begins_scanOne total _ _).unique (hbegins _)
  rw [scanFrom_of_cons hdrop, hone]
  rfl

theorem Fault.exists_cons {position : Nat} {text : List Char} {cause : ParseError} (h : Fault position text cause) :
    ∃ first rest, text = first :: rest := by
  cases h with
  | character => exact ⟨_, _, rfl⟩
  | quotation => exact ⟨_, _, rfl⟩
  | @integer _ _ lexeme hlongest _ =>
    obtain ⟨after, rfl⟩ := hlongest.1
    obtain ⟨first, more, hchars⟩ := lexeme.exists_chars_eq
    exact ⟨first, more ++ after, by rw [hchars, List.cons_append]⟩

/-- A text that is cut up into segments gives their tokens. -/
theorem Segments.scanFrom_eq {text : List Char} {found : List Token} (h : Segments text found) (total : Nat) :
    Token.scanFrom total text = .ok (found ++ [.eof]) := by
  induction h with
  | @last gap hgap =>
    have hdrop := hgap.dropGap_eq
    rw [List.append_nil] at hdrop
    exact scanFrom_of_nil hdrop
  | cons hgap hlexeme hmeans _ ih => rw [scanFrom_append hgap hlexeme hmeans, ih]; rfl

/-- A text that cannot be cut up gives the error of the first fault. -/
theorem Halts.scanFrom_eq {position : Nat} {text : List Char} {cause : ParseError} (h : Halts position text cause) {total : Nat}
    (htotal : position + text.length = total) : Token.scanFrom total text = .error cause := by
  induction h with
  | @fault position gap text cause hgap hfault =>
    have hdrop := hgap.dropGap_eq
    obtain ⟨first, rest, rfl⟩ := hfault.exists_cons
    rw [List.length_append, List.length_cons] at htotal
    have hposition : position + gap.length = total - (rest.length + 1) := by omega
    rw [hposition] at hfault
    have hone : Token.scanOne total first rest = .error cause := (begins_scanOne total first rest).unique hfault
    rw [scanFrom_of_cons hdrop, hone]
    rfl
  | cons hgap hlexeme hmeans _ ih =>
    rw [List.length_append, List.length_append] at htotal
    rw [scanFrom_append hgap hlexeme hmeans, ih (by omega)]
    rfl

/-- What is scanned is either the tokens of the segments or the error of the first fault. -/
theorem segments_or_halts {total position : Nat} {text : List Char} (h : position + text.length = total) :
    (∃ found, Token.scanFrom total text = .ok (found ++ [.eof]) ∧ Segments text found) ∨
      ∃ cause, Token.scanFrom total text = .error cause ∧ Halts position text cause := by
  -- The cases are those of the scan: the end, an error, and a token with the scan of what follows it.
  fun_induction Token.scanFrom total text generalizing position with
  | case1 text hdrop =>
    obtain ⟨gap, hsplit, hgap⟩ := Gap.exists_longest text
    rw [hdrop] at hsplit hgap
    rw [List.append_nil] at hsplit
    exact .inl ⟨[], rfl, hsplit ▸ .last hgap⟩
  | case2 text first rest hdrop cause hone =>
    obtain ⟨gap, hsplit, hgap⟩ := Gap.exists_longest text
    rw [hdrop] at hsplit hgap
    subst hsplit
    rw [List.length_append, List.length_cons] at h
    have hposition : total - (rest.length + 1) = position + gap.length := by omega
    have hfault := begins_scanOne total first rest
    rw [hone, hposition] at hfault
    exact .inr ⟨cause, rfl, .fault hgap hfault⟩
  | case3 text first rest hdrop token after hone ih =>
    obtain ⟨gap, hsplit, hgap⟩ := Gap.exists_longest text
    have hbegins := begins_scanOne total first rest
    rw [hone] at hbegins
    obtain ⟨lexeme, hcut, hlexeme, hmeans⟩ := hbegins
    rw [hdrop] at hsplit hgap
    rw [hcut] at hsplit hgap hlexeme
    subst hsplit
    rw [List.length_append, List.length_append] at h
    have hafter : position + gap.length + lexeme.chars.length + after.length = total := by omega
    rcases ih hafter with ⟨found, hscan, hfound⟩ | ⟨cause, hscan, hhalts⟩
    · exact .inl ⟨token :: found, by rw [hscan]; rfl, .cons hgap hlexeme hmeans hfound⟩
    · exact .inr ⟨cause, by rw [hscan]; rfl, .cons hgap hlexeme hmeans hhalts⟩

/-- A text gives tokens exactly if gaps and lexemes take turns in it up to its end, all as long as they can be: the tokens that the
lexemes mean and the mark of the end. Otherwise there is an error, that of the first point where no lexeme starts, a quotation is
never closed, or an integer is out of range. -/
theorem Token.scan_segments (text : String) :
    (∀ tokens, Token.scan text = .ok tokens ↔ ∃ found, tokens = found ++ [.eof] ∧ Segments text.toList found) ∧
      ∀ cause, Token.scan text = .error cause ↔ Halts 0 text.toList cause := by
  have htotal : 0 + text.toList.length = text.length := by rw [Nat.zero_add, String.length_toList]
  refine ⟨fun tokens => ⟨fun hscan => ?_, ?_⟩, fun cause => ⟨fun hscan => ?_, fun h => h.scanFrom_eq htotal⟩⟩
  · rcases segments_or_halts htotal with ⟨found, hfound, hsegments⟩ | ⟨cause, hcause, -⟩
    · exact ⟨found, Except.ok.inj (hscan.symm.trans hfound), hsegments⟩
    · exact nomatch hscan.symm.trans hcause
  · rintro ⟨found, rfl, h⟩
    exact h.scanFrom_eq text.length
  · rcases segments_or_halts htotal with ⟨found, hfound, -⟩ | ⟨other, hother, hhalts⟩
    · exact nomatch hscan.symm.trans hfound
    · rwa [Except.error.inj (hscan.symm.trans hother)]

-- Lexemes need no gap between them: a hyphen starts an integer, a comment or nothing at all, by what follows it.
example : Token.scan "a<>-1--b" = .ok [.ident "a", .symbol .notEqual, .number (-1), .eof] := by cbv

example : Token.scan "a- 1" = .error (.character '-' 1) := by cbv

end SqlEngine
