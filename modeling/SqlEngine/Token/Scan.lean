import SqlEngine.Error
import SqlEngine.Unicode.Alphabetic
import SqlEngine.Unicode.Capitals
import SqlEngine.Unicode.Numeric
import SqlEngine.Unicode.WhiteSpace

/-!
# The tokens of a text

A text is a gap, a lexeme, a gap, a lexeme, and so on to a last gap. A gap is white space and comments, a comment running from
two hyphens to the end of its line. A lexeme is the longest run of characters that makes a token: `Symbol.scan?` for the signs,
a word, an integer with an optional hyphen, or a text between two quotation marks of one kind. `Token.scan` gives the tokens of
a whole text with the mark of the end after the last.
-/

namespace SqlEngine

/-- What follows the gap at the front; `inComment` says whether the front lies in a comment. -/
def dropGap : (inComment : Bool) → List Char → List Char
  | _, [] => []
  | true, c :: rest => dropGap (c != '\n') rest
  | false, '-' :: '-' :: rest => dropGap true rest
  | false, c :: rest => if Unicode.isWhiteSpace c then dropGap false rest else c :: rest

theorem length_dropGap_le (inComment : Bool) (text : List Char) : (dropGap inComment text).length ≤ text.length := by
  fun_induction dropGap inComment text with
  | case1 => simp
  | case2 c rest ih => exact Nat.le_succ_of_le ih
  | case3 rest ih => exact Nat.le_trans ih (by simp only [List.length_cons]; omega)
  | case4 c rest _ _ ih => exact Nat.le_succ_of_le ih
  | case5 => exact Nat.le_refl _

/-- Whether a character can begin a word. -/
def startsWord (c : Char) : Bool :=
  Unicode.isAlphabetic c || c == '_'

/-- Whether a character can stand in a word after its first. -/
def continuesWord (c : Char) : Bool :=
  Unicode.isAlphabetic c || Unicode.isNumeric c || c == '_'

/-- The symbol at the front and what follows it; of two symbols that begin alike the longer one is taken. -/
def Symbol.scan? : List Char → Option (Symbol × List Char)
  | '(' :: rest => some (.leftParen, rest)
  | ')' :: rest => some (.rightParen, rest)
  | ',' :: rest => some (.comma, rest)
  | ';' :: rest => some (.semicolon, rest)
  | '*' :: rest => some (.star, rest)
  | '=' :: rest => some (.equal, rest)
  | '!' :: '=' :: rest => some (.notEqual, rest)
  | '<' :: '=' :: rest => some (.lowerEqual, rest)
  | '<' :: '>' :: rest => some (.notEqual, rest)
  | '<' :: rest => some (.lower, rest)
  | '>' :: '=' :: rest => some (.greaterEqual, rest)
  | '>' :: rest => some (.greater, rest)
  | _ => none

/-- The words that are not identifiers, in capitals, with their tokens. -/
def reservedWords : List (String × Token) :=
  Keyword.all.map (fun word => (word.spelling, .keyword word)) ++
    [("INT", .dataType .int), ("INTEGER", .dataType .int), ("TEXT", .dataType .text), ("STRING", .dataType .text)]

/-- The token of a word: what is reserved for its capital form, or else the word itself as an identifier. -/
def Token.ofWord (word : List Char) : Token :=
  (reservedWords.lookup (String.ofList (word.flatMap Unicode.asciiCapitals))).getD (.ident (String.ofList word))

/-- The number that a run of decimal digits denotes. -/
def numeralValue (digits : List Char) : Nat :=
  digits.foldl (fun n digit => 10 * n + (digit.toNat - '0'.toNat)) 0

/-- The token of an integer, if the integer has 64 bits. -/
def Token.ofNumeral (negative : Bool) (digits : List Char) : Except ParseError Token :=
  let value : Int := if negative then -numeralValue digits else numeralValue digits
  let written := String.ofList (if negative then '-' :: digits else digits)
  if value < Int64.minValue.toInt then .error (.integerTooSmall written)
  else if Int64.maxValue.toInt < value then .error (.integerTooLarge written)
  else .ok (.number (Int64.ofInt value))

/-- The token of the text that ends at the next mark of the kind that opened it, and what follows that mark. -/
def Token.scanString (mark : Char) (text : List Char) : Except ParseError (Token × List Char) :=
  match text.dropWhile (· != mark) with
  | [] => .error .unterminatedString
  | _ :: rest => .ok (.string (String.ofList (text.takeWhile (· != mark))), rest)

/-- The token at the front and what follows it. The text ends where the whole one of `total` characters does, which tells the
position of a character that starts no token. -/
def Token.scanOne (total : Nat) (first : Char) (rest : List Char) : Except ParseError (Token × List Char) :=
  match Symbol.scan? (first :: rest) with
  | some (sign, after) => .ok (.symbol sign, after)
  | none =>
    if startsWord first then
      .ok (Token.ofWord (first :: rest.takeWhile continuesWord), rest.dropWhile continuesWord)
    else if first.isDigit then
      (Token.ofNumeral false (first :: rest.takeWhile Char.isDigit)).map (·, rest.dropWhile Char.isDigit)
    else if first = '-' ∧ (rest.head?.any Char.isDigit) = true then
      (Token.ofNumeral true (rest.takeWhile Char.isDigit)).map (·, rest.dropWhile Char.isDigit)
    else if first = '\'' ∨ first = '"' then
      Token.scanString first rest
    else
      .error (.character first (total - (rest.length + 1)))

theorem Symbol.length_scan?_lt {text rest : List Char} {sign : Symbol} (h : Symbol.scan? text = some (sign, rest)) :
    rest.length < text.length := by
  unfold Symbol.scan? at h
  split at h <;> simp only [Option.some.injEq, Prod.mk.injEq, reduceCtorEq] at h <;> obtain ⟨_, rfl⟩ := h <;>
    simp only [List.length_cons] <;> omega

/-- A token takes at least one character. -/
theorem Token.length_scanOne_le {total : Nat} {first : Char} {rest after : List Char} {token : Token}
    (h : Token.scanOne total first rest = .ok (token, after)) : after.length ≤ rest.length := by
  unfold Token.scanOne at h
  split at h
  · next hsign =>
    obtain ⟨_, rfl⟩ := Prod.mk.inj (Except.ok.inj h)
    exact Nat.le_of_lt_succ (Symbol.length_scan?_lt hsign)
  · split at h
    · obtain ⟨_, rfl⟩ := Prod.mk.inj (Except.ok.inj h)
      exact (List.dropWhile_sublist _).length_le
    · have hmap : ∀ (e : Except ParseError Token) (r : List Char), e.map (·, r) = .ok (token, after) → after = r := by
        intro e r he
        cases e with
        | error _ => simp [Except.map] at he
        | ok t => simp only [Except.map, Except.ok.injEq, Prod.mk.injEq] at he; exact he.2.symm
      split at h
      · rw [hmap _ _ h]
        exact (List.dropWhile_sublist _).length_le
      · split at h
        · rw [hmap _ _ h]
          exact (List.dropWhile_sublist _).length_le
        · split at h
          · unfold Token.scanString at h
            split at h
            · exact nomatch h
            · next hdrop =>
              obtain ⟨_, rfl⟩ := Prod.mk.inj (Except.ok.inj h)
              have := (List.dropWhile_sublist (· != first) : (rest.dropWhile _).Sublist rest).length_le
              rw [hdrop] at this
              exact Nat.le_of_succ_le this
          · exact nomatch h

/-- The tokens from a point of the text on. -/
def Token.scanFrom (total : Nat) (text : List Char) : Except ParseError (List Token) :=
  match _hgap : dropGap false text with
  | [] => .ok [.eof]
  | first :: rest =>
    match _hone : Token.scanOne total first rest with
    | .error cause => .error cause
    | .ok (token, after) => (Token.scanFrom total after).map (token :: ·)
termination_by text.length
decreasing_by
  have hrest := length_dropGap_le false text
  have hafter := Token.length_scanOne_le _hone
  rw [_hgap, List.length_cons] at hrest
  omega

/-- The tokens of a text, with the mark of the end after the last. -/
def Token.scan (text : String) : Except ParseError (List Token) :=
  Token.scanFrom text.length text.toList

end SqlEngine
