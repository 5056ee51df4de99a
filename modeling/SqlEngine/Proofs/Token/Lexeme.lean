import Mathlib.Algebra.Group.Int.Defs
import SqlEngine.Proofs.Token.Characters
import SqlEngine.Proofs.Token.Symbol

/-!
# Lexemes

A lexeme is a run of characters that makes one token: a symbol, a word, an integer, or a text between quotation marks (`Lexeme`). Its
first character settles which of these it is (`kind_eq`), so that two lexemes which begin alike can only differ in where they end. A
lexeme that could not go on with the character after it is the longest one that starts there (`longest_of_stops`). What a lexeme means
is a token or, for an integer outside the 64-bit range, an error (`Lexeme.Means`).
-/

namespace SqlEngine

/-! ## Words -/

/-- The capital form of a word. -/
def capitals (word : List Char) : String := String.ofList (word.flatMap Unicode.asciiCapitals)

/-- A word names what is reserved for its capital form, or else itself. -/
def Names (word : List Char) (token : Token) : Prop :=
  (capitals word, token) ∈ reservedWords ∨
    (∀ reserved ∈ reservedWords, reserved.1 ≠ capitals word) ∧ token = .ident (String.ofList word)

/-! ## Integers -/

/-- An integer as it is written. -/
def signed (negative : Bool) (digits : List Char) : List Char := if negative then '-' :: digits else digits

/-- The integer that is written in decimal digits, with a sign or without. -/
def integer (negative : Bool) (digits : List Char) : Int :=
  if negative then -(Nat.ofDigitChars 10 digits 0) else Nat.ofDigitChars 10 digits 0

/-! ## Lexemes -/

/-- A run of characters that makes one token. -/
inductive Lexeme where
  | symbol (sign : Symbol) (spelling : List Char) (hspelling : spelling ∈ sign.spellings)
  | word (first : Char) (more : List Char) (hfirst : startsWord first = true) (hmore : ∀ c ∈ more, continuesWord c = true)
  | numeral (negative : Bool) (digits : List Char) (hne : digits ≠ []) (hdigits : ∀ c ∈ digits, c.isDigit = true)
  | quotation (mark : Char) (content : List Char) (hmark : mark = '\'' ∨ mark = '"') (hcontent : mark ∉ content)

namespace Lexeme

/-- The characters of a lexeme. -/
def chars : Lexeme → List Char
  | symbol _ spelling _ => spelling
  | word first more _ _ => first :: more
  | numeral negative digits _ _ => signed negative digits
  | quotation mark content _ _ => mark :: (content ++ [mark])

/-- A lexeme is longest in a text if it stands at the front, and no longer one does. -/
def Longest (lexeme : Lexeme) (text : List Char) : Prop :=
  lexeme.chars <+: text ∧ ∀ other : Lexeme, other.chars <+: text → other.chars.length ≤ lexeme.chars.length

/-- What a lexeme means: its token, or that there is no such integer of 64 bits. -/
def Means : Lexeme → Except ParseError Token → Prop
  | symbol sign _ _, meaning => meaning = .ok (.symbol sign)
  | word first more _ _, meaning => ∃ token, Names (first :: more) token ∧ meaning = .ok token
  | numeral negative digits _ _, meaning =>
    (∃ n : Int64, n.toInt = integer negative digits ∧ meaning = .ok (.number n)) ∨
    (2 ^ 63 ≤ integer negative digits ∧ meaning = .error (.integerTooLarge (String.ofList (signed negative digits)))) ∨
    (integer negative digits < -2 ^ 63 ∧ meaning = .error (.integerTooSmall (String.ofList (signed negative digits))))
  | quotation _ content _ _, meaning => meaning = .ok (.string (String.ofList content))

end Lexeme

namespace Lexeme

/-! ## The first character -/

/-- The kinds of lexemes. -/
inductive Kind where
  | symbol | word | numeral | quotation
  deriving DecidableEq

/-- The kind of a lexeme. -/
def kind : Lexeme → Kind
  | symbol _ _ _ => .symbol
  | word _ _ _ _ => .word
  | numeral _ _ _ _ => .numeral
  | quotation _ _ _ _ => .quotation

/-- The kind of the lexemes that begin with a character, if there are any. -/
def Kind.ofFirst (first : Char) : Kind :=
  if startsWord first then .word
  else if first.isDigit || first == '-' then .numeral
  else if first == '\'' || first == '"' then .quotation
  else .symbol

theorem ofFirst_of_spelling {sign : Symbol} :
    ∀ spelling ∈ sign.spellings, spelling.head?.map Kind.ofFirst = some .symbol := by
  cases sign <;> decide

/-- The first character settles the kind. -/
theorem kind_eq {lexeme : Lexeme} {first : Char} {more : List Char} (h : lexeme.chars = first :: more) :
    lexeme.kind = .ofFirst first := by
  cases lexeme with
  | symbol sign spelling hspelling =>
    have hfirst := ofFirst_of_spelling spelling hspelling
    rw [show spelling = first :: more from h, List.head?_cons, Option.map_some, Option.some.injEq] at hfirst
    exact hfirst.symm
  | word start rest hfirst hmore =>
    obtain ⟨rfl, rfl⟩ := List.cons_eq_cons.mp h
    rw [kind, Kind.ofFirst, if_pos hfirst]
  | numeral negative digits hne hdigits =>
    cases negative with
    | true =>
      obtain ⟨rfl, rfl⟩ := List.cons_eq_cons.mp h
      show Kind.numeral = _
      decide
    | false =>
      have hdigit : first.isDigit = true := hdigits first (by rw [show digits = first :: more from h]; exact List.mem_cons_self)
      rw [kind, Kind.ofFirst, startsWord_of_isDigit hdigit, hdigit]
      rfl
  | quotation mark content hmark hcontent =>
    obtain ⟨rfl, rfl⟩ := List.cons_eq_cons.mp h
    show Kind.quotation = _
    rcases hmark with rfl | rfl <;> decide

/-- A lexeme has a first character. -/
theorem exists_chars_eq (lexeme : Lexeme) : ∃ first more, lexeme.chars = first :: more := by
  refine List.exists_cons_of_ne_nil ?_
  cases lexeme with
  | symbol sign spelling hspelling =>
    rintro rfl
    exact nomatch ofFirst_of_spelling [] hspelling
  | word first more _ _ => exact List.cons_ne_nil first more
  | numeral negative digits hne _ =>
    cases negative with
    | true => exact List.cons_ne_nil '-' digits
    | false => exact hne
  | quotation mark content _ _ => exact List.cons_ne_nil mark _

/-- Lexemes at the front of one text are of one kind. -/
theorem kind_eq_of_prefix {lexeme other : Lexeme} {text : List Char} (h : lexeme.chars <+: text) (hother : other.chars <+: text) :
    lexeme.kind = other.kind := by
  obtain ⟨first, more, hchars⟩ := lexeme.exists_chars_eq
  obtain ⟨start, rest, hothers⟩ := other.exists_chars_eq
  rw [hchars] at h
  rw [hothers] at hother
  obtain ⟨after, rfl⟩ := h
  rw [List.cons_append, List.cons_prefix_cons] at hother
  rw [kind_eq hchars, kind_eq hothers, hother.1]

/-! ## Where lexemes end -/

/-- The characters with which a longer lexeme goes on behind a lexeme. -/
def GoesOn : Lexeme → Char → Prop
  | symbol _ spelling _, c => ∃ other : Symbol, spelling ++ [c] ∈ other.spellings
  | word _ _ _ _, c => continuesWord c = true
  | numeral _ _ _ _, c => c.isDigit = true
  | quotation _ _ _ _, _ => False

theorem signed_append (negative : Bool) (digits more : List Char) :
    signed negative digits ++ more = signed negative (digits ++ more) := by
  cases negative <;> rfl

theorem head?_ne_hyphen {digits : List Char} (h : ∀ c ∈ digits, c.isDigit = true) : digits.head? ≠ some '-' :=
  fun hhead => absurd (h '-' (List.mem_of_head? hhead)) (by decide)

/-- The sign is told from the digits. -/
theorem signed_inj {negative other : Bool} {digits more : List Char} (h : signed negative digits = signed other more)
    (hdigits : digits.head? ≠ some '-') (hmore : more.head? ≠ some '-') : negative = other ∧ digits = more := by
  cases negative <;> cases other
  · exact ⟨rfl, h⟩
  · exact absurd (congrArg List.head? h) hdigits
  · exact absurd (congrArg List.head? h).symm hmore
  · exact ⟨rfl, (List.cons_eq_cons.mp h).2⟩

/-- A lexeme goes on with the character that a longer one has behind it. -/
theorem goesOn_of_chars {lexeme other : Lexeme} {c : Char} {more : List Char} (h : other.chars = lexeme.chars ++ c :: more) :
    lexeme.GoesOn c := by
  have hkind : lexeme.kind = other.kind := kind_eq_of_prefix ⟨c :: more, h.symm⟩ (List.prefix_refl _)
  cases lexeme with
  | symbol sign spelling hspelling =>
    cases other with
    | symbol longer whole hwhole =>
      have hlength := Symbol.length_spelling_le whole hwhole
      have hne : spelling ≠ [] := by
        rintro rfl
        exact nomatch ofFirst_of_spelling [] hspelling
      have hpos := List.length_pos_iff.mpr hne
      have hchars : whole = spelling ++ c :: more := h
      rw [hchars, List.length_append, List.length_cons] at hlength
      obtain rfl := List.length_eq_zero_iff.mp (show more.length = 0 by omega)
      exact ⟨longer, hchars ▸ hwhole⟩
    | _ => exact nomatch hkind
  | word first rest hfirst hrest =>
    cases other with
    | word start whole hstart hwhole =>
      have hchars : whole = rest ++ c :: more := (List.cons_eq_cons.mp h).2
      exact hwhole c (hchars ▸ List.mem_append_cons_self)
    | _ => exact nomatch hkind
  | numeral negative digits hne hdigits =>
    cases other with
    | numeral sign whole hwhole hall =>
      have hchars : signed sign whole = signed negative (digits ++ c :: more) :=
        h.trans (signed_append negative digits (c :: more))
      have hhead : (digits ++ c :: more).head? ≠ some '-' := by
        have hfirst := head?_ne_hyphen hdigits
        obtain ⟨first, rest, rfl⟩ := List.exists_cons_of_ne_nil hne
        exact hfirst
      obtain ⟨-, rfl⟩ := signed_inj hchars (head?_ne_hyphen hall) hhead
      exact hall c List.mem_append_cons_self
    | _ => exact nomatch hkind
  | quotation mark content hmark hcontent =>
    cases other with
    | quotation start whole hstart hwhole =>
      obtain ⟨rfl, hchars⟩ := List.cons_eq_cons.mp h
      have hlast : whole ++ [start] = (content ++ start :: (c :: more).dropLast) ++ [(c :: more).getLast nofun] := by
        rw [List.append_assoc, List.cons_append, List.dropLast_concat_getLast]
        exact hchars.trans (List.append_cons content start (c :: more)).symm
      rw [(List.append_inj' hlast rfl).1] at hwhole
      exact hwhole List.mem_append_cons_self
    | _ => exact nomatch hkind

/-- A lexeme is longest if it does not go on with the character behind it. -/
theorem longest_of_stops {lexeme : Lexeme} {rest : List Char} (h : ∀ c ∈ rest.head?, ¬lexeme.GoesOn c) :
    lexeme.Longest (lexeme.chars ++ rest) := by
  refine ⟨List.prefix_append _ _, fun other hother => ?_⟩
  refine Nat.le_of_not_lt fun hlonger => ?_
  obtain ⟨extra, hextra⟩ := List.prefix_of_prefix_length_le (List.prefix_append _ _) hother (Nat.le_of_lt hlonger)
  cases extra with
  | nil =>
    rw [← hextra, List.append_nil] at hlonger
    exact Nat.lt_irrefl _ hlonger
  | cons c more =>
    rw [← hextra, List.prefix_append_right_inj] at hother
    obtain ⟨after, rfl⟩ := hother
    exact h c rfl (goesOn_of_chars hextra.symm)

/-- There is one longest lexeme at most. -/
theorem Longest.chars_eq {lexeme other : Lexeme} {text : List Char} (h : lexeme.Longest text) (hother : other.Longest text) :
    lexeme.chars = other.chars := by
  have hlength : lexeme.chars.length = other.chars.length :=
    Nat.le_antisymm (hother.2 lexeme h.1) (h.2 other hother.1)
  exact (List.prefix_of_prefix_length_le h.1 hother.1 (Nat.le_of_eq hlength)).eq_of_length hlength

/-! ## Meanings -/

/-- Lexemes of the same characters are the same. -/
theorem eq_of_chars_eq {lexeme other : Lexeme} (h : lexeme.chars = other.chars) : lexeme = other := by
  have hkind : lexeme.kind = other.kind := kind_eq_of_prefix (h ▸ List.prefix_refl _) (List.prefix_refl _)
  cases lexeme with
  | symbol sign spelling hspelling =>
    cases other with
    | symbol same whole hwhole =>
      obtain rfl : spelling = whole := h
      have hsign := (Symbol.scan?_spelling spelling hspelling).symm.trans (Symbol.scan?_spelling spelling hwhole)
      obtain rfl := (Prod.mk.inj (Option.some.inj hsign)).1
      rfl
    | _ => exact nomatch hkind
  | word first rest hfirst hrest =>
    cases other with
    | word start whole hstart hwhole =>
      obtain ⟨rfl, rfl⟩ := List.cons_eq_cons.mp h
      rfl
    | _ => exact nomatch hkind
  | numeral negative digits hne hdigits =>
    cases other with
    | numeral sign whole hwhole hall =>
      obtain ⟨rfl, rfl⟩ := signed_inj h (head?_ne_hyphen hdigits) (head?_ne_hyphen hall)
      rfl
    | _ => exact nomatch hkind
  | quotation mark content hmark hcontent =>
    cases other with
    | quotation start whole hstart hwhole =>
      obtain ⟨rfl, hchars⟩ := List.cons_eq_cons.mp h
      obtain rfl := (List.append_inj' hchars rfl).1
      rfl
    | _ => exact nomatch hkind

end Lexeme

/-- Of the reserved words no two are the same. -/
theorem nodup_reservedWords : (reservedWords.map Prod.fst).Nodup := by decide +kernel

theorem lookup_reservedWords {name : String} {token : Token} :
    reservedWords.lookup name = some token ↔ (name, token) ∈ reservedWords := by
  rw [List.lookup_eq_some_iff]
  constructor
  · rintro ⟨before, after, hsplit, -⟩
    exact hsplit ▸ List.mem_append_cons_self
  · intro hmem
    obtain ⟨before, after, hsplit⟩ := List.append_of_mem hmem
    refine ⟨before, after, hsplit, fun reserved hreserved => bne_iff_ne.mpr ?_⟩
    have hnodup := nodup_reservedWords
    rw [hsplit, List.map_append, List.nodup_append] at hnodup
    exact (hnodup.2.2 _ (List.mem_map_of_mem hreserved) _ List.mem_cons_self).symm

/-- The token of a word is what the word names. -/
theorem names_iff {word : List Char} {token : Token} : Names word token ↔ Token.ofWord word = token := by
  rw [Names, ← lookup_reservedWords, Token.ofWord, ← capitals]
  cases hlookup : reservedWords.lookup (capitals word) with
  | none =>
    have hnone : ∀ reserved ∈ reservedWords, reserved.1 ≠ capitals word := fun reserved hreserved =>
      (bne_iff_ne.mp (List.lookup_eq_none_iff.mp hlookup reserved hreserved)).symm
    rw [and_iff_right hnone, or_iff_right nofun]
    exact eq_comm
  | some found =>
    have hfound : ¬∀ reserved ∈ reservedWords, reserved.1 ≠ capitals word :=
      fun h => h _ (lookup_reservedWords.mp hlookup) rfl
    rw [or_iff_left (not_and_of_not_left _ hfound), Option.getD_some, Option.some.injEq]

namespace Lexeme

/-- A lexeme means one thing. -/
theorem Means.unique {lexeme : Lexeme} {meaning other : Except ParseError Token} (h : lexeme.Means meaning)
    (hother : lexeme.Means other) : meaning = other := by
  cases lexeme with
  | symbol sign _ _ => exact Eq.trans h (Eq.symm hother)
  | word first more _ _ =>
    obtain ⟨token, hnames, rfl⟩ := h
    obtain ⟨same, hsame, rfl⟩ := hother
    rw [← names_iff.mp hnames, ← names_iff.mp hsame]
  | numeral negative digits _ _ =>
    rcases h with ⟨n, hn, rfl⟩ | ⟨hlarge, rfl⟩ | ⟨hsmall, rfl⟩ <;>
      rcases hother with ⟨m, hm, rfl⟩ | ⟨hlarge', rfl⟩ | ⟨hsmall', rfl⟩
    · rw [Int64.toInt_inj.mp (hn.trans hm.symm)]
    · have := n.toInt_lt; omega
    · have := n.le_toInt; omega
    · have := m.toInt_lt; omega
    · rfl
    · omega
    · have := m.le_toInt; omega
    · omega
    · rfl
  | quotation _ content _ _ => exact Eq.trans h (Eq.symm hother)

/-- An integer means what its numeral is read as. -/
theorem means_ofNumeral {negative : Bool} {digits : List Char} (hne : digits ≠ []) (hdigits : ∀ c ∈ digits, c.isDigit = true) :
    (numeral negative digits hne hdigits).Means (Token.ofNumeral negative digits) := by
  unfold Token.ofNumeral
  have hvalue : (if negative then -(numeralValue digits : Int) else numeralValue digits) = integer negative digits := rfl
  have hwritten : (if negative then '-' :: digits else digits) = signed negative digits := rfl
  simp only [hvalue, hwritten]
  split
  next hsmall => exact .inr (.inr ⟨hsmall, rfl⟩)
  next hsmall =>
    split
    next hlarge => exact .inr (.inl ⟨hlarge, rfl⟩)
    next hlarge =>
      exact .inl ⟨_, Int64.toInt_ofInt_of_le (Int.not_lt.mp hsmall) (Int.lt_of_le_of_lt (Int.not_lt.mp hlarge) (by decide)), rfl⟩

end Lexeme

end SqlEngine
