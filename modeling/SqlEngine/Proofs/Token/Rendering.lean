import Mathlib.Data.List.Basic
import SqlEngine.Proofs.Token.Segmentation

/-!
# Texts that are written from tokens

Tokens are written one after the other with layout around them: white space and comments, of which there is some between any two
(`Rendered`). Keywords and the names of types may be written in capitals and small letters, integers with zeros in front, and a text
between marks that are not in it (`Token.Spelled`). Whatever is chosen of this, a text that is written from tokens is cut up into
lexemes that mean these tokens (`Token.Row.segments`), so that scanning it gives them back (`Token.scan_rendered`).
-/

namespace SqlEngine

/-- The ways of writing the name of a type, in capitals. -/
def DataType.spellings : DataType → List String
  | .int => ["INT", "INTEGER"]
  | .text => ["TEXT", "STRING"]

namespace Token

/-- The ways of writing a token: a reserved word in capitals or small letters, an identifier as it is, an integer in decimal with any
number of zeros in front, a text between two marks that it does not contain, and a symbol in any of its ways. -/
inductive Spelled : (token : Token) → (chars : List Char) → Prop
  | keyword {word : Keyword} {chars : List Char} (h : chars.map Char.toUpper = word.spelling.toList) : Spelled (.keyword word) chars
  | dataType {type : DataType} {spelling : String} {chars : List Char} (hspelling : spelling ∈ type.spellings)
      (h : chars.map Char.toUpper = spelling.toList) : Spelled (.dataType type) chars
  | ident (name : String) : Spelled (.ident name) name.toList
  | number (n : Int64) (zeros : Nat) :
      Spelled (.number n) (signed (decide (n.toInt < 0)) (List.replicate zeros '0' ++ Nat.toDigits 10 n.toInt.natAbs))
  | string {s : String} {mark : Char} (hmark : mark = '\'' ∨ mark = '"') (hs : mark ∉ s.toList) :
      Spelled (.string s) (mark :: (s.toList ++ [mark]))
  | symbol {sign : Symbol} {spelling : List Char} (hspelling : spelling ∈ sign.spellings) : Spelled (.symbol sign) spelling

/-- The tokens that can be written: of the identifiers those that are words and not reserved, of the texts those that lack one of the
two marks, and everything else but the end. -/
def Writable : Token → Prop
  | ident name =>
    (∃ first more, name.toList = first :: more ∧ startsWord first = true ∧ ∀ c ∈ more, continuesWord c = true) ∧
      ∀ reserved ∈ reservedWords, reserved.1 ≠ capitals name.toList
  | string s => '\'' ∉ s.toList ∨ '"' ∉ s.toList
  | eof => False
  | _ => True

end Token

/-- White space and comments, each comment with the end of its line. -/
inductive Layout : (gap : List Char) → Prop
  | nothing : Layout []
  | blank {c : Char} {gap : List Char} (hc : Unicode.isWhiteSpace c = true) (h : Layout gap) : Layout (c :: gap)
  | comment {body gap : List Char} (hbody : '\n' ∉ body) (h : Layout gap) : Layout ('-' :: '-' :: (body ++ '\n' :: gap))

/-- What may end a text: nothing, or a comment that does not end its line. -/
inductive Ending : (text : List Char) → Prop
  | nothing : Ending []
  | comment {body : List Char} (hbody : '\n' ∉ body) : Ending ('-' :: '-' :: body)

/-- The tokens are written one after the other, with layout after each; only after the last it may be empty. -/
inductive Token.Row : (tokens : List Token) → (text : List Char) → Prop
  | nil {text : List Char} (h : Ending text) : Row [] text
  | cons {token : Token} {tokens : List Token} {chars gap text : List Char} (htoken : token.Spelled chars) (hgap : Layout gap)
      (hapart : tokens ≠ [] → gap ≠ []) (htokens : Row tokens text) : Row (token :: tokens) (chars ++ (gap ++ text))

/-- The text is written from the tokens, with layout before the first. -/
def Rendered (tokens : List Token) (text : List Char) : Prop :=
  ∃ gap rest, text = gap ++ rest ∧ Layout gap ∧ Token.Row tokens rest

/-! ## Layout -/

/-- Layout is a gap, also together with a gap behind it. -/
theorem Layout.gap_append {gap other rest : List Char} (h : Layout gap) (hother : Gap other rest) : Gap (gap ++ other) rest := by
  induction h with
  | nothing => exact hother
  | blank hc _ ih => exact .blank hc ih
  | @comment body gap hbody _ ih =>
    rw [List.cons_append, List.cons_append, List.append_assoc, List.cons_append]
    exact .comment hbody (fun c hc => (Option.some.inj hc).symm) (.blank (by decide) ih)

theorem Layout.gap {gap : List Char} (h : Layout gap) (rest : List Char) : Gap gap rest := by
  have hgap := h.gap_append (.nothing rest)
  rwa [List.append_nil] at hgap

theorem Ending.gap {text : List Char} (h : Ending text) : Gap text [] := by
  cases h with
  | nothing => exact .nothing []
  | @comment body hbody =>
    have hgap := Gap.comment hbody (by simp) (.nothing [])
    rwa [List.append_nil] at hgap

/-- A character with which layout or an ending begins. -/
def StartsGap (c : Char) : Prop := Unicode.isWhiteSpace c = true ∨ c = '-'

theorem Layout.startsGap {gap rest : List Char} (h : Layout gap) (hne : gap ≠ []) : ∀ c ∈ (gap ++ rest).head?, StartsGap c := by
  intro c hc
  cases h with
  | nothing => exact absurd rfl hne
  | blank hblank _ => exact .inl (Option.some.inj hc ▸ hblank)
  | comment _ _ => exact .inr (Option.some.inj hc).symm

theorem Ending.startsGap {text : List Char} (h : Ending text) : ∀ c ∈ text.head?, StartsGap c := by
  intro c hc
  cases h with
  | nothing => exact nomatch hc
  | comment _ => exact .inr (Option.some.inj hc).symm

/-- Behind every token there is layout, an ending or nothing. -/
theorem Token.Row.startsGap {tokens : List Token} {gap text : List Char} (hgap : Layout gap) (hapart : tokens ≠ [] → gap ≠ [])
    (h : Row tokens text) : ∀ c ∈ (gap ++ text).head?, StartsGap c := by
  by_cases hne : gap = []
  · subst hne
    cases h with
    | nil hending => exact hending.startsGap
    | cons => exact absurd rfl (hapart nofun)
  · exact hgap.startsGap hne

namespace Lexeme

theorem apart_of_spelling {sign : Symbol} {spelling : List Char} (h : spelling ∈ sign.spellings) {c : Char} (hc : c ∈ spelling) :
    Unicode.isWhiteSpace c = false ∧ c ≠ '-' := by
  have hall : ∀ spelling ∈ sign.spellings, spelling.all fun c => !Unicode.isWhiteSpace c && c != '-' := by
    cases sign <;> decide
  have happart := List.all_eq_true.mp (hall spelling h) c hc
  rwa [Bool.and_eq_true, Bool.not_eq_true', bne_iff_ne] at happart

/-- No lexeme goes on into layout or an ending. -/
theorem not_goesOn {lexeme : Lexeme} {c : Char} (h : StartsGap c) : ¬lexeme.GoesOn c := by
  have hword : continuesWord c = false := by
    rcases h with hblank | rfl
    · exact continuesWord_of_isWhiteSpace hblank
    · decide
  cases lexeme with
  | symbol sign spelling hspelling =>
    rintro ⟨other, hother⟩
    obtain ⟨hblank, hhyphen⟩ := apart_of_spelling hother List.mem_concat_self
    rcases h with h | h
    · exact nomatch h.symm.trans hblank
    · exact hhyphen h
  | word => exact fun hgoes => nomatch hword.symm.trans hgoes
  | numeral => exact fun hgoes => nomatch hword.symm.trans (continuesWord_of_isDigit hgoes)
  | quotation => exact id

/-- A lexeme does not begin with white space or two hyphens. -/
theorem first_of_chars {lexeme : Lexeme} {first : Char} {more : List Char} (h : lexeme.chars = first :: more) :
    Unicode.isWhiteSpace first = false ∧ (first = '-' → ∀ rest : List Char, (more ++ rest).head? ≠ some '-') := by
  have hnotBlank : continuesWord first = true → Unicode.isWhiteSpace first = false := fun hcontinues =>
    Bool.eq_false_iff.mpr fun hblank => nomatch hcontinues.symm.trans (continuesWord_of_isWhiteSpace hblank)
  cases lexeme with
  | symbol sign spelling hspelling =>
    obtain rfl : spelling = first :: more := h
    obtain ⟨hblank, hne⟩ := apart_of_spelling hspelling List.mem_cons_self
    exact ⟨hblank, fun hhyphen => absurd hhyphen hne⟩
  | word start rest hstart _ =>
    obtain ⟨rfl, rfl⟩ := List.cons_eq_cons.mp h
    refine ⟨hnotBlank (continuesWord_of_startsWord hstart), ?_⟩
    rintro rfl
    exact absurd hstart (by decide)
  | numeral negative digits hne hdigits =>
    cases negative with
    | true =>
      obtain ⟨rfl, rfl⟩ := List.cons_eq_cons.mp h
      have hfirst := head?_ne_hyphen hdigits
      obtain ⟨digit, rest, rfl⟩ := List.exists_cons_of_ne_nil hne
      exact ⟨by decide, fun _ _ => hfirst⟩
    | false =>
      obtain rfl : digits = first :: more := h
      have hdigit : first.isDigit = true := hdigits first List.mem_cons_self
      refine ⟨hnotBlank (continuesWord_of_isDigit hdigit), ?_⟩
      rintro rfl
      exact absurd hdigit (by decide)
  | quotation mark content hmark _ =>
    obtain ⟨rfl, rfl⟩ := List.cons_eq_cons.mp h
    rcases hmark with rfl | rfl
    · exact ⟨by decide, nofun⟩
    · exact ⟨by decide, nofun⟩

/-- No gap is dropped in front of a lexeme. -/
theorem dropGap_chars (lexeme : Lexeme) (rest : List Char) : dropGap false (lexeme.chars ++ rest) = lexeme.chars ++ rest := by
  obtain ⟨first, more, hchars⟩ := lexeme.exists_chars_eq
  obtain ⟨hblank, hhyphen⟩ := first_of_chars hchars
  rw [hchars, List.cons_append, Gap.dropGap_cons (hhyphen · rest), if_neg (ne_true_of_eq_false hblank)]

end Lexeme

/-! ## Ways of writing -/

/-- Reserved words are made of capital letters. -/
theorem isUpper_of_reserved {name : String} {token : Token} (h : (name, token) ∈ reservedWords) :
    name.toList ≠ [] ∧ ∀ c ∈ name.toList, c.isUpper = true := by
  have hall : ∀ reserved ∈ reservedWords, reserved.1.toList ≠ [] ∧ reserved.1.toList.all Char.isUpper = true := by
    decide +kernel
  exact (hall _ h).imp_right List.all_eq_true.mp

/-- A word in capitals and small letters has the capital form that it would have in capitals. -/
theorem capitals_eq {chars : List Char} {name : String} (h : chars.map Char.toUpper = name.toList)
    (hupper : ∀ c ∈ chars, c.toUpper.isUpper = true) : capitals chars = name := by
  have hforms : chars.flatMap Unicode.asciiCapitals = chars.flatMap fun c => [c.toUpper] :=
    List.flatMap_congr fun c hc => asciiCapitals_of_toUpper (hupper c hc)
  rw [capitals, hforms, ← List.map_eq_flatMap, h, String.ofList_toList]

/-- A reserved word means its token however its letters are written. -/
theorem exists_lexeme_of_reserved {name : String} {token : Token} {chars : List Char} (hreserved : (name, token) ∈ reservedWords)
    (h : chars.map Char.toUpper = name.toList) : ∃ lexeme : Lexeme, lexeme.chars = chars ∧ lexeme.Means (.ok token) := by
  obtain ⟨hne, hall⟩ := isUpper_of_reserved hreserved
  have hupper : ∀ c ∈ chars, c.toUpper.isUpper = true := fun c hc => hall _ (h ▸ List.mem_map_of_mem hc)
  have hcapitals := capitals_eq h hupper
  cases chars with
  | nil => exact absurd h.symm hne
  | cons first more =>
    obtain ⟨hfirst, hmore⟩ := List.forall_mem_cons.mp hupper
    have hcontinues : ∀ c ∈ more, continuesWord c = true := fun c hc =>
      continuesWord_of_startsWord (startsWord_of_toUpper (hmore c hc))
    exact ⟨.word first more (startsWord_of_toUpper hfirst) hcontinues, rfl, token, .inl (hcapitals ▸ hreserved), rfl⟩

/-- A number in decimal, with zeros in front. -/
theorem integer_zeros (n : Int) (zeros : Nat) :
    integer (decide (n < 0)) (List.replicate zeros '0' ++ Nat.toDigits 10 n.natAbs) = n := by
  have hvalue : Nat.ofDigitChars 10 (List.replicate zeros '0' ++ Nat.toDigits 10 n.natAbs) 0 = n.natAbs := by
    rw [Nat.ofDigitChars_append, Nat.ofDigitChars_replicate_zero, Nat.mul_zero, Nat.ofDigitChars_ten_toDigits]
  rw [integer, hvalue]
  by_cases hneg : n < 0
  · rw [decide_eq_true hneg, if_pos rfl]
    omega
  · rw [decide_eq_false hneg, if_neg Bool.false_ne_true]
    omega

namespace Token

/-- A token that can be written is what every lexeme means with which it is written. -/
theorem Spelled.exists_lexeme {token : Token} {chars : List Char} (h : token.Spelled chars) (hwritable : token.Writable) :
    ∃ lexeme : Lexeme, lexeme.chars = chars ∧ lexeme.Means (.ok token) := by
  cases h with
  | @keyword word _ h =>
    have hreserved : (word.spelling, Token.keyword word) ∈ reservedWords := by cases word <;> decide +kernel
    exact exists_lexeme_of_reserved hreserved h
  | @dataType type spelling _ hspelling h =>
    have hreserved : ∀ spelling ∈ type.spellings, (spelling, Token.dataType type) ∈ reservedWords := by
      cases type <;> decide +kernel
    exact exists_lexeme_of_reserved (hreserved spelling hspelling) h
  | ident name =>
    obtain ⟨⟨first, more, hname, hfirst, hmore⟩, hfree⟩ := hwritable
    rw [hname] at hfree ⊢
    refine ⟨.word first more hfirst hmore, rfl, _, .inr ⟨hfree, ?_⟩, rfl⟩
    rw [← hname, String.ofList_toList]
  | number n zeros =>
    have hne : List.replicate zeros '0' ++ Nat.toDigits 10 n.toInt.natAbs ≠ [] :=
      List.append_ne_nil_of_right_ne_nil _ Nat.toDigits_ne_nil
    have hdigits : ∀ c ∈ List.replicate zeros '0' ++ Nat.toDigits 10 n.toInt.natAbs, c.isDigit = true := by
      intro c hc
      rcases List.mem_append.mp hc with hzero | hdigit
      · rw [List.eq_of_mem_replicate hzero]
        decide
      · exact Nat.isDigit_of_mem_toDigits (by decide) (by decide) hdigit
    exact ⟨.numeral _ _ hne hdigits, rfl, .inl ⟨n, (integer_zeros n.toInt zeros).symm, rfl⟩⟩
  | @string s mark hmark hs =>
    refine ⟨.quotation mark s.toList hmark hs, rfl, ?_⟩
    rw [Lexeme.Means, String.ofList_toList]
  | symbol hspelling => exact ⟨.symbol _ _ hspelling, rfl, rfl⟩

/-- A row of tokens behind layout is cut up into lexemes that mean the tokens. -/
theorem Row.segments {tokens : List Token} {text : List Char} (h : Row tokens text) (hwritable : ∀ token ∈ tokens, token.Writable)
    {gap : List Char} (hgap : Layout gap) : Segments (gap ++ text) tokens := by
  induction h generalizing gap with
  | nil hending =>
    exact .last (Gap.longest_of_dropGap_eq (hgap.gap_append hending.gap) rfl)
  | @cons token tokens chars behind text htoken hbehind hapart htokens ih =>
    -- The layout behind the token ends its lexeme and is the gap in front of what follows.
    obtain ⟨htokenWritable, hothers⟩ := List.forall_mem_cons.mp hwritable
    obtain ⟨lexeme, rfl, hmeans⟩ := htoken.exists_lexeme htokenWritable
    have hlongest : lexeme.Longest (lexeme.chars ++ (behind ++ text)) :=
      Lexeme.longest_of_stops fun c hc => Lexeme.not_goesOn (htokens.startsGap hbehind hapart c hc)
    have hgapLongest := Gap.longest_of_dropGap_eq (hgap.gap _) (lexeme.dropGap_chars (behind ++ text))
    exact .cons hgapLongest hlongest hmeans (ih hothers hbehind)

theorem Writable.exists_spelled {token : Token} (h : token.Writable) : ∃ chars, token.Spelled chars := by
  cases token with
  | keyword word => exact ⟨word.spelling.toList, .keyword (by cases word <;> decide +kernel)⟩
  | dataType type =>
    cases type with
    | int => exact ⟨"INT".toList, .dataType List.mem_cons_self (by decide +kernel)⟩
    | text => exact ⟨"TEXT".toList, .dataType List.mem_cons_self (by decide +kernel)⟩
  | ident name => exact ⟨_, .ident name⟩
  | number n => exact ⟨_, .number n 0⟩
  | string s =>
    rcases h with hs | hs
    · exact ⟨_, .string (.inl rfl) hs⟩
    · exact ⟨_, .string (.inr rfl) hs⟩
  | symbol sign => cases sign <;> exact ⟨_, .symbol List.mem_cons_self⟩
  | eof => exact h.elim

theorem exists_row {tokens : List Token} (h : ∀ token ∈ tokens, token.Writable) : ∃ text, Row tokens text := by
  induction tokens with
  | nil => exact ⟨[], .nil .nothing⟩
  | cons token tokens ih =>
    obtain ⟨htoken, htokens⟩ := List.forall_mem_cons.mp h
    obtain ⟨chars, hchars⟩ := htoken.exists_spelled
    obtain ⟨text, htext⟩ := ih htokens
    have hblank : Layout [' '] := .blank (by decide) .nothing
    exact ⟨chars ++ ([' '] ++ text), .cons hchars hblank (fun _ => List.cons_ne_nil _ _) htext⟩

/-- Tokens that can be written are, and scanning any text that is written from them gives them back with the mark of the end,
whichever letters, zeros, marks and signs they are written with and whatever white space and comments are around them. -/
theorem scan_rendered {tokens : List Token} (h : ∀ token ∈ tokens, token.Writable) :
    (∃ text : String, Rendered tokens text.toList) ∧
      ∀ text : String, Rendered tokens text.toList → Token.scan text = .ok (tokens ++ [.eof]) := by
  constructor
  · obtain ⟨text, htext⟩ := exists_row h
    exact ⟨String.ofList text, [], text, String.toList_ofList, .nothing, htext⟩
  · rintro text ⟨gap, rest, hsplit, hgap, hrow⟩
    have hsegments : Segments text.toList tokens := hsplit ▸ hrow.segments h hgap
    exact hsegments.scanFrom_eq text.length

/-- Mixed letters, zeros in front of the least integer, the other way of writing an inequality, a quotation with the other mark, a
line end and hyphens in it, comments right behind tokens, and a last one that does not end its line. -/
theorem scan_rendered_mixed :
    Token.scan " sElEcT--all\n größe\t-009223372036854775808 <>--\n\"it's\n--so\" integer--" =
      .ok [.keyword .select, .ident "größe", .number Int64.minValue, .symbol .notEqual, .string "it's\n--so", .dataType .int,
        .eof] := by
  have htype : Row [.dataType .int] ("integer".toList ++ ([] ++ "--".toList)) :=
    .cons (.dataType (List.mem_cons_of_mem _ List.mem_cons_self) (by decide +kernel)) .nothing nofun (.nil (.comment nofun))
  have hstring : Row (.string "it's\n--so" :: _) (('"' :: ("it's\n--so".toList ++ ['"'])) ++ ([' '] ++ _)) :=
    .cons (.string (.inr rfl) (by decide +kernel)) (.blank (by decide) .nothing) nofun htype
  have hsign : Row (.symbol .notEqual :: _) (['<', '>'] ++ (('-' :: '-' :: ([] ++ ['\n'])) ++ _)) :=
    .cons (.symbol (by decide)) (.comment nofun .nothing) nofun hstring
  have hnumber : Row (.number Int64.minValue :: _) (_ ++ ([' '] ++ _)) :=
    .cons (.number _ 2) (.blank (by decide) .nothing) nofun hsign
  have hname : Row (.ident "größe" :: _) ("größe".toList ++ (['\t'] ++ _)) :=
    .cons (.ident _) (.blank (by decide) .nothing) nofun hnumber
  have hword : Row (.keyword .select :: _) ("sElEcT".toList ++ (('-' :: '-' :: ("all".toList ++ ['\n', ' '])) ++ _)) :=
    .cons (.keyword (by decide +kernel)) (.comment (by decide +kernel) (.blank (by decide) .nothing)) nofun hname
  have hmore : ['r', 'ö', 'ß', 'e'].all continuesWord = true := by decide +kernel
  have hident : (ident "größe").Writable := ⟨⟨'g', _, rfl, by decide, List.all_eq_true.mp hmore⟩, by decide +kernel⟩
  have hquotable : (string "it's\n--so").Writable := .inr (by decide +kernel)
  refine (scan_rendered ?_).2 _ ⟨[' '], _, ?_, .blank (by decide) .nothing, hword⟩
  · simp only [List.forall_mem_cons]
    exact ⟨trivial, hident, trivial, trivial, hquotable, trivial, nofun⟩
  · decide +kernel

end Token

end SqlEngine
