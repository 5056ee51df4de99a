import SqlEngine.Error

/-!
# Reading tokens

A reader takes tokens from the front of a list and gives a result, or fails at the first token that does not fit. Past the end
every token reads as the mark of the end. A reader never moves off the last token of a list: where a list lacks the mark of the
end, its last token is read again and again.
-/

namespace SqlEngine

/-- A computation that reads tokens. -/
abbrev Reader : Type → Type := StateT (List Token) (Except ParseError)

namespace Reader

/-- Fails with what is needed in place of the token at the front. -/
def fail {α : Type} (needed : Expectation) (found : Token) : Reader α :=
  throw (.unexpected needed found)

/-- The token at the front. -/
def peek : Reader Token := do
  return (← get).headD .eof

/-- Moves past the token at the front, unless it is the last. -/
def advance : Reader Unit :=
  modify fun
    | _ :: next :: rest => next :: rest
    | tokens => tokens

/-- Takes the given token if it stands at the front, and says whether it did. -/
def eat (token : Token) : Reader Bool := do
  if (← peek) = token then
    advance
    return true
  else
    return false

/-- Takes the given token, which must stand at the front. -/
def expect (token : Token) : Reader Unit := do
  let found ← peek
  if found = token then advance else fail (.token token) found

/-- Takes the keyword if it stands at the front. -/
def eatKeyword (word : Keyword) : Reader Bool := eat (.keyword word)

/-- Takes the keyword, which must stand at the front. -/
def keyword (word : Keyword) : Reader Unit := expect (.keyword word)

/-- Takes the symbol, which must stand at the front. -/
def symbol (sign : Symbol) : Reader Unit := expect (.symbol sign)

/-- Takes an identifier. -/
def identifier : Reader String := do
  match ← peek with
  | .ident name => advance; return name
  | found => fail .identifier found

/-- Takes an integer. -/
def number : Reader Int64 := do
  match ← peek with
  | .number n => advance; return n
  | found => fail .number found

/-- Takes an integer or a text as a value. -/
def literal : Reader Value := do
  match ← peek with
  | .number n => advance; return .int n
  | .string s => advance; return .text s
  | found => fail .literal found

/-- Takes the name of a type. -/
def dataType : Reader DataType := do
  match ← peek with
  | .dataType type => advance; return type
  | found => fail .dataType found

/-- Takes as many further items as commas announce. Each comma uses one unit of `fuel`. -/
def furtherItems {α : Type} (item : Reader α) : (fuel : Nat) → Reader (List α)
  | 0 => throw .endless
  | fuel + 1 => do
    if ← eat (.symbol .comma) then
      let next ← item
      return next :: (← furtherItems item fuel)
    else
      return []

/-- Takes one item or more, with commas between them. -/
def commaList {α : Type} (item : Reader α) : Reader (List α) := do
  let first ← item
  return first :: (← furtherItems item ((← get).length + 1))

/-- Takes what a keyword announces, if the keyword stands at the front. -/
def optional {α : Type} (word : Keyword) (content : Reader α) : Reader (Option α) := do
  if ← eatKeyword word then
    return some (← content)
  else
    return none

end Reader

end SqlEngine
