import SqlEngine.Error

/-!
# Wildcard patterns

A pattern is read character by character: a percent sign stands for any run of characters, an underscore for any one character,
and every other character for itself. A text matches when the pattern generates some stretch of it. The search goes through the
pattern from its end and keeps, for every place of the text, whether the rest of the pattern fits there; so its cost is the
product of the two lengths.

Which written patterns can be made ready for matching at all is up to the engine that does it (`Pattern.Compiler`), since it bounds
the size of what it prepares. All that runs statements takes the engine as it comes; only the command line settles on one.
-/

namespace SqlEngine

/-- One sign of a pattern. -/
inductive Wildcard where
  | exactly (c : Char)
  | anyOne
  | anyRun
  deriving DecidableEq, Repr

/-- A pattern, sign by sign. -/
abbrev Pattern : Type := List Wildcard

namespace Pattern

/-- The sign that a character of a written pattern is. -/
def signOf : Char → Wildcard
  | '%' => .anyRun
  | '_' => .anyOne
  | c => .exactly c

/-- The pattern as it is written. -/
def read (text : String) : Pattern :=
  text.toList.map signOf

/-- What makes written patterns ready for matching. It says of each one why it refuses it, and nothing of one that it takes. -/
class Compiler where
  refusal : String → Option String

/-- The compiler that refuses no pattern, however large. -/
@[reducible]
def Compiler.unbounded : Compiler := ⟨fun _ => none⟩

/-- The pattern of a text, made ready for matching, unless the compiler refuses it. -/
def compile [Compiler] (text : String) : Except ParseError Pattern :=
  match Compiler.refusal text with
  | none => .ok (read text)
  | some reason => .error (.pattern text reason)

theorem compile_eq_ok_iff [Compiler] {text : String} {pattern : Pattern} :
    compile text = .ok pattern ↔ Compiler.refusal text = none ∧ pattern = read text := by
  unfold compile
  cases Compiler.refusal text with
  | none => simp [eq_comm]
  | some reason => simp

/-- For every place, whether one of the places from there on is marked. -/
def fromHereOn : List Bool → List Bool
  | [] => []
  | mark :: rest =>
    let later := fromHereOn rest
    (mark || later.headD false) :: later

/-- For every place of a text, its end included, whether the pattern generates some stretch that begins there. -/
def fits : Pattern → List Char → List Bool
  | [], text => List.replicate (text.length + 1) true
  | .anyRun :: rest, text => fromHereOn (fits rest text)
  | .anyOne :: rest, text => (fits rest text).tail ++ [false]
  | .exactly c :: rest, text => List.zipWith (fun found later => found == c && later) text (fits rest text).tail ++ [false]

/-- Whether the pattern generates some stretch of a text. -/
def matchesWithin (pattern : Pattern) (text : String) : Bool :=
  (fits pattern text.toList).any id

end Pattern

end SqlEngine
