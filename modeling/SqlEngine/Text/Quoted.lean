import SqlEngine.Unicode.DefaultIgnorable
import SqlEngine.Unicode.GraphemeExtend
import SqlEngine.Unicode.Printable

/-!
# Quoted text

How messages show a text or a character that the user wrote: between quotation marks, with an escape for every character that
would not be seen, would attach to its neighbour, or would end the quotation early.
-/

namespace SqlEngine.Text

/-- The escape for a character that has no name of its own: its code point in hexadecimal, in braces. -/
def codePointEscape (c : Char) : String :=
  "\\u\x7b" ++ String.ofList (Nat.toDigits 16 c.toNat) ++ "\x7d"

/-- A character as it stands between two quotation marks of the given kind. -/
def escapedChar (mark c : Char) : String :=
  if c = '\x00' then "\\0"
  else if c = '\t' then "\\t"
  else if c = '\r' then "\\r"
  else if c = '\n' then "\\n"
  else if c = '\\' || c = mark then String.ofList ['\\', c]
  else if Unicode.isAttached c || Unicode.isDefaultIgnorable c || !Unicode.isPrintable c then codePointEscape c
  else String.singleton c

/-- A text between double quotation marks; an apostrophe in it stands as it is. -/
def quoted (s : String) : String :=
  "\"" ++ String.join (s.toList.map (escapedChar '"')) ++ "\""

/-- A character between apostrophes; a double quotation mark in it stands as it is. -/
def quotedChar (c : Char) : String :=
  "'" ++ escapedChar '\'' c ++ "'"

end SqlEngine.Text
