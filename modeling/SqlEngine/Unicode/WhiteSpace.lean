import SqlEngine.Unicode.CodeRanges

/-!
# White space

The property White_Space: the blanks, tabs and line ends of every script.
-/

namespace SqlEngine.Unicode

/-- The code points with the property White_Space. -/
def whiteSpace : CodeRanges :=
  [(0x9, 0xD), (0x20, 0x20), (0x85, 0x85), (0xA0, 0xA0), (0x1680, 0x1680), (0x2000, 0x200A), (0x2028, 0x2029),
   (0x202F, 0x202F), (0x205F, 0x205F), (0x3000, 0x3000)]

/-- Whether a character is white space. -/
def isWhiteSpace (c : Char) : Bool :=
  whiteSpace.contains c.toNat

end SqlEngine.Unicode
