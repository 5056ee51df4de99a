/-!
# Capital letters of the ASCII alphabet

Words are compared without regard to case through their capital form. Only a capital form that consists of ASCII letters can
equal a keyword, so the characters whose capital form does are listed here, and every other character stands for itself: the
small letters, the dotless i, the long s, the sharp s and the ligatures of f and s.
-/

namespace SqlEngine.Unicode

/-- The capital form of a character whose capital form is made of ASCII letters; any other character as it is. -/
def asciiCapitals : Char → List Char
  | 'ı' => ['I']
  | 'ſ' => ['S']
  | 'ß' => ['S', 'S']
  | 'ﬀ' => ['F', 'F']
  | 'ﬁ' => ['F', 'I']
  | 'ﬂ' => ['F', 'L']
  | 'ﬃ' => ['F', 'F', 'I']
  | 'ﬄ' => ['F', 'F', 'L']
  | 'ﬅ' => ['S', 'T']
  | 'ﬆ' => ['S', 'T']
  | c => [c.toUpper]

end SqlEngine.Unicode
