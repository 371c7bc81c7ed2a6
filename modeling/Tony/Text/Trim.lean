import Tony.Unicode.Class

/-! Texts without the blanks around them. -/

namespace Tony.Text

def trim (s : List Char) : List Char :=
  ((s.dropWhile Unicode.isBlank).reverse.dropWhile Unicode.isBlank).reverse

def sameLetters (s t : List Char) : Bool :=
  s.map Char.toLower == t.map Char.toLower

end Tony.Text
