import Tony.Unicode.Class

/-!
The quoted form of texts and characters, which fits on one line and shows every character. A
backslash begins an escape and nothing else, so the quoted text can be read back.
-/

namespace Tony.Text.Quoted

def codePoint (c : Char) : List Char :=
  "\\u\x7b".toList ++ Nat.toDigits 16 c.toNat ++ ['}']

/-- One character between quotes of the form `quote`. A character that joins the one before it, or
that has no shape of its own, is shown by its code point. -/
def escape (quote c : Char) : List Char :=
  if c = quote ∨ c = '\\' then ['\\', c]
  else match c with
    | '\x00' => ['\\', '0']
    | '\t' => ['\\', 't']
    | '\r' => ['\\', 'r']
    | '\n' => ['\\', 'n']
    | _ =>
      if Unicode.isCombining c || !Unicode.isPrintable c then codePoint c else [c]

def encode (quote : Char) (s : List Char) : List Char :=
  quote :: (s.flatMap (escape quote) ++ [quote])

def text (s : List Char) : String :=
  String.ofList (encode '"' s)

def char (c : Char) : String :=
  String.ofList (encode '\'' [c])

end Tony.Text.Quoted
