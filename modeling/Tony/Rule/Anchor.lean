import Tony.Pattern.Vocabulary

/-! What a rule asks of the text before the place where it is tried. -/

namespace Tony

inductive Anchor where
  | anywhere
  /-- At the beginning of the text or right after a line feed. -/
  | lineStart
  /-- With only spaces and tabs before it on its line. -/
  | afterIndent
  /-- Not right after a letter, a numeral or an underscore. -/
  | wordStart
  deriving DecidableEq, Repr

namespace Anchor

def atLineStart : List Char → Bool
  | [] => true
  | c :: _ => c = '\n'

/-- Whether an anchor holds after a text, which is given with its latest character first. -/
def holds : Anchor → List Char → Bool
  | anywhere, _ => true
  | lineStart, passed => atLineStart passed
  | afterIndent, passed => atLineStart (passed.dropWhile Pattern.isIndent)
  | wordStart, passed => !passed.head?.any fun c => Unicode.isAlphanumeric c || c = '_'

end Anchor
end Tony
