import Tony.Pattern.Basic
import Tony.Unicode.Class

/-! The words and forms of Tony documents, as patterns. -/

namespace Tony.Pattern

open Unicode (isBlank)

def isIndent (c : Char) : Bool :=
  c = ' ' || c = '\t'

def indent : Pattern :=
  run isIndent

def toLineEnd : Pattern :=
  run (· ≠ '\n')

def blanks : Pattern :=
  run1 isBlank

def isDigit (c : Char) : Bool :=
  '0' ≤ c && c ≤ '9'

def isOctalDigit (c : Char) : Bool :=
  '0' ≤ c && c ≤ '7'

def isHexDigit (c : Char) : Bool :=
  isDigit c || ('a' ≤ c && c ≤ 'f') || ('A' ≤ c && c ≤ 'F')

def isPlainLetter (c : Char) : Bool :=
  isDigit c || ('a' ≤ c && c ≤ 'z') || ('A' ≤ c && c ≤ 'Z') || c = '_'

@[inline] def isOneOf (w : String) (c : Char) : Bool :=
  w.toList.contains c

def occursIn (w : List Char) : List Char → Bool
  | [] => w.isEmpty
  | c :: s => w.isPrefixOf (c :: s) || occursIn w s

def markers : List String :=
  ["TODO", "FIXME", "XXX", "NOTE"]

def hasMarker (s : List Char) : Bool :=
  markers.any fun w => occursIn w.toList s

def comment : Pattern :=
  chain [literal "#", toLineEnd]

def separator : Pattern :=
  chain [literal "---", indent]

def isTagLetter (c : Char) : Bool :=
  isPlainLetter c || isOneOf "./+=~@$%^&-" c

/-- Counts on from `n` to the end of a tag name. A colon belongs to the name only when a letter of
the name follows it. -/
def tagRest (n : Nat) : List Char → Nat
  | [] => n
  | c :: s =>
    if isTagLetter c || (c = ':' && s.head?.any isTagLetter) then tagRest (n + 1) s else n

def tagName : Pattern
  | [] => none
  | c :: s => if isTagLetter c then some (tagRest 1 s) else none

def tag : Pattern :=
  chain [literal "!", tagName]

/-- A sigil, and something in brackets; the first closing bracket ends it. -/
def reference (sigil : String) : Pattern :=
  chain [literal sigil, literal "[", run1 (· ≠ ']'), literal "]"]

/-- Counts on from `n` to the end of a text in single quotes. A backslash takes the character after
it along, which cannot be a line break. -/
def quotedRest (n : Nat) : List Char → Option Nat
  | [] => none
  | ['\\'] => none
  | '\\' :: c :: s => if c = '\n' then none else quotedRest (n + 2) s
  | c :: s => if c = '\'' then some (n + 1) else quotedRest (n + 1) s

def quoted : Pattern
  | [] => none
  | c :: s => if c = '\'' then quotedRest 1 s else none

def minus : Pattern :=
  maybe (literal "-")

def hexNumber : Pattern :=
  chain [minus, literal "0", one (isOneOf "xX"), run1 isHexDigit]

def octalNumber : Pattern :=
  chain [minus, literal "0", one (isOneOf "oO"), run1 isOctalDigit]

def floatNumber : Pattern :=
  chain [minus, run1 isDigit, literal ".", run1 isDigit]

def integerNumber : Pattern :=
  chain [minus, run1 isDigit]

def constant : Pattern :=
  firstOf [literal "true", literal "false", literal "null"]

def isNameLetter (c : Char) : Bool :=
  !isBlank c && !isOneOf "[]\x7b\x7d:,!$.#\"'-" c

def isArgumentLetter (c : Char) : Bool :=
  isPlainLetter c || isOneOf ".:/+=~@$%^&*-" c

def blockMark : Pattern :=
  chain [literal "|", maybe (one (isOneOf "+-"))]

def escaped : Pattern :=
  chain [literal "\\", one (isOneOf "\\\"nrtbf")]

def isLineEnd (c : Char) : Bool :=
  c = '\r' || c = '\n'

def indentedLine : Pattern :=
  chain [run1 fun c => isBlank c && !isLineEnd c, run fun c => !isLineEnd c]

def lineBreak : Pattern :=
  chain [maybe (literal "\r"), literal "\n"]

end Tony.Pattern
