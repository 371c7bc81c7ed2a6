import Tony.Rule.Basic

/-!
The rules of each mode. They are tried in order and the first that takes something wins, also
against a later one that would take more.
-/

namespace Tony

open Pattern

def endsLine (next : Option Char) : Bool :=
  next.all isLineEnd

def endsTag (next : Option Char) : Bool :=
  next.all fun c => Unicode.isBlank c || isOneOf ":[\x7b," c

def endsWord (next : Option Char) : Bool :=
  next.all fun c => !Unicode.isWordPart c

def beginsUnindented (next : Option Char) : Bool :=
  next.any fun c => !Unicode.isBlank c

namespace Rule

def taking (kind : Kind) (pattern : Pattern) : Rule where
  parts := [(kind, pattern)]

def openingQuote : Rule :=
  { taking .string (literal "\"") with change := .push .doubleString }

/-- Numbers in order of their forms; the start of one form can be a whole number of a later. -/
def numbers : List Rule :=
  [taking .numberHex hexNumber, taking .numberOctal octalNumber, taking .numberFloat floatNumber,
    taking .numberInteger integerNumber]

def constantWord : Rule :=
  { taking .keywordConstant constant with anchor := .wordStart, follow := endsWord }

def root : List Rule :=
  [{ taking .commentSpecial separator with anchor := .lineStart, follow := endsLine },
    taking .commentSpecial (comment.passing hasMarker),
    taking .comment comment,
    { parts := [(.plainText, indent), (.operator, literal "<<:")], anchor := .afterIndent },
    { taking .keyword tag with follow := endsTag },
    { taking .keyword (tag.andThen (literal "(")) with change := .push .tagArgs },
    taking .variableName (reference "$"),
    taking .variableName (reference "."),
    { parts := [(.plainText, indent), (.punctuation, blockMark), (.plainText, indent)]
      anchor := .afterIndent
      follow := endsLine
      change := .push .blockLiteral },
    openingQuote,
    taking .string quoted] ++
  numbers ++
  [constantWord,
    taking .punctuation (one (isOneOf "[]\x7b\x7d")),
    { parts := [(.punctuation, one (isOneOf ":,-")), (.plainText, blanks)] },
    taking .plainText blanks,
    taking .name (run1 isNameLetter)]

def tagArgs : List Rule :=
  [openingQuote, taking .string quoted] ++
  numbers ++
  [constantWord,
    taking .name (run1 isArgumentLetter),
    taking .punctuation (literal ","),
    { taking .keyword (literal ")") with change := .pop },
    taking .plainText blanks]

def doubleString : List Rule :=
  [taking .stringEscape escaped,
    taking .variableName (reference "$"),
    { taking .string (literal "\"") with change := .pop },
    taking .string (run1 fun c => !isOneOf "\\\"$" c)]

/-- The last rule takes nothing: it leaves the line that is not indented to the mode below. -/
def blockLiteral : List Rule :=
  [{ taking .string indentedLine with anchor := .lineStart },
    taking .plainText lineBreak,
    { taking .plainText nothing with
      anchor := .lineStart
      follow := beginsUnindented
      change := .pop }]

end Rule

def Mode.rules : Mode → List Rule
  | .root => Rule.root
  | .tagArgs => Rule.tagArgs
  | .doubleString => Rule.doubleString
  | .blockLiteral => Rule.blockLiteral

end Tony
