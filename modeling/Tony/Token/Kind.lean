/-! Kinds of tokens, the families they fall into and the names they go by. -/

namespace Tony

inductive Kind where
  | comment
  | commentSpecial
  | operator
  | keyword
  | keywordConstant
  | variableName
  | punctuation
  | string
  | stringEscape
  | numberInteger
  | numberFloat
  | numberHex
  | numberOctal
  | name
  | plainText
  deriving DecidableEq, Repr

inductive Category where
  | comment
  | operator
  | keyword
  | name
  | punctuation
  | string
  | number
  | text
  deriving DecidableEq, Repr

namespace Kind

def all : List Kind :=
  [comment, commentSpecial, operator, keyword, keywordConstant, variableName, punctuation, string,
    stringEscape, numberInteger, numberFloat, numberHex, numberOctal, name, plainText]

def category : Kind → Category
  | comment | commentSpecial => .comment
  | operator => .operator
  | keyword | keywordConstant => .keyword
  | variableName | name => .name
  | punctuation => .punctuation
  | string | stringEscape => .string
  | numberInteger | numberFloat | numberHex | numberOctal => .number
  | plainText => .text

def isNumber (k : Kind) : Bool :=
  k.category = .number

def title : Kind → String
  | comment => "Comment"
  | commentSpecial => "CommentSpecial"
  | operator => "Operator"
  | keyword => "Keyword"
  | keywordConstant => "KeywordConstant"
  | variableName => "VariableName"
  | punctuation => "Punctuation"
  | string => "String"
  | stringEscape => "StringEscape"
  | numberInteger => "NumberInteger"
  | numberFloat => "NumberFloat"
  | numberHex => "NumberHex"
  | numberOctal => "NumberOctal"
  | name => "Name"
  | plainText => "PlainText"

def qualifiedName : Kind → String
  | comment => "Token.Comment"
  | commentSpecial => "Token.Comment.Special"
  | operator => "Token.Operator"
  | keyword => "Token.Keyword"
  | keywordConstant => "Token.Keyword.Constant"
  | variableName => "Token.Name.Variable"
  | punctuation => "Token.Punctuation"
  | string => "Token.Literal.String"
  | stringEscape => "Token.Literal.String.Escape"
  | numberInteger => "Token.Literal.Number.Integer"
  | numberFloat => "Token.Literal.Number.Float"
  | numberHex => "Token.Literal.Number.Hex"
  | numberOctal => "Token.Literal.Number.Oct"
  | name => "Token.Name"
  | plainText => "Token.Text"

def ofTitle? (title : String) : Option Kind :=
  all.find? fun k => k.title == title

end Kind

def Category.title : Category → String
  | comment => "Comment"
  | operator => "Operator"
  | keyword => "Keyword"
  | name => "Name"
  | punctuation => "Punctuation"
  | string => "String"
  | number => "Number"
  | text => "Text"

end Tony
