import Tony.Language
import Tony.Text.Quoted

/-! What can go wrong, what is said about it, and what is advised. -/

namespace Tony

inductive Error where
  | lookup (cause : Language.LookupError)
  | io (path message : List Char)
  deriving DecidableEq, Repr

namespace Language

def knownAliases : String :=
  String.intercalate ", " (all.flatMap aliases)

namespace LookupError

def title : LookupError → String
  | unknownName _ => "LexerNotFound"
  | unhandledFile _ => "NoLexerForFilename"
  | unservedMimetype _ => "NoLexerForMimetype"

def message : LookupError → String
  | unknownName name => "no lexer found for name " ++ Text.Quoted.text name
  | unhandledFile path => "no lexer found for file " ++ Text.Quoted.text path
  | unservedMimetype mimetype => "no lexer found for mimetype " ++ Text.Quoted.text mimetype

def tip : LookupError → String
  | unknownName name =>
    "No lexer registered under \x60" ++ String.ofList name ++ "\x60, available: " ++ knownAliases
  | unhandledFile path =>
    "No lexer handles \x60" ++ String.ofList path ++ "\x60, pass one with --lexer"
  | unservedMimetype mimetype =>
    "No lexer handles mimetype \x60" ++ String.ofList mimetype ++ "\x60"

end LookupError
end Language

namespace Error

def title : Error → String
  | lookup cause => cause.title
  | io _ _ => "Io"

def message : Error → String
  | lookup cause => cause.message
  | io path message => "could not read " ++ Text.Quoted.text path ++ ": " ++ String.ofList message

def tip? : Error → Option String
  | lookup cause => some cause.tip
  | io _ _ => none

def advice (e : Error) : String :=
  e.tip?.getD e.message

end Error
end Tony
