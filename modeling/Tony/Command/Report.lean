import Tony.Command.Options
import Tony.Error
import Tony.Text.Locator
import Tony.Token.Merge

/-! What the command prints: tokens, one to a line, the list of lexers, and errors. -/

namespace Tony.Command

open Text (Locator Place)

def spanLine (place : Place) (t : Token) : String :=
  s!"{place.line}:{place.column} {t.span.start}..{t.span.stop} {t.kind.title} " ++
    Text.Quoted.text t.value

def Format.lines (source : List Char) (tokens : List Token) : Format → List String
  | raw => tokens.map Token.line
  | spans =>
    let places := (Locator.start source).places (tokens.map fun t => t.span.start)
    List.zipWith spanLine places tokens

def unlines (lines : List String) : String :=
  String.join (lines.map fun line => line ++ "\n")

def listLine (l : Language) : String :=
  l.name ++ " (aliases: " ++ String.intercalate ", " l.aliases ++ "; files: " ++
    String.intercalate ", " l.filenames ++ "; mimetypes: " ++
    String.intercalate ", " l.mimetypes ++ ")"

def aliasLine (l : Language) : String :=
  "  - " ++ l.name ++ " (aliases: " ++ String.intercalate ", " l.aliases ++ ")"

def errorLines (e : Error) : List String :=
  let head := "Error: " ++ e.title ++ " (" ++ e.advice ++ ")"
  match e with
  | .lookup (.unknownName _) => head :: "Available lexers:" :: Language.all.map aliasLine
  | _ => [head]

def warningLine (e : Language.LookupError) (l : Language) : String :=
  "[WARN  tony_lex] " ++ e.message ++ ", falling back to " ++ l.name

def versionLine : String :=
  "tony-lex 0.1.0"

def helpLines : List String :=
  ["Tokenize Tony documents for highlighting", "",
    "Usage: tony-lex [OPTIONS] [FILE]", "",
    "  -l, --lexer <LEXER>    Lexer to use, guessed from the file name when omitted",
    "  -f, --format <FORMAT>  Output format: raw (default) or spans",
    "      --merge            Merge neighbouring tokens of the same kind",
    "      --list             List the registered lexers and exit",
    "      --demo             Tokenize a built-in sample document",
    "  -h, --help             Print help",
    "  -V, --version          Print version"]

def Setting.name : Setting → String
  | lexer => "--lexer"
  | format => "--format"

def Flag.name : Flag → String
  | merge => "--merge"
  | list => "--list"
  | demo => "--demo"

def UsageError.message : UsageError → String
  | unknownOption argument => "unexpected argument " ++ Text.Quoted.text argument
  | missingValue s => "a value is required for " ++ s.name
  | needlessValue argument => "unexpected value in " ++ Text.Quoted.text argument
  | badFormat value => "invalid format " ++ Text.Quoted.text value
  | settingTwice s => s.name ++ " cannot be used twice"
  | flagTwice f => f.name ++ " cannot be used twice"
  | secondFile file => "unexpected argument " ++ Text.Quoted.text file
  | emptyFile => "a value is required for the file"

end Tony.Command
