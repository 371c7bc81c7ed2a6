import Tony.Lexer.Next
import Tony.Path
import Tony.Text.Trim

/-!
The languages that there are lexers for, and how to find the one for a name, a file or a media
type. A name and a media type are compared without blanks around them and without regard to the
case of ASCII letters, and a file name as it is.
-/

namespace Tony

structure Language where
  name : String
  aliases : List String
  filenames : List String
  mimetypes : List String
  deriving DecidableEq, Repr

namespace Language

def tony : Language where
  name := "Tony"
  aliases := ["tony"]
  filenames := ["*.tony"]
  mimetypes := ["text/x-tony"]

def all : List Language :=
  [tony]

def answersTo (l : Language) (name : List Char) : Bool :=
  (l.name :: l.aliases).any fun known => Text.sameLetters known.toList name

/-- A star stands for at least one character. -/
def fits (fileName : List Char) (pattern : String) : Bool :=
  match pattern.toList with
  | '*' :: ending => ending.length < fileName.length && ending.isSuffixOf fileName
  | exact => fileName == exact

def handles (l : Language) (fileName : List Char) : Bool :=
  l.filenames.any (fits fileName)

def serves (l : Language) (mimetype : List Char) : Bool :=
  l.mimetypes.any fun known => Text.sameLetters known.toList mimetype

/-- Why no language is found. A name is reported without the blanks around it, a file and a media
type as they were given. -/
inductive LookupError where
  | unknownName (name : List Char)
  | unhandledFile (path : List Char)
  | unservedMimetype (mimetype : List Char)
  deriving DecidableEq, Repr

def withName (name : List Char) : Except LookupError Language :=
  let name := Text.trim name
  (all.find? fun l => l.answersTo name).elim (.error (.unknownName name)) .ok

def forFile (path : List Char) : Except LookupError Language :=
  let fileName := (Path.fileName? path).getD []
  (all.find? fun l => l.handles fileName).elim (.error (.unhandledFile path)) .ok

def forMimetype (mimetype : List Char) : Except LookupError Language :=
  let essence := Text.trim (mimetype.takeWhile fun c => c ≠ ';')
  (all.find? fun l => l.serves essence).elim (.error (.unservedMimetype mimetype)) .ok

def tokenize (_ : Language) (source : List Char) : List Token :=
  Tony.tokenize source

end Language
end Tony
