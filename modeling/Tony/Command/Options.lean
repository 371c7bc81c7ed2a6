/-!
The command line. Arguments are taken from left to right, and the first that is out of order
decides: nothing after it is looked at. Asking for the version or for help ends the line as well.
-/

namespace Tony.Command

inductive Format where
  | raw
  | spans
  deriving DecidableEq, Repr

def Format.ofName? (name : List Char) : Option Format :=
  if name = "raw".toList then some .raw
  else if name = "spans".toList then some .spans
  else none

structure Options where
  file : Option (List Char) := none
  lexer : Option (List Char) := none
  format : Option Format := none
  merge : Bool := false
  list : Bool := false
  demo : Bool := false
  deriving DecidableEq, Repr

inductive Invocation where
  | version
  | help
  | run (options : Options)
  deriving DecidableEq, Repr

inductive Setting where
  | lexer
  | format
  deriving DecidableEq, Repr

inductive Flag where
  | merge
  | list
  | demo
  deriving DecidableEq, Repr

inductive UsageError where
  | unknownOption (argument : List Char)
  | missingValue (setting : Setting)
  | needlessValue (argument : List Char)
  | badFormat (value : List Char)
  | settingTwice (setting : Setting)
  | flagTwice (flag : Flag)
  | secondFile (file : List Char)
  | emptyFile
  deriving DecidableEq, Repr

namespace Options

def setFile (o : Options) (file : List Char) : Except UsageError Options :=
  if o.file.isSome then .error (.secondFile file)
  else if file.isEmpty then .error .emptyFile
  else .ok { o with file := some file }

def set (o : Options) : Setting → List Char → Except UsageError Options
  | .lexer, value =>
    if o.lexer.isSome then .error (.settingTwice .lexer)
    else .ok { o with lexer := some value }
  | .format, value =>
    if o.format.isSome then .error (.settingTwice .format)
    else match Format.ofName? value with
      | some format => .ok { o with format := some format }
      | none => .error (.badFormat value)

def raise (o : Options) : Flag → Except UsageError Options
  | .merge => if o.merge then .error (.flagTwice .merge) else .ok { o with merge := true }
  | .list => if o.list then .error (.flagTwice .list) else .ok { o with list := true }
  | .demo => if o.demo then .error (.flagTwice .demo) else .ok { o with demo := true }

end Options

inductive Argument where
  | file
  | setting (setting : Setting) (value : Option (List Char))
  | flag (flag : Flag)
  | version
  | help
  | endOfOptions
  | needlessValue
  | unknown
  deriving DecidableEq, Repr

namespace Argument

def ofLong (name : String) (value : Option (List Char)) : Argument :=
  let plain (argument : Argument) := if value.isSome then needlessValue else argument
  match name with
  | "lexer" => setting .lexer value
  | "format" => setting .format value
  | "merge" => plain (flag .merge)
  | "list" => plain (flag .list)
  | "demo" => plain (flag .demo)
  | "version" => plain version
  | "help" => plain help
  | _ => unknown

/-- A short option. What stands right after the letter is its value if it has one, and an equals
sign may come between. -/
def ofShort (letter : Char) (attached : List Char) : Argument :=
  let value := match attached with
    | [] => none
    | '=' :: value => some value
    | value => some value
  match letter with
  | 'l' => setting .lexer value
  | 'f' => setting .format value
  | 'V' => version
  | 'h' => help
  | _ => unknown

def ofText : List Char → Argument
  | ['-', '-'] => endOfOptions
  | '-' :: '-' :: body =>
    let name := body.takeWhile fun c => c ≠ '='
    ofLong (String.ofList name) (body.drop name.length).tail?
  | '-' :: letter :: attached => ofShort letter attached
  | _ => file

end Argument

/-- Reads arguments on top of the options that those before have given. -/
def readOnto (o : Options) : List (List Char) → Except UsageError Invocation
  | [] => .ok (.run o)
  | argument :: arguments =>
    match Argument.ofText argument with
    | .file => do readOnto (← o.setFile argument) arguments
    | .setting s (some value) => do readOnto (← o.set s value) arguments
    | .setting s none =>
      match arguments with
      | [] => .error (.missingValue s)
      | value :: arguments =>
        if Argument.ofText value = .file then do readOnto (← o.set s value) arguments
        else .error (.missingValue s)
    | .flag f => do readOnto (← o.raise f) arguments
    | .version => .ok .version
    | .help => .ok .help
    | .endOfOptions => do return .run (← arguments.foldlM Options.setFile o)
    | .needlessValue => .error (.needlessValue argument)
    | .unknown => .error (.unknownOption argument)

def read (arguments : List (List Char)) : Except UsageError Invocation :=
  readOnto {} arguments

end Tony.Command
