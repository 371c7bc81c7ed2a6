import Tony.Command.FileTree
import Tony.Command.Report
import Tony.Command.Sample

/-!
A run of the command from its arguments to its exit code. A run reads at most one text, and only
after everything that can refuse the arguments has been passed; how it is read is left open.
-/

namespace Tony.Command

structure Response where
  code : Nat := 0
  stdout : String := ""
  stderr : String := ""
  deriving DecidableEq, Repr

inductive Input where
  | standard
  | file (path : List Char)
  deriving DecidableEq, Repr

def Input.name : Input → List Char
  | standard => "<stdin>".toList
  | file path => path

structure Job where
  language : Language
  /-- Set when no language handles the file. -/
  warning : Option Language.LookupError := none

namespace Options

def input (o : Options) : Input :=
  o.file.elim .standard .file

/-- The language asked for by name, or the one that handles the file. A file that none handles is
read as the first language, with a warning. -/
def job (o : Options) : Except Language.LookupError Job :=
  match o.lexer, o.file with
  | some name, _ => do return { language := ← Language.withName name }
  | none, some path =>
    if o.demo then .ok { language := .tony }
    else match Language.forFile path with
      | .ok language => .ok { language }
      | .error e => .ok { language := .tony, warning := some e }
  | none, none => .ok { language := .tony }

def lines (o : Options) (language : Language) (source : List Char) : List String :=
  let tokens := language.tokenize source
  let merged := if o.merge then (Token.merge source tokens).toOption.getD tokens else tokens
  (o.format.getD .raw).lines source merged

end Options

namespace Job

def warningLines (j : Job) : List String :=
  (j.warning.map fun e => warningLine e j.language).toList

def respond (j : Job) (o : Options) : Except ReadFailure (List Char) → Response
  | .ok source =>
    { stdout := unlines (o.lines j.language source)
      stderr := unlines j.warningLines }
  | .error e =>
    { code := 1
      stderr := unlines (j.warningLines ++ errorLines (.io o.input.name e.message.toList)) }

end Job

/-- Runs with options, using `read` for the one text that may be needed. -/
def Options.respond {m : Type → Type} [Monad m] (o : Options)
    (read : Input → m (Except ReadFailure (List Char))) : m Response :=
  if o.list then return { stdout := unlines (Language.all.map listLine) }
  else match o.job with
    | .error e => return { code := 1, stderr := unlines (errorLines (.lookup e)) }
    | .ok j =>
      if o.demo then return j.respond o (.ok sample)
      else do return j.respond o (← read o.input)

def Invocation.respond {m : Type → Type} [Monad m] (i : Invocation)
    (read : Input → m (Except ReadFailure (List Char))) : m Response :=
  match i with
  | .version => return { stdout := unlines [versionLine] }
  | .help => return { stdout := unlines helpLines }
  | .run o => o.respond read

structure Environment where
  standard : ByteArray := .empty
  files : FileTree := {}

def Environment.read (e : Environment) : Input → Except ReadFailure (List Char)
  | .standard => ReadFailure.decode e.standard
  | .file path => e.files.read path

def run (arguments : List (List Char)) (e : Environment) : Except UsageError Response :=
  (Command.read arguments).map fun i => Id.run (i.respond fun input => pure (e.read input))

end Tony.Command
