import Tony.Command.ReadFailure
import Tony.Path
import Tony.Text.Bytes

/-!
Files held in memory below a working directory, and what reading one of them by its path gives. A
path is walked component by component, so of two faults in it the first one shows.
-/

namespace Tony.Command

structure FileTree where
  files : List (List (List Char) × ByteArray) := []

namespace FileTree

def ofList (files : List (List Char × ByteArray)) : FileTree where
  files := files.map fun (path, content) => (Path.components path, content)

/-- Where a walk has come to. Directories below the working directory are given by their
components, the last one first. -/
inductive Node where
  | outside
  | directory (parts : List (List Char))
  | file (content : ByteArray)

def child (t : FileTree) (parts : List (List Char)) (name : List Char) :
    Except ReadFailure Node :=
  let path := (name :: parts).reverse
  match t.files.lookup path with
  | some content => .ok (.file content)
  | none =>
    if t.files.any fun (other, _) => path.isPrefixOf other then .ok (.directory (name :: parts))
    else .error .notFound

def enter (t : FileTree) : Node → List Char → Except ReadFailure Node
  | .file _, _ => .error .notDirectory
  | node, [] => .ok node
  | node, ['.'] => .ok node
  | .outside, ['.', '.'] => .ok .outside
  | .directory [], ['.', '.'] => .ok .outside
  | .directory (_ :: parts), ['.', '.'] => .ok (.directory parts)
  | .outside, name => .error (if 255 < Text.bytes name then .nameTooLong else .notFound)
  | .directory parts, name =>
    if 255 < Text.bytes name then .error .nameTooLong else t.child parts name

def find (t : FileTree) (path : List Char) : Except ReadFailure Node :=
  if path.isEmpty then .error .notFound
  else if 4096 ≤ Text.bytes path then .error .nameTooLong
  else
    let origin := if path.head? = some '/' then .outside else .directory []
    (Path.split path).foldlM t.enter origin

def read (t : FileTree) (path : List Char) : Except ReadFailure (List Char) := do
  match ← t.find path with
  | .file content => ReadFailure.decode content
  | _ => .error .isDirectory

end FileTree
end Tony.Command
