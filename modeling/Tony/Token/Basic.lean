import Tony.Text.Bytes
import Tony.Text.Quoted
import Tony.Token.Kind

/-! Tokens: a kind, a value, and the range of bytes that the value takes in its text. -/

namespace Tony

open Text (bytes slice SliceError)

structure Span where
  start : Nat
  stop : Nat
  deriving DecidableEq, Repr

namespace Span

def length (s : Span) : Nat :=
  s.stop - s.start

def isEmpty (s : Span) : Bool :=
  s.stop ≤ s.start

end Span

structure Lexeme where
  kind : Kind
  text : List Char
  deriving DecidableEq, Repr

structure Token where
  kind : Kind
  value : List Char
  span : Span
  deriving DecidableEq, Repr

/-- The tokens of lexemes that stand one after the other from byte `offset` on. A lexeme without
text gives no token. -/
def Lexeme.layout (offset : Nat) : List Lexeme → List Token
  | [] => []
  | l :: ls =>
    let stop := offset + bytes l.text
    if l.text.isEmpty then layout stop ls
    else ⟨l.kind, l.text, ⟨offset, stop⟩⟩ :: layout stop ls

namespace Token

def ofSlice (kind : Kind) (source : List Char) (span : Span) : Except SliceError Token := do
  let value ← slice source span.start span.stop
  return { kind, value, span }

def line (t : Token) : String :=
  t.kind.qualifiedName ++ "\t" ++ Text.Quoted.text t.value

def summary (t : Token) : String :=
  let value := if t.kind = .plainText ∨ t.kind = .punctuation then "" else String.ofList t.value
  t.kind.title ++ " (" ++ value ++ ")"

end Token
end Tony
