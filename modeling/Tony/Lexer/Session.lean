import Tony.Lexer.Next

/-!
Sessions: a lexer together with a saved copy of it, which operations can go back to. An operation
that fails leaves the lexer as it was; only draining hands out the pending tokens first.
-/

namespace Tony

open Text (SliceError)

structure Session where
  lexer : Lexer
  saved : Lexer

namespace Session

inductive Op where
  | next
  | rest
  | peek
  | remaining
  | advance (n : Nat)
  | save
  | restore
  deriving DecidableEq, Repr

inductive Answer where
  | token (t : Option Token)
  | tokens (ts : List Token) (stuck : Option SliceError)
  | character (c : Option Char)
  | text (s : List Char)
  | failed (e : SliceError)
  | done
  deriving DecidableEq, Repr

def start (source : List Char) : Session where
  lexer := .ofText source
  saved := .ofText source

def Answer.ofExcept {α : Type} (answer : α → Answer) : Except SliceError α → Answer
  | .ok a => answer a
  | .error e => failed e

def step (s : Session) : Op → Answer × Session
  | .next =>
    match s.lexer.next with
    | .ok y => (.token y.token, { s with lexer := y.lexer })
    | .error e => (.failed e, s)
  | .rest =>
    let drain := s.lexer.rest
    (.tokens drain.tokens drain.stuck, { s with lexer := drain.lexer })
  | .peek => (.ofExcept .character s.lexer.peek, s)
  | .remaining => (.ofExcept .text s.lexer.remaining, s)
  | .advance n => (.done, { s with lexer := s.lexer.advance n })
  | .save => (.done, { s with saved := s.lexer })
  | .restore => (.done, { s with lexer := s.saved })

def run (s : Session) : List Op → List (Answer × Lexer)
  | [] => []
  | op :: ops =>
    let (answer, s) := s.step op
    (answer, s.lexer) :: run s ops

end Session
end Tony
