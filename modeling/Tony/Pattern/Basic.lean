/-!
Patterns at the head of a text. A pattern tells how many characters it takes, if it is there at
all. It takes as many as it can and never reconsiders, and it sees nothing of the text before.
-/

namespace Tony

abbrev Pattern := List Char → Option Nat

namespace Pattern

def one (p : Char → Bool) : Pattern
  | [] => none
  | c :: _ => if p c then some 1 else none

def run (p : Char → Bool) : Pattern := fun s =>
  some (s.takeWhile p).length

def run1 (p : Char → Bool) : Pattern := fun s =>
  let n := (s.takeWhile p).length
  if n = 0 then none else some n

@[inline] def literal (w : String) : Pattern := fun s =>
  if w.toList.isPrefixOf s then some w.toList.length else none

def andThen (p q : Pattern) : Pattern := fun s =>
  (p s).bind fun n => (q (s.drop n)).map fun m => n + m

def nothing : Pattern := fun _ => some 0

def chain (ps : List Pattern) : Pattern :=
  ps.foldr andThen nothing

def maybe (p : Pattern) : Pattern := fun s =>
  some ((p s).getD 0)

def firstOf (ps : List Pattern) : Pattern := fun s =>
  ps.findSome? fun p => p s

def passing (p : Pattern) (test : List Char → Bool) : Pattern := fun s =>
  (p s).filter fun n => test (s.take n)

end Pattern
end Tony
