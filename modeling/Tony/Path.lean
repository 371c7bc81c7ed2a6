/-! File paths with slashes between their components. -/

namespace Tony.Path

def split : List Char → List (List Char)
  | [] => [[]]
  | c :: s =>
    match split s with
    | [] => [[c]]
    | part :: parts => if c = '/' then [] :: part :: parts else (c :: part) :: parts

def components (path : List Char) : List (List Char) :=
  (split path).filter fun part => !part.isEmpty && part ≠ ['.']

/-- The last component, unless it goes up. -/
def fileName? (path : List Char) : Option (List Char) :=
  (components path).getLast?.filter fun part => part ≠ ['.', '.']

end Tony.Path
