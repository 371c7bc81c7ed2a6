/-!
Modes of reading and the stack that they are kept on. A stack is never empty, so there is always a
mode to read in.
-/

namespace Tony

inductive Mode where
  | root
  | tagArgs
  | doubleString
  | blockLiteral
  deriving DecidableEq, Repr

namespace Mode

def all : List Mode :=
  [root, tagArgs, doubleString, blockLiteral]

def name : Mode → String
  | root => "root"
  | tagArgs => "tag-args"
  | doubleString => "double-string"
  | blockLiteral => "block-literal"

def ofName? (name : String) : Option Mode :=
  all.find? fun m => m.name == name

def title : Mode → String
  | root => "Root"
  | tagArgs => "TagArgs"
  | doubleString => "DoubleString"
  | blockLiteral => "BlockLiteral"

end Mode

inductive ModeChange where
  | stay
  | push (mode : Mode)
  | pop
  deriving DecidableEq, Repr

def ModeChange.title : ModeChange → String
  | stay => "Stay"
  | push mode => "Push(" ++ mode.title ++ ")"
  | pop => "Pop"

structure ModeStack where
  top : Mode := .root
  /-- The modes under the top one, the uppermost first. -/
  below : List Mode := []
  deriving DecidableEq, Repr

namespace ModeStack

def depth (s : ModeStack) : Nat :=
  s.below.length + 1

/-- The last mode is never popped. -/
def pop (s : ModeStack) : ModeStack :=
  match s.below with
  | [] => s
  | mode :: below => ⟨mode, below⟩

def change (s : ModeStack) : ModeChange → ModeStack
  | .stay => s
  | .push mode => ⟨mode, s.top :: s.below⟩
  | .pop => s.pop

theorem depth_pop (s : ModeStack) : s.pop.depth = max 1 (s.depth - 1) := by
  rcases s with ⟨top, _ | ⟨mode, below⟩⟩
  · rfl
  · simp [pop, depth]

theorem depth_change_le (s : ModeStack) (c : ModeChange) : (s.change c).depth ≤ s.depth + 1 := by
  cases c with
  | stay => exact Nat.le_succ _
  | push mode => simp [change, depth]
  | pop => rw [change, depth_pop]; omega

end ModeStack
end Tony
