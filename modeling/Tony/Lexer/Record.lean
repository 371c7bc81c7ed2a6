import Tony.Mode
import Tony.Text.Quoted

/-! The log of a reading: changes of mode, and characters that no rule took. -/

namespace Tony

inductive Record where
  | pushed (under mode : Mode) (pos : Nat)
  | popped (left resumed : Mode) (pos : Nat)
  | unmatched (mode : Mode) (c : Char) (pos : Nat)
  deriving DecidableEq, Repr

namespace Record

def ofChange? (modes : ModeStack) (change : ModeChange) (pos : Nat) : Option Record :=
  match change, modes.below with
  | .push mode, _ => some (.pushed modes.top mode pos)
  | .pop, resumed :: _ => some (.popped modes.top resumed pos)
  | .pop, [] | .stay, _ => none

def line : Record → String
  | pushed under mode pos => s!"TRACE push {under.name} -> {mode.name} at {pos}"
  | popped left resumed pos => s!"TRACE pop Some({left.title}) -> {resumed.name} at {pos}"
  | unmatched mode c pos =>
    s!"DEBUG no {mode.name} rule matched " ++ Text.Quoted.char c ++ s!" at {pos}"

end Record
end Tony
