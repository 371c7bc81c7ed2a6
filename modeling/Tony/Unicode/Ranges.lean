/-! Sets of code points, as ascending lists of closed ranges that do not meet. -/

namespace Tony.Unicode

abbrev Ranges := List (Nat × Nat)

def within (n : Nat) : Ranges → Bool
  | [] => false
  | (low, high) :: ranges => !(n < low) && (n ≤ high || within n ranges)

end Tony.Unicode
