import Tony.Proofs.Beginning

/-!
The mode stacks that a run can build. The rules only go from documents into arguments, texts in
double quotes and blocks, and from arguments into such texts, so there are five of them.
-/

namespace Tony

namespace ModeStack

def usual : List ModeStack :=
  [{}, ⟨.tagArgs, [.root]⟩, ⟨.doubleString, [.root]⟩, ⟨.doubleString, [.tagArgs, .root]⟩,
    ⟨.blockLiteral, [.root]⟩]

theorem change_mem_usual : ∀ m ∈ usual, ∀ rule ∈ m.top.rules, m.change rule.change ∈ usual := by
  decide

theorem eq_of_blockLiteral {m : ModeStack} (h : m ∈ usual) (hm : m.top = .blockLiteral) :
    m = ⟨.blockLiteral, [.root]⟩ := by
  revert m
  decide

theorem one_lt_depth_of_blockLiteral {m : ModeStack} (h : m ∈ usual) (hm : m.top = .blockLiteral) :
    1 < m.depth := by
  rw [eq_of_blockLiteral h hm]
  decide

theorem eq_of_depth_eq_one {m : ModeStack} (h : m.depth = 1) : m = ⟨m.top, []⟩ := by
  obtain ⟨top, below⟩ := m
  obtain rfl : below = [] := List.length_eq_zero_iff.1 (Nat.succ.inj h)
  rfl

end ModeStack

theorem Rule.change_of_read? {rule : Rule} {depth : Nat} {passed ahead : List Char} {r : Reading}
    (h : rule.read? depth passed ahead = some r) : r.change = rule.change := by
  obtain ⟨ls, rest, -, -, -, -, rfl⟩ := exists_of_read? h
  rfl

namespace Station

theorem modes_next_mem_usual {s : Station} (h : s.modes ∈ ModeStack.usual) :
    s.next.modes ∈ ModeStack.usual := by
  show s.modes.change s.reading.change ∈ ModeStack.usual
  rw [reading]
  cases hr : s.reading? with
  | none => exact h
  | some r =>
    obtain ⟨rule, hrule, hread⟩ := List.exists_of_findSome?_eq_some hr
    show s.modes.change r.change ∈ ModeStack.usual
    rw [Rule.change_of_read? hread]
    exact ModeStack.change_mem_usual s.modes h rule hrule

theorem modes_last_mem_usual {s : Station} (h : s.modes ∈ ModeStack.usual) :
    s.last.modes ∈ ModeStack.usual := by
  induction s using run_induction with
  | last s hs => rwa [last_of_end hs]
  | round s hs ih =>
    rw [last_of_ahead hs]
    exact ih (modes_next_mem_usual h)

end Station
end Tony
