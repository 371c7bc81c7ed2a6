import Tony.Proofs.Coverage
import Tony.Proofs.Turn

/-!
How far the modes are stacked and how fast reading goes on. Main statement: whatever operations have
been made, the mode stack is one of five, and a call for a token makes two rounds at most, where only
leaving a block takes a round of its own.
-/

namespace Tony

open Text (SliceError bytes)

namespace ModeStack

theorem depth_le_of_mem_usual : ∀ m ∈ usual, m.depth ≤ 3 := by
  decide

theorem one_lt_depth_of_pop :
    ∀ m ∈ usual, ∀ rule ∈ m.top.rules, rule.change = .pop → 1 < m.depth := by
  decide

end ModeStack

namespace Lexer

/-- A call for the next token, and the rounds that it makes. -/
def call (l : Lexer) : List Round × Except SliceError Yield :=
  match l.pending with
  | t :: ts => ([], .ok ⟨some t, [], { l with pending := ts }⟩)
  | [] =>
    match h : l.round with
    | .error e => ([], .error e)
    | .ok none => ([], .ok ⟨none, [], l⟩)
    | .ok (some r) =>
      have := roundBound_round_lt h
      let (rounds, result) := r.lexer.call
      (r :: rounds, result.map fun y => { y with records := r.record.toList ++ y.records })
termination_by l.roundBound

theorem call_snd (l : Lexer) : l.call.2 = l.next := by
  fun_induction call l with
  | case1 l t ts hp => rw [next_of_pending hp]
  | case2 l hp e hr => rw [next_of_error hp hr]
  | case3 l hp hr => rw [next_of_end hp hr]
  | case4 l hp r hr hlt rounds result hcall ih =>
    rw [next_of_round hp hr, ← ih, hcall]

theorem call_of_round {l : Lexer} {r : Round} (h : l.pending = []) (hr : l.round = .ok (some r)) :
    l.call.1 = r :: r.lexer.call.1 := by
  rw [call]
  split
  · simp_all
  · split <;> simp_all

theorem call_of_no_round {l : Lexer} (h : ∀ r, l.round ≠ .ok (some r)) : l.call.1 = [] := by
  rw [call]
  split
  · rfl
  · split
    · rfl
    · rfl
    · rename_i hr
      exact absurd hr (h _)

theorem call_of_pending {l : Lexer} (h : l.pending ≠ []) : l.call.1 = [] := by
  obtain ⟨t, ts, hp⟩ := List.exists_cons_of_ne_nil h
  rw [call, hp]

section Usual

variable {l : Lexer} {r : Round} (hm : l.modes ∈ ModeStack.usual)

include hm

theorem depth_of_pop {reading : Reading} (h : l.reading? = some reading)
    (hpop : reading.change = .pop) :
    1 < l.depth ∧ (l.take reading).lexer.depth + 1 = l.depth := by
  obtain ⟨rule, hrule, hread⟩ := List.exists_of_findSome?_eq_some h
  have hchange : rule.change = .pop := (Rule.change_of_read? hread).symm.trans hpop
  have hdepth : 1 < l.modes.depth := ModeStack.one_lt_depth_of_pop l.modes hm rule hrule hchange
  refine ⟨hdepth, ?_⟩
  show (l.modes.change reading.change).depth + 1 = l.modes.depth
  rw [hpop, ModeStack.change, ModeStack.depth_pop]
  omega

theorem leaves_of_pending_eq (hr : l.round = .ok (some r)) (hp : r.lexer.pending = l.pending) :
    l.modes = ⟨.blockLiteral, [.root]⟩ ∧ r.lexer = { l with modes := {} } ∧
      ∃ r', r.lexer.round = .ok (some r') ∧ r.lexer.pos < r'.lexer.pos ∧ r'.lexer.pending ≠ [] := by
  obtain ⟨s, hs, hl, rfl⟩ := round_eq_some hr
  generalize l.pending = pending at hl hp ⊢
  subst hl
  have htokens : s.tokens = [] := List.append_right_eq_self.1 hp
  have hturn := Station.turn hs hm
  obtain ⟨hmodes, hnext⟩ :=
    hturn.takes_or_leaves.resolve_left fun h => Station.tokens_ne_nil h htokens
  have hahead : s.next.ahead ≠ [] := by
    rw [hnext]
    exact hs
  -- In a document no round takes nothing.
  have hroot : s.next.modes ∈ ModeStack.usual := Station.modes_next_mem_usual hm
  have htext : s.next.reading.text ≠ [] := by
    refine (Station.turn hahead hroot).takes_or_leaves.resolve_right fun h => ?_
    rw [hnext] at h
    cases h.1
  refine ⟨hmodes, ?_, _, Station.round_lexer _ hahead, ?_, ?_⟩
  · rw [htokens, hnext, List.append_nil]
    rfl
  · have hpos := mt Text.bytes_eq_zero_iff.1 htext
    show bytes s.next.passed + 0 < bytes s.next.next.passed + 0
    rw [Station.bytes_passed_next s.next]
    omega
  · exact List.append_ne_nil_of_right_ne_nil _ (Station.tokens_ne_nil htext)

theorem length_call_le : l.call.1.length ≤ 2 := by
  by_cases hp : l.pending = []
  · by_cases hround : ∃ r, l.round = .ok (some r)
    · obtain ⟨r, hr⟩ := hround
      rw [call_of_round hp hr, List.length_cons]
      by_cases hpending : r.lexer.pending = []
      · have heq : r.lexer.pending = l.pending := hpending.trans hp.symm
        obtain ⟨-, -, r', hr', -, hpending'⟩ := leaves_of_pending_eq hm hr heq
        rw [call_of_round hpending hr', call_of_pending hpending']
        exact Nat.le_refl 2
      · rw [call_of_pending hpending]
        exact Nat.le_succ 1
    · rw [call_of_no_round fun r hr => hround ⟨r, hr⟩]
      exact Nat.zero_le 2
  · rw [call_of_pending hp]
    exact Nat.zero_le 2

end Usual

theorem kept_usual : Kept fun l => l.modes ∈ ModeStack.usual where
  handOut := fun _ h => h
  round := by
    intro l r hr hm
    obtain ⟨s, -, hl, rfl⟩ := round_eq_some hr
    rw [hl] at hm
    exact Station.modes_next_mem_usual hm

/-- The lexers that come up in the sessions over a text, between two operations and, in a call for a
token, between two rounds. -/
inductive Reached (source : List Char) : Lexer → Prop
  | session {s : Session} : s.Reachable source → Reached source s.lexer
  | call {l : Lexer} {y : Yield} : l.next = .ok y → Reached source l → Reached source y.lexer
  | round {l : Lexer} {r : Round} :
      l.pending = [] → l.round = .ok (some r) → Reached source l → Reached source r.lexer

theorem Reached.of_kept {source : List Char} {P : Lexer → Prop} {l : Lexer} (hP : Kept P)
    (hsession : ∀ s : Session, s.Reachable source → P s.lexer) (h : l.Reached source) : P l := by
  induction h with
  | session hs => exact hsession _ hs
  | call hy _ ih => exact hP.next hy ih
  | round _ hr _ ih => exact hP.round hr ih

theorem Reached.modes_mem_usual {source : List Char} {l : Lexer} (h : l.Reached source) :
    l.modes ∈ ModeStack.usual := by
  refine h.of_kept kept_usual fun s hs => ?_
  have hstart : (ofText source).modes ∈ ModeStack.usual := List.mem_cons_self ..
  exact (hs.lexers (P := fun l => l.modes ∈ ModeStack.usual) hstart kept_usual fun _ _ h => h).1

theorem Reached.text_eq {source : List Char} {l : Lexer} (h : l.Reached source) :
    l.text = source :=
  (h.of_kept (kept_reads source) fun _ hs => hs.reads).text_eq

/-- The stack stays within three modes and is only popped where something lies beneath. A call makes
two rounds at most. Only one that leaves a block has no tokens, and the round after it takes text. -/
theorem Reached.modes_and_rounds {source : List Char} {l : Lexer} (h : l.Reached source) :
    (l.modes ∈ ModeStack.usual ∧ 1 ≤ l.depth ∧ l.depth ≤ 3) ∧
    (∀ reading, l.reading? = some reading → reading.change = .pop →
      1 < l.depth ∧ (l.take reading).lexer.depth + 1 = l.depth) ∧
    (l.call.2 = l.next ∧
      (∀ r, l.pending = [] → l.round = .ok (some r) → l.call.1 = r :: r.lexer.call.1) ∧
      (l.pending ≠ [] ∨ (∀ r, l.round ≠ .ok (some r)) → l.call.1 = []) ∧
      l.call.1.length ≤ 2) ∧
    ∀ r, l.round = .ok (some r) → r.lexer.pending = l.pending →
      l.modes = ⟨.blockLiteral, [.root]⟩ ∧ r.lexer = { l with modes := {} } ∧
        ∃ r', r.lexer.round = .ok (some r') ∧ r.lexer.pos < r'.lexer.pos := by
  have hm := h.modes_mem_usual
  refine ⟨⟨hm, Nat.le_add_left _ _, ModeStack.depth_le_of_mem_usual l.modes hm⟩, ?_, ?_, ?_⟩
  · exact fun reading hreading hpop => depth_of_pop hm hreading hpop
  · refine ⟨call_snd l, fun r hp hr => call_of_round hp hr, ?_, length_call_le hm⟩
    exact fun h => h.elim call_of_pending call_of_no_round
  · intro r hr hp
    obtain ⟨hmodes, hlexer, r', hr', hpos, -⟩ := leaves_of_pending_eq hm hr hp
    exact ⟨hmodes, hlexer, r', hr', hpos⟩

theorem Reached.modes_and_rounds_block :
    ∃ (l : Lexer) (r : Round), l.Reached ['|', '\n', 'a'] ∧ l.round = .ok (some r) ∧
      r.lexer.pending = l.pending ∧ l.depth = 2 ∧ l.depth ≤ 3 ∧
      l.call.1 = r :: r.lexer.call.1 ∧ l.call.1.length ≤ 2 ∧
      r.lexer = { l with modes := {} } ∧
      ∃ r', r.lexer.round = .ok (some r') ∧ r.lexer.pos < r'.lexer.pos := by
  let s : Station := ⟨⟨.blockLiteral, [.root]⟩, ['\n', '|'], ['a']⟩
  have hreach : Session.Reachable ['|', '\n', 'a'] _ := .step .next (.step .next .start)
  have hl : (((Session.start ['|', '\n', 'a']).step .next).2.step .next).2.lexer = s.lexer [] :=
    Lexer.eq_lexer (by decide +kernel) (by decide +kernel) (by decide +kernel)
  have hreached : (s.lexer []).Reached ['|', '\n', 'a'] := hl ▸ .session hreach
  have hround := Station.round_lexer (s := s) [] (by decide)
  have hpending : ([] ++ s.tokens : List Token) = [] := by decide +kernel
  obtain ⟨⟨-, -, hdepth⟩, -, ⟨-, hrounds, -, hcall⟩, hidle⟩ := modes_and_rounds hreached
  obtain ⟨-, hlexer, hnext⟩ := hidle _ hround hpending
  have hfirst := hrounds _ rfl hround
  exact ⟨_, _, hreached, hround, hpending, rfl, hdepth, hfirst, hcall, hlexer, hnext⟩

end Lexer
end Tony
