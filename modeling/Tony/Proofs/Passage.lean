import Tony.Proofs.NextToken

/-!
Passages: stretches of reading in which every round begins with the same modes. Main statement: the
tokens of a passage are those that calls for tokens give, one after the other.
-/

namespace Tony

namespace Lexer

/-- A lexer hands out tokens and so gets to another one. All rounds on the way begin in the modes
`m`; only the last one can leave them. -/
inductive Passage (m : ModeStack) : Lexer → List Token → Lexer → Prop
  | refl (l : Lexer) : Passage m l [] l
  | handOut {l l' : Lexer} {t : Token} {ts us : List Token} (pending : l.pending = t :: ts)
      (rest : Passage m { l with pending := ts } us l') : Passage m l (t :: us) l'
  | round {l l' : Lexer} {r : Round} {us : List Token} (pending : l.pending = [])
      (modes : l.modes = m) (round : l.round = .ok (some r)) (rest : Passage m r.lexer us l') :
      Passage m l us l'

/-- Calls for a token, one after the other, give these tokens and lead to another lexer. -/
inductive HandsOut : Lexer → List Token → Lexer → Prop
  | refl (l : Lexer) : HandsOut l [] l
  | call {l l' : Lexer} {y : Yield} {t : Token} {ts : List Token} (next : l.next = .ok y)
      (token : y.token = some t) (rest : HandsOut y.lexer ts l') : HandsOut l (t :: ts) l'

variable {m : ModeStack} {l l' : Lexer} {t : Token} {ts us : List Token}

theorem Passage.next (h : Passage m l (t :: ts) l') :
    ∃ y, l.next = .ok y ∧ y.token = some t ∧ Passage m y.lexer ts l' := by
  generalize hus : t :: ts = us at h
  induction h with
  | refl l => cases hus
  | handOut pending rest _ =>
    obtain ⟨rfl, rfl⟩ := List.cons.inj hus
    exact ⟨_, next_of_pending pending, rfl, rest⟩
  | @round l l' r us pending modes round rest ih =>
    obtain ⟨y, hy, ht, hrest⟩ := ih hus
    refine ⟨{ y with records := r.record.toList ++ y.records }, ?_, ht, hrest⟩
    rw [next_of_round pending round, hy]
    rfl

end Lexer

namespace Station

theorem depth_next_lt {s : Station} (hs : s.ahead ≠ []) (ht : s.tokens = []) :
    s.next.modes.depth < s.modes.depth := by
  have htext : s.reading.text = [] := not_not.1 fun h => tokens_ne_nil h ht
  have happend := s.text_append_ahead
  rw [htext, List.nil_append] at happend
  have hbound := bound_next_lt hs
  rw [bound, bound, happend] at hbound
  omega

end Station

namespace Lexer

section Ending

variable {m : ModeStack} {l z : Lexer} (hp : z.pending = [])
  (hz : m.top = .blockLiteral → z.modes = m)

include hp hz

theorem ne_of_round {r : Round} (hm : l.modes = m) (hr : l.round = .ok (some r)) :
    r.lexer ≠ z := by
  rintro rfl
  obtain ⟨s, hs, hl, rfl⟩ := round_eq_some hr
  have hmodes : s.modes = m := by rw [← hm, hl]; rfl
  have ht : s.tokens = [] := (List.append_eq_nil_iff.1 hp).2
  have htop : m.top = .blockLiteral := by
    by_contra htop
    rw [← hmodes] at htop
    exact Station.tokens_ne_nil (Station.text_ne_nil_of_mode hs htop) ht
  have hstay : s.next.modes = s.modes := (hz htop).trans hmodes.symm
  have hlt := Station.depth_next_lt hs ht
  rw [hstay] at hlt
  exact Nat.lt_irrefl _ hlt

theorem Passage.eq_of_nil (h : Passage m l [] z) : l = z := by
  generalize hus : ([] : List Token) = us at h
  induction h with
  | refl l => rfl
  | handOut pending rest _ => cases hus
  | round pending modes round rest ih =>
    exact absurd (ih hp hz hus) (ne_of_round hp hz modes round)

theorem Passage.handsOut {us : List Token} (h : Passage m l us z) : l.HandsOut us z := by
  induction us generalizing l with
  | nil =>
    obtain rfl := h.eq_of_nil hp hz
    exact .refl l
  | cons t ts ih =>
    obtain ⟨y, hy, ht, hrest⟩ := h.next
    exact .call hy ht (ih hrest)

end Ending

end Lexer

namespace Station

variable {s : Station} {m : ModeStack} {l : Lexer} {us : List Token}

theorem passage_pending (pending : List Token) (h : (s.lexer []).Passage m us l) :
    (s.lexer pending).Passage m (pending ++ us) l := by
  induction pending with
  | nil => exact h
  | cons t ts ih => exact .handOut rfl ih

theorem passage_round (hs : s.ahead ≠ []) (hm : s.modes = m)
    (h : (s.next.lexer []).Passage m us l) : (s.lexer []).Passage m (s.tokens ++ us) l :=
  .round rfl hm (round_lexer [] hs) (passage_pending s.tokens h)

end Station
end Tony
