import Tony.Proofs.Station

/-!
The sessions that operations lead to from the beginning of a text. What rounds, handing out and
moving on keep, holds for the lexer and for the saved copy of every such session.
-/

namespace Tony

inductive Session.Reachable (source : List Char) : Session → Prop
  | start : Reachable source (.start source)
  | step {s : Session} (op : Op) : Reachable source s → Reachable source (s.step op).2

namespace Lexer

structure Kept (P : Lexer → Prop) : Prop where
  handOut {l : Lexer} {t : Token} {ts : List Token} :
    l.pending = t :: ts → P l → P { l with pending := ts }
  round {l : Lexer} {r : Round} : l.round = .ok (some r) → P l → P r.lexer

theorem Kept.next {P : Lexer → Prop} (hP : Kept P) {l : Lexer} {y : Yield} (h : l.next = .ok y)
    (hl : P l) : P y.lexer := by
  fun_induction Lexer.next l generalizing y with
  | case1 l t ts hp =>
    obtain rfl := Except.ok.inj h
    exact hP.handOut hp hl
  | case2 l hp e hr => cases h
  | case3 l hp hr =>
    obtain rfl := Except.ok.inj h
    exact hl
  | case4 l hp r hr _ ih =>
    rcases hn : r.lexer.next with e | z
    · rw [hn] at h; cases h
    · rw [hn] at h
      obtain rfl := Except.ok.inj h
      have hz : P z.lexer := ih hn (hP.round hr hl)
      exact hz

theorem drainOnto_of_next {P : Lexer → Prop}
    (hP : ∀ {l : Lexer} {y : Yield}, l.next = .ok y → P l → P y.lexer) (tokens : List Token)
    (records : List Record) {l : Lexer} (hl : P l) : P (l.drainOnto tokens records).lexer := by
  fun_induction Lexer.drainOnto tokens records l with
  | case1 tokens records l e h => exact hl
  | case2 tokens records l y h ht => exact hP h hl
  | case3 tokens records l y h t ht _ ih => exact ih (hP h hl)

theorem Kept.rest {P : Lexer → Prop} (hP : Kept P) {l : Lexer} (hl : P l) : P l.rest.lexer :=
  drainOnto_of_next hP.next [] [] hl

end Lexer

namespace Session.Reachable

variable {source : List Char} {s : Session} {P : Lexer → Prop}

theorem lexers_of_next (h : Reachable source s) (hstart : P (.ofText source))
    (hnext : ∀ {l : Lexer} {y : Lexer.Yield}, l.next = .ok y → P l → P y.lexer)
    (hadvance : ∀ l n, P l → P (l.advance n)) : P s.lexer ∧ P s.saved := by
  induction h with
  | start => exact ⟨hstart, hstart⟩
  | @step s op _ ih =>
    obtain ⟨hl, hs⟩ := ih
    cases op with
    | next =>
      rcases hn : s.lexer.next with e | y
      · have hstep : (s.step .next).2 = s := by rw [Session.step, hn]
        rw [hstep]
        exact ⟨hl, hs⟩
      · have hstep : (s.step .next).2 = { s with lexer := y.lexer } := by rw [Session.step, hn]
        rw [hstep]
        exact ⟨hnext hn hl, hs⟩
    | rest => exact ⟨Lexer.drainOnto_of_next hnext [] [] hl, hs⟩
    | peek => exact ⟨hl, hs⟩
    | remaining => exact ⟨hl, hs⟩
    | advance n => exact ⟨hadvance s.lexer n hl, hs⟩
    | save => exact ⟨hl, hl⟩
    | restore => exact ⟨hs, hs⟩

theorem lexers (h : Reachable source s) (hstart : P (.ofText source)) (hP : Lexer.Kept P)
    (hadvance : ∀ l n, P l → P (l.advance n)) : P s.lexer ∧ P s.saved :=
  h.lexers_of_next hstart hP.next hadvance

end Session.Reachable
end Tony
