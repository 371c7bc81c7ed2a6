import Tony.Proofs.Coverage
import Tony.Proofs.Landmark
import Tony.Proofs.Spelling

/-!
The next token. Outside of blocks every round takes some text, so the next call for a token makes
one round and hands out the first lexeme of its reading.
-/

namespace Tony

open Pattern
open Text (bytes)

namespace Lexer

/-- The next call gives a token of a kind and a text, and then the lexer stands right behind it, in
the modes `m` and with nothing pending. -/
def Gives (l : Lexer) (kind : Kind) (text : List Char) (m : ModeStack) : Prop :=
  ∃ y rest, l.next = .ok y ∧ y.token = some ⟨kind, text, ⟨l.pos, l.pos + bytes text⟩⟩ ∧
    l.remaining = .ok (text ++ rest) ∧ y.lexer.remaining = .ok rest ∧ y.lexer.modes = m ∧
    y.lexer.pending = []

theorem exists_station_of_remaining {l : Lexer} {r : List Char} (hp : l.pending = [])
    (hr : l.remaining = .ok r) :
    ∃ s : Station, l = s.lexer [] ∧ s.ahead = r ∧ s.modes = l.modes := by
  have hcursor : l.cursor.skew = 0 ∧ l.cursor.ahead = r := by
    rw [remaining, Text.Cursor.remaining] at hr
    split at hr
    · rename_i hskew
      exact ⟨hskew, Except.ok.inj hr⟩
    · split at hr <;> cases hr
  exact ⟨l.station, eq_lexer hcursor.1 rfl hp, hcursor.2, rfl⟩

end Lexer

namespace Station

variable {s : Station}

theorem text_ne_nil_of_mode (hs : s.ahead ≠ []) (hm : s.modes.top ≠ .blockLiteral) :
    s.reading.text ≠ [] := by
  rcases telling_or_isQuiet hs with ⟨rule, htelling, h⟩ | hquiet
  · generalize s.modes.top = mode at htelling hm
    cases htelling with
    | separator | mergeKey | argumentsOpening | blockOpening | quoteOpening =>
      exact h.text_ne_nil (by decide)
    | argumentsClosing =>
      obtain ⟨-, htext⟩ := h.lexemes_of_parts rfl (takes_literal ")")
      rw [htext]
      exact List.cons_ne_nil _ _
    | quoteClosing =>
      obtain ⟨-, htext⟩ := h.lexemes_of_parts rfl (takes_literal "\"")
      rw [htext]
      exact List.cons_ne_nil _ _
    | blockLeaving => exact absurd rfl hm
  · exact hquiet.text_ne_nil

theorem next_of_tokens {t : Token} {ts : List Token} (hs : s.ahead ≠ []) (h : s.tokens = t :: ts) :
    (s.lexer []).next = .ok ⟨some t, s.record.toList, s.next.lexer ts⟩ := by
  have hpending : (s.next.lexer s.tokens).next = .ok ⟨some t, [], s.next.lexer ts⟩ := by
    rw [h]
    exact Lexer.next_of_pending rfl
  have hnext := next_lexer_of_next hs hpending
  rwa [List.append_nil] at hnext

theorem gives_of_reading {kind : Kind} {text : List Char} {change : ModeChange}
    (h : s.reading = ⟨[⟨kind, text⟩], change⟩) (hne : text ≠ []) :
    (s.lexer []).Gives kind text (s.modes.change change) := by
  have htext : s.reading.text = text := by
    rw [h]
    exact List.append_nil text
  have happend := s.text_append_ahead
  rw [htext] at happend
  have hs : s.ahead ≠ [] := by
    rw [← happend]
    exact List.append_ne_nil_of_left_ne_nil hne _
  have htokens : s.tokens = [⟨kind, text, ⟨bytes s.passed, bytes s.passed + bytes text⟩⟩] := by
    rw [tokens, h, Lexeme.layout_cons_of_ne_nil hne]
    rfl
  have hmodes : s.next.modes = s.modes.change change := by
    show s.modes.change s.reading.change = _
    rw [h]
  refine ⟨_, s.next.ahead, next_of_tokens hs htokens, rfl, ?_, rfl, hmodes, rfl⟩
  show Except.ok s.ahead = _
  rw [happend]

theorem gives_of_reading? {kind : Kind} {text : List Char} {change : ModeChange}
    (h : s.reading? = some ⟨[⟨kind, text⟩], change⟩) (hne : text ≠ []) :
    (s.lexer []).Gives kind text (s.modes.change change) :=
  gives_of_reading (reading_of_reading? h) hne

theorem gives_of_none {c : Char} {r : List Char} (hs : s.ahead = c :: r) (h : s.reading? = none) :
    (s.lexer []).Gives .plainText [c] s.modes := by
  have hreading : s.reading = ⟨[⟨.plainText, [c]⟩], .stay⟩ := by
    rw [reading, h, hs]
    rfl
  exact gives_of_reading hreading (List.cons_ne_nil c [])

theorem next_value {y : Lexer.Yield} {t : Token} (hm : s.modes.top ≠ .blockLiteral)
    (hy : (s.lexer []).next = .ok y) (ht : y.token = some t) :
    t.kind.Spelling t.value ∧ t.value <+: s.ahead := by
  have hs : s.ahead ≠ [] := by
    intro hend
    rw [next_lexer_end hend] at hy
    obtain rfl := Except.ok.inj hy
    cases ht
  have htext := text_ne_nil_of_mode hs hm
  obtain ⟨u, us, hus⟩ := List.exists_cons_of_ne_nil (tokens_ne_nil htext)
  rw [next_of_tokens hs hus] at hy
  obtain rfl := Except.ok.inj hy
  obtain rfl := Option.some.inj ht
  constructor
  · have hmem : u ∈ s.tokens := by
      rw [hus]
      exact List.mem_cons_self ..
    obtain ⟨l, hl, hne, hkind, hvalue⟩ := Lexeme.exists_of_mem_layout hmem
    rw [hkind, hvalue]
    exact (spelling_of_mem_lexemes hs l hl).resolve_left hne
  · have hvalues : s.tokens.flatMap Token.value = s.reading.text :=
      Lexeme.flatMap_value_layout _ _
    rw [hus, List.flatMap_cons] at hvalues
    rw [← s.text_append_ahead, ← hvalues, List.append_assoc]
    exact List.prefix_append _ _

end Station
end Tony
