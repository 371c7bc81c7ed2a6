import Mathlib.Algebra.GroupWithZero.Nat
import Tony.Proofs.Boundary
import Tony.Proofs.Reachable

/-!
Tokens cover the text. Main statement: a lexer of a session over a text, wherever operations have
left it at a character boundary, hands out its pending tokens and then tokens that tile the rest of
the text, and each token has the value that the text has there.
-/

namespace Tony

open Text (bytes slice slice_eq_ok_iff IsBoundary)

namespace Token

/-- Tokens that are not empty and stand side by side from byte `start` up to byte `stop`. -/
def Tiles (start stop : Nat) : List Token → Prop
  | [] => start = stop
  | t :: ts => t.span.start = start ∧ start < t.span.stop ∧ Tiles t.span.stop stop ts

def Covers (t : Token) (q : Nat) : Prop :=
  t.span.start ≤ q ∧ q < t.span.stop

def IsFrom (source : List Char) (t : Token) : Prop :=
  slice source t.span.start t.span.stop = .ok t.value

theorem Tiles.append {start mid stop : Nat} {ts us : List Token} (ht : Tiles start mid ts)
    (hu : Tiles mid stop us) : Tiles start stop (ts ++ us) := by
  induction ts generalizing start with
  | nil =>
    obtain rfl : start = mid := ht
    exact hu
  | cons t ts ih =>
    obtain ⟨hs, hlt, htail⟩ := ht
    exact ⟨hs, hlt, ih htail⟩

theorem Tiles.start_add_sum {start stop : Nat} {ts : List Token} (h : Tiles start stop ts) :
    start + (ts.map fun t => t.span.length).sum = stop := by
  induction ts generalizing start with
  | nil => exact h
  | cons t ts ih =>
    obtain ⟨hs, hlt, htail⟩ := h
    have hsum := ih htail
    have hlen : t.span.length = t.span.stop - start := by rw [Span.length, hs]
    rw [List.map_cons, List.sum_cons, hlen]
    omega

theorem Tiles.bounds_of_mem {start stop : Nat} {ts : List Token} (h : Tiles start stop ts) :
    ∀ t ∈ ts, start ≤ t.span.start ∧ t.span.start < t.span.stop ∧ t.span.stop ≤ stop := by
  induction ts generalizing start with
  | nil => exact List.forall_mem_nil _
  | cons t ts ih =>
    obtain ⟨hs, hlt, htail⟩ := h
    have hrest := ih htail
    have hsum := htail.start_add_sum
    refine List.forall_mem_cons.2 ⟨by omega, fun u hu => ?_⟩
    have hbounds := hrest u hu
    omega

theorem Tiles.pairwise_start {start stop : Nat} {ts : List Token} (h : Tiles start stop ts) :
    ts.Pairwise fun t u => t.span.start < u.span.start := by
  induction ts generalizing start with
  | nil => exact .nil
  | cons t ts ih =>
    obtain ⟨rfl, hlt, htail⟩ := h
    refine List.pairwise_cons.2 ⟨fun u hu => ?_, ih htail⟩
    exact Nat.lt_of_lt_of_le hlt (htail.bounds_of_mem u hu).1

theorem Tiles.exists_covers {start stop q : Nat} {ts : List Token} (h : Tiles start stop ts)
    (hstart : start ≤ q) (hstop : q < stop) : ∃ t ∈ ts, t.Covers q := by
  induction ts generalizing start with
  | nil =>
    obtain rfl : start = stop := h
    exact absurd hstart (Nat.not_le.2 hstop)
  | cons t ts ih =>
    obtain ⟨rfl, -, htail⟩ := h
    by_cases hq : q < t.span.stop
    · exact ⟨t, List.mem_cons_self .., hstart, hq⟩
    · obtain ⟨u, hu, hcovers⟩ := ih htail (Nat.not_lt.1 hq)
      exact ⟨u, List.mem_cons_of_mem t hu, hcovers⟩

end Token

namespace Lexeme

theorem tiles_layout (offset : Nat) (ls : List Lexeme) :
    Token.Tiles offset (offset + bytes (ls.flatMap text)) (layout offset ls) := by
  induction ls generalizing offset with
  | nil => rfl
  | cons l ls ih =>
    have htail := ih (offset + bytes l.text)
    rw [Nat.add_assoc, ← Text.bytes_append, ← List.flatMap_cons] at htail
    rw [layout]
    split
    · rename_i hl
      rw [List.isEmpty_iff.1 hl, Text.bytes_nil, Nat.add_zero] at htail ⊢
      exact htail
    · rename_i hl
      have hpos : bytes l.text ≠ 0 := fun h => hl (List.isEmpty_iff.2 (Text.bytes_eq_zero_iff.1 h))
      have hlt : offset < offset + bytes l.text := by omega
      exact ⟨rfl, hlt, htail⟩

theorem flatMap_value_layout (offset : Nat) (ls : List Lexeme) :
    (layout offset ls).flatMap Token.value = ls.flatMap text := by
  induction ls generalizing offset with
  | nil => rfl
  | cons l ls ih =>
    rw [layout]
    split
    · rename_i hl
      rw [ih, List.flatMap_cons, List.isEmpty_iff.1 hl, List.nil_append]
    · rw [List.flatMap_cons, List.flatMap_cons, ih]

theorem isFrom_of_mem_layout {u v : List Char} {ls : List Lexeme} {t : Token}
    (h : t ∈ layout (bytes u) ls) : t.IsFrom (u ++ (ls.flatMap text ++ v)) := by
  induction ls generalizing u with
  | nil => cases h
  | cons l ls ih =>
    have htail : t ∈ layout (bytes u + bytes l.text) ls →
        t.IsFrom (u ++ ((l :: ls).flatMap text ++ v)) := by
      intro ht
      rw [← Text.bytes_append] at ht
      have hfrom := ih ht
      rwa [List.append_assoc, ← List.append_assoc l.text, ← List.flatMap_cons] at hfrom
    rw [layout] at h
    split at h
    · exact htail h
    · rcases List.mem_cons.1 h with rfl | h
      · refine slice_eq_ok_iff.2 ⟨u, ls.flatMap text ++ v, ?_, rfl, ?_⟩
        · rw [List.flatMap_cons, List.append_assoc]
        · rw [Text.bytes_append]
      · exact htail h

end Lexeme

namespace Station

theorem tokens_ne_nil {s : Station} (h : s.reading.text ≠ []) : s.tokens ≠ [] := by
  intro hnil
  have hvalues : s.tokens.flatMap Token.value = s.reading.text := Lexeme.flatMap_value_layout _ _
  rw [hnil] at hvalues
  exact h hvalues.symm

theorem isFrom_of_mem_tokens {s : Station} {t : Token} (h : t ∈ s.tokens) :
    t.IsFrom (s.passed.reverse ++ s.ahead) := by
  rw [tokens, ← Text.bytes_reverse] at h
  have hfrom := Lexeme.isFrom_of_mem_layout (v := s.next.ahead) h
  rwa [show s.reading.lexemes.flatMap Lexeme.text ++ s.next.ahead = s.ahead from
    s.text_append_ahead] at hfrom

theorem tiles_stations (s : Station) :
    Token.Tiles (bytes s.passed) (bytes s.passed + bytes s.ahead) (s.stations.flatMap tokens) := by
  induction s using run_induction with
  | last s h => rw [stations_of_end h, h]; rfl
  | round s h ih =>
    have hhere : Token.Tiles (bytes s.passed) (bytes s.next.passed) s.tokens := by
      rw [bytes_passed_next]
      exact Lexeme.tiles_layout (bytes s.passed) s.reading.lexemes
    have hstop : bytes s.next.passed + bytes s.next.ahead = bytes s.passed + bytes s.ahead := by
      rw [bytes_passed_next, Nat.add_assoc, ← Text.bytes_append, s.text_append_ahead]
    rw [hstop] at ih
    rw [stations_of_ahead h, List.flatMap_cons]
    exact hhere.append ih

theorem flatMap_value_stations (s : Station) :
    (s.stations.flatMap tokens).flatMap Token.value = s.ahead := by
  induction s using run_induction with
  | last s h => rw [stations_of_end h, h]; rfl
  | round s h ih =>
    have hhere : s.tokens.flatMap Token.value = s.reading.text :=
      Lexeme.flatMap_value_layout (bytes s.passed) s.reading.lexemes
    rw [stations_of_ahead h, List.flatMap_cons, List.flatMap_append, ih, hhere,
      s.text_append_ahead]

theorem isFrom_of_mem_stations {s : Station} {t : Token} (h : t ∈ s.stations.flatMap tokens) :
    t.IsFrom (s.passed.reverse ++ s.ahead) := by
  obtain ⟨x, hx, ht⟩ := List.mem_flatMap.1 h
  rw [← text_of_mem_stations hx]
  exact isFrom_of_mem_tokens ht

end Station

namespace Lexer

/-- What every lexer of a session over a text is like: it reads this text, and its pending tokens
have been taken from it. -/
structure Reads (source : List Char) (l : Lexer) : Prop where
  text_eq : l.text = source
  isFrom : ∀ t ∈ l.pending, t.IsFrom source

theorem kept_reads (source : List Char) : Kept (Reads source) where
  handOut := by
    intro l t ts hp hl
    refine ⟨hl.text_eq, fun u hu => hl.isFrom u ?_⟩
    rw [hp]
    exact List.mem_cons_of_mem t hu
  round := by
    intro l r hr hl
    obtain ⟨s, -, hs, rfl⟩ := round_eq_some hr
    have htext : s.passed.reverse ++ s.ahead = source := by
      rw [← hl.text_eq, hs]
      rfl
    refine ⟨?_, ?_⟩
    · show s.next.passed.reverse ++ s.next.ahead = source
      rw [Station.passed_append_ahead_next, htext]
    · intro t ht
      rcases List.mem_append.1 ht with ht | ht
      · exact hl.isFrom t ht
      · exact htext ▸ Station.isFrom_of_mem_tokens ht

end Lexer

theorem Session.Reachable.reads {source : List Char} {s : Session} (h : Reachable source s) :
    s.lexer.Reads source := by
  have hstart : (Lexer.ofText source).Reads source := ⟨rfl, fun t ht => nomatch ht⟩
  have hadvance : ∀ l n, Lexer.Reads source l → (l.advance n).Reads source := by
    intro l n hl
    exact ⟨(Text.Cursor.text_advance l.cursor n).trans hl.text_eq, hl.isFrom⟩
  exact (h.lexers hstart (Lexer.kept_reads source) hadvance).1

theorem Session.Reachable.exists_station {source : List Char} {s : Session}
    (h : Reachable source s) (hpos : IsBoundary source s.lexer.pos) :
    ∃ x : Station, s.lexer = x.lexer s.lexer.pending ∧ x.passed.reverse ++ x.ahead = source := by
  have htext := h.reads.text_eq
  have hskew : s.lexer.cursor.skew = 0 := by
    apply Text.Cursor.skew_eq_zero
    show IsBoundary s.lexer.text s.lexer.pos
    rw [htext]
    exact hpos
  exact ⟨s.lexer.station, Lexer.eq_lexer hskew rfl rfl, htext⟩

/-- Nothing of a text is lost and nothing comes twice, wherever a session goes on from. -/
theorem rest_covers (source : List Char) :
    (∀ s : Session, s.Reachable source → IsBoundary source s.lexer.pos →
      s.lexer.rest.stuck = none ∧
      s.lexer.rest.lexer.pos = bytes source ∧
      (∃ ts, s.lexer.rest.tokens = s.lexer.pending ++ ts ∧
        Token.Tiles s.lexer.pos (bytes source) ts) ∧
      ∀ t ∈ s.lexer.rest.tokens, t.IsFrom source) ∧
    (tokenize source).flatMap Token.value = source ∧
    ((tokenize source).map fun t => t.span.length).sum = bytes source := by
  refine ⟨?_, ?_, ?_⟩
  · intro s hs hpos
    obtain ⟨x, hx, htext⟩ := hs.exists_station hpos
    have hfrom := hs.reads.isFrom
    have htiles := x.tiles_stations
    have hlen : bytes x.passed + bytes x.ahead = bytes source := by
      rw [← htext, Text.bytes_append, Text.bytes_reverse]
    have hlast : bytes x.last.passed = bytes source := by
      rw [← Text.bytes_reverse, Station.passed_last, htext]
    generalize s.lexer.pending = pending at hx hfrom
    rw [hlen] at htiles
    rw [hx, Station.rest_lexer]
    refine ⟨rfl, hlast, ⟨x.stations.flatMap Station.tokens, rfl, htiles⟩, ?_⟩
    intro t ht
    rcases List.mem_append.1 ht with ht | ht
    · exact hfrom t ht
    · exact htext ▸ Station.isFrom_of_mem_stations ht
  · rw [tokenize_eq, Station.flatMap_value_stations]
  · have htiles := Station.tiles_stations { ahead := source }
    rw [tokenize_eq, ← Nat.zero_add (List.sum _)]
    exact htiles.start_add_sum.trans (Nat.zero_add _)

theorem rest_covers_pending :
    ∃ s : Session, s.Reachable ['é', ':', ' ', 'b'] ∧ IsBoundary ['é', ':', ' ', 'b'] s.lexer.pos ∧
      s.lexer.pending = [⟨.plainText, [' '], ⟨3, 4⟩⟩] ∧ s.lexer.rest.stuck = none ∧
      s.lexer.rest.lexer.pos = 5 ∧
      ∃ ts, s.lexer.rest.tokens = s.lexer.pending ++ ts ∧ Token.Tiles 4 5 ts := by
  have hreach : Session.Reachable ['é', ':', ' ', 'b'] _ := .step .next (.step .next .start)
  have hpos : (((Session.start ['é', ':', ' ', 'b']).step .next).2.step .next).2.lexer.pos = 4 := by
    decide +kernel
  have hbound : IsBoundary ['é', ':', ' ', 'b']
      (((Session.start ['é', ':', ' ', 'b']).step .next).2.step .next).2.lexer.pos := by
    rw [hpos]
    exact Text.isBoundary_bytes ['é', ':', ' '] ['b']
  obtain ⟨hstuck, hend, htiles, -⟩ := (rest_covers ['é', ':', ' ', 'b']).1 _ hreach hbound
  rw [hpos] at htiles
  exact ⟨_, hreach, hbound, by decide +kernel, hstuck, hend, htiles⟩

end Tony
