import Tony.Lexer.Session

/-!
Where reading stands between two rounds: the mode stack, and the text on both sides. A station knows
the reading that is due there and the station after it, so a run is the list of the stations on its
way. Main statement: draining a lexer that stands at a character boundary hands out its pending
tokens and then the tokens of these stations in order, and never gets stuck.
-/

namespace Tony

open Text (Cursor bytes)

structure Station where
  modes : ModeStack := {}
  /-- The text that has been read, the latest character first. -/
  passed : List Char := []
  ahead : List Char
  deriving DecidableEq, Repr

namespace Station

def reading? (s : Station) : Option Reading :=
  s.modes.top.rules.findSome? fun rule => rule.read? s.modes.depth s.passed s.ahead

def reading (s : Station) : Reading :=
  s.reading?.getD ⟨[⟨.plainText, s.ahead.take 1⟩], .stay⟩

def next (s : Station) : Station where
  modes := s.modes.change s.reading.change
  passed := s.reading.text.reverse ++ s.passed
  ahead := s.ahead.drop s.reading.text.length

def tokens (s : Station) : List Token :=
  Lexeme.layout (bytes s.passed) s.reading.lexemes

def record (s : Station) : Option Record :=
  match s.reading? with
  | some r => Record.ofChange? s.modes r.change (bytes s.passed + bytes r.text)
  | none => s.ahead.head?.map fun c => .unmatched s.modes.top c (bytes s.passed)

def lexer (s : Station) (pending : List Token) : Lexer where
  cursor :=
    { passed := s.passed
      ahead := s.ahead
      offset := bytes s.passed
      skew := 0
      offset_eq := rfl
      skew_lt := fun c _ => c.utf8Size_pos }
  modes := s.modes
  pending

end Station

def Lexer.station (l : Lexer) : Station :=
  ⟨l.modes, l.cursor.passed, l.cursor.ahead⟩

theorem Lexer.eq_lexer {l : Lexer} {s : Station} {pending : List Token} (hk : l.cursor.skew = 0)
    (hs : l.station = s) (hp : l.pending = pending) : l = s.lexer pending := by
  obtain ⟨⟨passed, ahead, offset, skew, ho, hlt⟩, modes, ps⟩ := l
  subst hs hp
  obtain rfl : offset = bytes passed := ho
  obtain rfl : skew = 0 := hk
  rfl

namespace Station

theorem exists_text_of_reading? {s : Station} {r : Reading} (h : s.reading? = some r) :
    ∃ rest, r.text ++ rest = s.ahead := by
  obtain ⟨rule, -, hr⟩ := List.exists_of_findSome?_eq_some h
  exact (Rule.text_append_of_read? hr).1

theorem reading_of_reading? {s : Station} {r : Reading} (h : s.reading? = some r) :
    s.reading = r := by
  rw [reading, h]
  rfl

theorem text_append_ahead (s : Station) : s.reading.text ++ s.next.ahead = s.ahead := by
  -- A rule takes what its lexemes tile; the character taken without one is the first of the text.
  obtain ⟨rest, hrest⟩ : ∃ rest, s.reading.text ++ rest = s.ahead := by
    rw [reading]
    cases h : s.reading? with
    | none =>
      refine ⟨s.ahead.drop 1, ?_⟩
      show (s.ahead.take 1 ++ []) ++ s.ahead.drop 1 = s.ahead
      rw [List.append_nil, List.take_append_drop]
    | some r => exact exists_text_of_reading? h
  have hdrop : s.next.ahead = rest := by
    show s.ahead.drop s.reading.text.length = rest
    rw [← hrest, List.drop_left]
  rw [hdrop, hrest]

theorem take_ahead (s : Station) : s.ahead.take s.reading.text.length = s.reading.text := by
  have h : (s.reading.text ++ s.next.ahead).take s.reading.text.length = s.reading.text :=
    List.take_left
  rwa [s.text_append_ahead] at h

theorem passed_append_ahead_next (s : Station) :
    s.next.passed.reverse ++ s.next.ahead = s.passed.reverse ++ s.ahead := by
  rw [next, List.reverse_append, List.reverse_reverse, List.append_assoc]
  exact congrArg (s.passed.reverse ++ ·) s.text_append_ahead

theorem bytes_passed_next (s : Station) :
    bytes s.next.passed = bytes s.passed + bytes s.reading.text := by
  rw [next, Text.bytes_append, Text.bytes_reverse, Nat.add_comm]

theorem next_of_reading {s : Station} {kind : Kind} {text : List Char}
    (h : s.reading = ⟨[⟨kind, text⟩], .stay⟩) :
    s.next = ⟨s.modes, text.reverse ++ s.passed, s.ahead.drop text.length⟩ := by
  have htext : s.reading.text = text := by
    rw [h]
    exact List.append_nil text
  rw [next, htext, h]
  rfl

theorem next_of_append {s : Station} {kind : Kind} {text rest : List Char}
    (h : s.reading = ⟨[⟨kind, text⟩], .stay⟩) (hs : s.ahead = text ++ rest) :
    s.next = ⟨s.modes, text.reverse ++ s.passed, rest⟩ := by
  rw [next_of_reading h, hs, List.drop_left]

theorem take_lexer {s : Station} {r : Reading} (pending : List Token)
    (h : s.ahead.take r.text.length = r.text) :
    ((s.lexer pending).take r).lexer =
      lexer ⟨s.modes.change r.change, r.text.reverse ++ s.passed, s.ahead.drop r.text.length⟩
        (pending ++ Lexeme.layout (bytes s.passed) r.lexemes) := by
  have hstation : ((s.lexer pending).take r).lexer.station =
      ⟨s.modes.change r.change, r.text.reverse ++ s.passed, s.ahead.drop r.text.length⟩ := by
    show (⟨_, (s.ahead.take r.text.length).reverse ++ s.passed, _⟩ : Station) = _
    rw [h]
    rfl
  exact Lexer.eq_lexer rfl hstation rfl

theorem round_lexer {s : Station} (pending : List Token) (h : s.ahead ≠ []) :
    (s.lexer pending).round =
      .ok (some ⟨s.next.lexer (pending ++ s.tokens), s.record⟩) := by
  obtain ⟨c, rest, hc⟩ := List.exists_cons_of_ne_nil h
  have hround : (s.lexer pending).round =
      .ok (some (match s.reading? with
        | some reading => (s.lexer pending).take reading
        | none => (s.lexer pending).takePlain c)) := by
    unfold Lexer.round
    rw [show (s.lexer pending).cursor.ahead = c :: rest from hc]
    rfl
  rw [hround]
  have htake := take_lexer pending s.take_ahead
  cases hr : s.reading? with
  | some r =>
    have hreading : s.reading = r := reading_of_reading? hr
    have hrecord : s.record = ((s.lexer pending).take r).record := by
      have hlen : s.ahead.take r.text.length = r.text := hreading ▸ s.take_ahead
      rw [record, hr]
      show _ = Record.ofChange? s.modes r.change
        (bytes s.passed + bytes (s.ahead.take r.text.length))
      rw [hlen]
    rw [hrecord]
    rw [hreading] at htake
    rw [next, tokens, hreading, ← htake]
  | none =>
    have hreading : s.reading = ⟨[⟨.plainText, [c]⟩], .stay⟩ := by
      rw [reading, hr, hc]; rfl
    have hrecord : s.record = some (.unmatched s.modes.top c (bytes s.passed)) := by
      rw [record, hr, hc]; rfl
    rw [hrecord]
    rw [hreading] at htake
    rw [next, tokens, hreading, ← htake]
    rfl

def bound (s : Station) : Nat :=
  2 * s.ahead.length + s.modes.depth

theorem bound_next_lt {s : Station} (h : s.ahead ≠ []) : s.next.bound < s.bound :=
  Lexer.roundBound_round_lt (round_lexer [] h)

def stations (s : Station) : List Station :=
  if h : s.ahead = [] then []
  else
    have := bound_next_lt h
    s :: s.next.stations
termination_by s.bound

def last (s : Station) : Station :=
  if h : s.ahead = [] then s
  else
    have := bound_next_lt h
    s.next.last
termination_by s.bound

theorem stations_of_end {s : Station} (h : s.ahead = []) : s.stations = [] := by
  rw [stations, dif_pos h]

theorem stations_of_ahead {s : Station} (h : s.ahead ≠ []) :
    s.stations = s :: s.next.stations := by
  rw [stations, dif_neg h]

theorem last_of_end {s : Station} (h : s.ahead = []) : s.last = s := by
  rw [last, dif_pos h]

theorem last_of_ahead {s : Station} (h : s.ahead ≠ []) : s.last = s.next.last := by
  rw [last, dif_neg h]

/-- Induction along a run, from the end of the text backwards. -/
theorem run_induction {P : Station → Prop} (s : Station) (last : ∀ s : Station, s.ahead = [] → P s)
    (round : ∀ s : Station, s.ahead ≠ [] → P s.next → P s) : P s := by
  induction s using stations.induct with
  | case1 s h => exact last s h
  | case2 s h _ ih => exact round s h ih

@[simp] theorem ahead_last (s : Station) : s.last.ahead = [] := by
  induction s using run_induction with
  | last s h => rw [last_of_end h, h]
  | round s h ih => rw [last_of_ahead h, ih]

theorem passed_last (s : Station) : s.last.passed.reverse = s.passed.reverse ++ s.ahead := by
  induction s using run_induction with
  | last s h => rw [last_of_end h, h, List.append_nil]
  | round s h ih => rw [last_of_ahead h, ih, passed_append_ahead_next]

theorem text_of_mem_stations {s x : Station} (h : x ∈ s.stations) :
    x.passed.reverse ++ x.ahead = s.passed.reverse ++ s.ahead := by
  induction s using run_induction with
  | last s hs => rw [stations_of_end hs] at h; cases h
  | round s hs ih =>
    rw [stations_of_ahead hs] at h
    rcases List.mem_cons.1 h with rfl | h
    · rfl
    · rw [ih h, passed_append_ahead_next]

theorem ahead_ne_nil_of_mem_stations {s x : Station} (h : x ∈ s.stations) : x.ahead ≠ [] := by
  induction s using run_induction with
  | last s hs => rw [stations_of_end hs] at h; cases h
  | round s hs ih =>
    rw [stations_of_ahead hs] at h
    rcases List.mem_cons.1 h with rfl | h
    · exact hs
    · exact ih h

end Station

namespace Lexer

theorem round_eq_some {l : Lexer} {r : Round} (h : l.round = .ok (some r)) :
    ∃ s : Station, s.ahead ≠ [] ∧ l = s.lexer l.pending ∧
      r = ⟨s.next.lexer (l.pending ++ s.tokens), s.record⟩ := by
  have hskew : l.cursor.skew = 0 ∧ l.cursor.ahead ≠ [] := by
    unfold round at h
    split at h
    · cases h
    · rename_i c rest hc
      split at h
      · rename_i hk
        exact ⟨hk, by rw [hc]; exact List.cons_ne_nil c rest⟩
      · cases h
  have hl : l = l.station.lexer l.pending := eq_lexer hskew.1 rfl rfl
  have hround := Station.round_lexer l.pending (s := l.station) hskew.2
  rw [← hl, h] at hround
  exact ⟨l.station, hskew.2, hl, Option.some.inj (Except.ok.inj hround)⟩

theorem rest_of_round {l : Lexer} {r : Round} (hp : l.pending = []) (hr : l.round = .ok (some r))
    (hs : r.lexer.rest.stuck = none) :
    l.rest = { r.lexer.rest with records := r.record.toList ++ r.lexer.rest.records } := by
  have hnext := next_of_round hp hr
  cases hn : r.lexer.next with
  | error e =>
    rw [rest_of_next_error hn] at hs
    cases hs
  | ok y =>
    rw [hn] at hnext
    cases ht : y.token with
    | none =>
      rw [rest_of_next_none hnext ht, rest_of_next_none hn ht]
    | some t =>
      rw [rest_of_next_some hnext ht, rest_of_next_some hn ht]
      simp only [List.append_assoc]

theorem rest_of_pending {l : Lexer} {t : Token} {ts : List Token} (h : l.pending = t :: ts) :
    l.rest = { rest { l with pending := ts } with
      tokens := t :: (rest { l with pending := ts }).tokens } :=
  rest_of_next_some (next_of_pending h) rfl

end Lexer

namespace Station

theorem next_lexer_end {s : Station} (h : s.ahead = []) :
    (s.lexer []).next = .ok ⟨none, [], s.lexer []⟩ := by
  have hround : (s.lexer []).round = .ok none := by
    unfold Lexer.round
    rw [show (s.lexer []).cursor.ahead = [] from h]
  exact Lexer.next_of_end rfl hround

theorem next_lexer_of_next {s : Station} {y : Lexer.Yield} (h : s.ahead ≠ [])
    (hy : (s.next.lexer s.tokens).next = .ok y) :
    (s.lexer []).next = .ok { y with records := s.record.toList ++ y.records } := by
  rw [Lexer.next_of_round rfl (round_lexer [] h), List.nil_append, hy]
  rfl

theorem rest_lexer_eq (s : Station) (pending : List Token) :
    (s.lexer pending).rest =
      { (s.lexer []).rest with tokens := pending ++ (s.lexer []).rest.tokens } := by
  induction pending with
  | nil => rfl
  | cons t ts ih =>
    have hrest := Lexer.rest_of_pending (l := s.lexer (t :: ts)) rfl
    rw [hrest, show { s.lexer (t :: ts) with pending := ts } = s.lexer ts from rfl, ih]
    rfl

theorem rest_lexer_nil (s : Station) :
    (s.lexer []).rest =
      { tokens := s.stations.flatMap tokens
        records := s.stations.filterMap record
        stuck := none
        lexer := s.last.lexer [] } := by
  induction s using run_induction with
  | last s h =>
    rw [stations_of_end h, last_of_end h]
    exact Lexer.rest_of_next_none (next_lexer_end h) rfl
  | round s h ih =>
    have hnext := rest_lexer_eq s.next ([] ++ s.tokens)
    rw [ih] at hnext
    rw [Lexer.rest_of_round rfl (round_lexer [] h) (by rw [hnext]), hnext, stations_of_ahead h,
      last_of_ahead h]
    cases hr : s.record <;> simp [hr]

/-- A run hands out what is pending and then what the rounds at its stations take. -/
theorem rest_lexer (s : Station) (pending : List Token) :
    (s.lexer pending).rest =
      { tokens := pending ++ s.stations.flatMap tokens
        records := s.stations.filterMap record
        stuck := none
        lexer := s.last.lexer [] } := by
  rw [rest_lexer_eq, rest_lexer_nil]

end Station

theorem tokenize_eq (source : List Char) :
    tokenize source = (Station.stations { ahead := source }).flatMap Station.tokens := by
  rw [tokenize, show Lexer.ofText source = Station.lexer { ahead := source } [] from rfl,
    Station.rest_lexer_nil]

theorem trace_eq (source : List Char) :
    trace source = (Station.stations { ahead := source }).filterMap Station.record := by
  rw [trace, show Lexer.ofText source = Station.lexer { ahead := source } [] from rfl,
    Station.rest_lexer_nil]

theorem modes_rest_ofText (source : List Char) :
    (Lexer.ofText source).rest.lexer.modes = (Station.last { ahead := source }).modes := by
  rw [show Lexer.ofText source = Station.lexer { ahead := source } [] from rfl,
    Station.rest_lexer_nil]
  rfl

end Tony
