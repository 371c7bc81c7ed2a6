import Tony.Proofs.Appending
import Tony.Proofs.Candidates
import Tony.Proofs.Locality
import Tony.Proofs.Modes

/-!
Texts that are put together at a line break. Main statement: if the first one leaves neither an
argument list nor a text in double quotes open, and no quote or reference that the second could
close, then its tokens are followed by those of the second, moved on by the length of the first.
-/

namespace Tony

open Pattern
open Text (bytes)
open Unicode (isBlank)

/-- A character that no rule took and that begins a text in quotes or a reference. -/
def Record.IsOpen (source : List Char) : Record → Prop
  | .unmatched _ c pos =>
    c = '\'' ∨ (c = '$' ∨ c = '.') ∧ ∃ u v, source = u ++ c :: '[' :: v ∧ bytes u = pos
  | _ => False

namespace Station

def extend (s : Station) (t : List Char) : Station :=
  { s with ahead := s.ahead ++ t }

def LeavesOpen (s : Station) : Prop :=
  s.reading? = none ∧
    (s.ahead.head? = some '\'' ∨ ∃ v, s.ahead = '$' :: '[' :: v ∨ s.ahead = '.' :: '[' :: v)

theorem LeavesOpen.exists_record {s : Station} (h : s.LeavesOpen) :
    ∃ record, s.record = some record ∧ record.IsOpen (s.passed.reverse ++ s.ahead) := by
  obtain ⟨hnone, hopen⟩ := h
  have hrecord : ∀ {c r}, s.ahead = c :: r →
      s.record = some (.unmatched s.modes.top c (bytes s.passed)) := by
    intro c r hc
    rw [record, hnone, hc]
    rfl
  have hcut : ∀ {c v}, s.ahead = c :: '[' :: v →
      ∃ u w, s.passed.reverse ++ s.ahead = u ++ c :: '[' :: w ∧ bytes u = bytes s.passed := by
    intro c v hc
    exact ⟨s.passed.reverse, v, by rw [hc], Text.bytes_reverse _⟩
  rcases hopen with hquote | ⟨v, hv | hv⟩
  · obtain ⟨r, hr⟩ := List.head?_eq_some_iff.1 hquote
    exact ⟨_, hrecord hr, .inl rfl⟩
  · exact ⟨_, hrecord hv, .inr ⟨.inl rfl, hcut hv⟩⟩
  · exact ⟨_, hrecord hv, .inr ⟨.inr rfl, hcut hv⟩⟩

theorem closed {s : Station} (hs : s.ahead ≠ []) (hline : ∀ c ∈ s.ahead.getLast?, c = '\n')
    (hopen : ¬ s.LeavesOpen) (hmode : s.last.modes.top ≠ .doubleString) :
    Closed s.modes.top s.ahead where
  line := by
    have hlast := List.getLast?_eq_some_getLast hs
    rw [hline _ hlast] at hlast
    exact List.getLast?_eq_some_iff.1 hlast
  quote := by
    intro hm hhead hquoted
    obtain ⟨r, hr⟩ := List.head?_eq_some_iff.1 hhead
    rw [hr] at hquoted
    have hnone := (reading?_eq_none_iff_of_quote hr hm).2 (finds_quoted.eq_none_iff.1 hquoted)
    exact hopen ⟨hnone, .inl hhead⟩
  dollar := by
    intro hm v hv
    by_contra hmem
    have hfinds : (reference "$").Finds (Form.Reference '$') := finds_reference rfl
    have habsent := hfinds.eq_none_iff.1 (reference_eq_none (s := '$' :: '[' :: v) (by simp [hmem]))
    have hnone : s.reading? = none := by
      refine (reading?_eq_none_iff_of_reference hv ?_).2 habsent
      exact hm.imp (fun hm => ⟨hm, .inl rfl⟩) fun hm => ⟨hm, rfl⟩
    exact hopen ⟨hnone, .inr ⟨v, .inl hv⟩⟩
  dot := by
    intro hm v hv
    by_contra hmem
    have hfinds : (reference ".").Finds (Form.Reference '.') := finds_reference rfl
    have habsent := hfinds.eq_none_iff.1 (reference_eq_none (s := '.' :: '[' :: v) (by simp [hmem]))
    have hnone := (reading?_eq_none_iff_of_reference hv (.inl ⟨hm, .inr rfl⟩)).2 habsent
    exact hopen ⟨hnone, .inr ⟨v, .inr hv⟩⟩
  stringEnd := by
    intro hm
    by_contra hrun
    have hall : ∀ c ∈ s.ahead, isOneOf "\\\"$" c = false := by
      intro c hc
      rw [Bool.eq_false_iff]
      exact fun h => hrun ⟨c, hc, h⟩
    -- The run takes the rest of the text, so double quotes stay open to its end.
    have hread := reading?_of_stringRun hm hs hall
    have hreading : s.reading = ⟨[⟨.string, s.ahead⟩], .stay⟩ := by rw [reading, hread]; rfl
    have hnext := next_of_reading hreading
    rw [List.drop_length] at hnext
    have hend : s.next.ahead = [] := by rw [hnext]
    rw [last_of_ahead hs, last_of_end hend, hnext] at hmode
    exact hmode hm

section Extend

variable {s : Station} {t : List Char}

theorem reading?_extend (hs : Closed s.modes.top s.ahead) (ht : ∀ c ∈ t.head?, isBlank c = false) :
    (s.extend t).reading? = s.reading? :=
  findSome?_congr fun _ hrule =>
    (Rule.scope_of_mem hrule).read?_append hs ht s.modes.depth s.passed

theorem reading_extend (hs : s.ahead ≠ []) (h : (s.extend t).reading? = s.reading?) :
    (s.extend t).reading = s.reading := by
  have htake : (s.ahead ++ t).take 1 = s.ahead.take 1 :=
    List.take_append_of_le_length (List.length_pos_iff.2 hs)
  show (s.extend t).reading?.getD ⟨[⟨.plainText, (s.ahead ++ t).take 1⟩], .stay⟩ = s.reading
  rw [h, htake]
  rfl

theorem next_extend (h : (s.extend t).reading = s.reading) :
    (s.extend t).next = s.next.extend t := by
  have hle : s.reading.text.length ≤ s.ahead.length := by
    rw [← s.text_append_ahead, List.length_append]
    exact Nat.le_add_right _ _
  have hdrop : (s.ahead ++ t).drop s.reading.text.length = s.next.ahead ++ t :=
    List.drop_append_of_le_length hle
  show (⟨_, _, (s.ahead ++ t).drop _⟩ : Station) = _
  rw [h, hdrop]
  rfl

theorem tokens_extend (h : (s.extend t).reading = s.reading) : (s.extend t).tokens = s.tokens := by
  show Lexeme.layout _ (s.extend t).reading.lexemes = _
  rw [h]
  rfl

theorem flatMap_tokens_extend (ht : ∀ c ∈ t.head?, isBlank c = false)
    (hline : ∀ c ∈ s.ahead.getLast?, c = '\n') (hopen : ∀ x ∈ s.stations, ¬ x.LeavesOpen)
    (hmode : s.last.modes.top ≠ .doubleString) :
    (s.extend t).stations.flatMap tokens =
      s.stations.flatMap tokens ++ (s.last.extend t).stations.flatMap tokens := by
  induction s using run_induction with
  | last s hs => rw [stations_of_end hs, last_of_end hs]; rfl
  | round s hs ih =>
    rw [stations_of_ahead hs] at hopen ⊢
    rw [last_of_ahead hs] at hmode ⊢
    obtain ⟨hhere, hlater⟩ := List.forall_mem_cons.1 hopen
    have hclosed := closed hs hline hhere (by rwa [last_of_ahead hs])
    have hreading := reading_extend hs (reading?_extend hclosed ht)
    have hrest : ∀ c ∈ s.next.ahead.getLast?, c = '\n' := by
      intro c hc
      apply hline
      rw [← s.text_append_ahead, List.getLast?_append, hc]
      rfl
    have hahead : (s.extend t).ahead ≠ [] := List.append_ne_nil_of_left_ne_nil hs t
    rw [stations_of_ahead hahead, List.flatMap_cons, List.flatMap_cons, next_extend hreading,
      tokens_extend hreading, ih hrest hlater hmode, List.append_assoc]

end Extend

theorem flatMap_tokens_of_root {s : Station} (hm : s.modes = {})
    (hline : ∀ c ∈ s.passed.head?, c = '\n') :
    s.stations.flatMap tokens = (tokenize s.ahead).map (Token.shift (bytes s.passed)) := by
  have hanchors : Anchor.Agree s.passed [] := by
    cases hp : s.passed with
    | nil => exact fun _ => rfl
    | cons c p =>
      obtain rfl : c = '\n' := hline c (by rw [hp]; rfl)
      exact Anchor.Agree.lineFeed_start p
  have halike : Alike (bytes s.passed) 0 s { ahead := s.ahead } :=
    ⟨hm, rfl, hanchors, 0, (Nat.zero_add _).symm, rfl⟩
  obtain ⟨ts, hts₁, hts₂⟩ := halike.stations
  rw [hts₁, tokenize_eq, hts₂, Token.shift_zero, List.map_id]

theorem flatMap_tokens_of_block {s : Station} (hm : s.modes = ⟨.blockLiteral, [.root]⟩)
    (hline : ∀ c ∈ s.passed.head?, c = '\n') (hs : ∀ c ∈ s.ahead.head?, isBlank c = false) :
    s.stations.flatMap tokens = (tokenize s.ahead).map (Token.shift (bytes s.passed)) := by
  cases ha : s.ahead with
  | nil =>
    rw [stations_of_end ha, tokenize_eq, stations_of_end rfl]
    rfl
  | cons c r =>
    have hstart : Anchor.lineStart.holds s.passed := by
      show Anchor.atLineStart s.passed = true
      cases hp : s.passed with
      | nil => rfl
      | cons d p => exact decide_eq_true (hline d (by rw [hp]; rfl))
    have hdepth : 1 < s.modes.depth := by rw [hm]; decide
    have hread := reading?_of_unindented (by rw [hm]) hdepth hstart ha (hs c (by rw [ha]; rfl))
    have hreading : s.reading = ⟨[⟨.plainText, []⟩], .pop⟩ := by rw [reading, hread]; rfl
    have htokens : s.tokens = [] := by rw [tokens, hreading]; rfl
    have hnext : s.next = ⟨{}, s.passed, c :: r⟩ := by rw [next, hreading, hm, ha]; rfl
    have hne : s.ahead ≠ [] := by rw [ha]; exact List.cons_ne_nil c r
    rw [stations_of_ahead hne, List.flatMap_cons, htokens, hnext]
    exact flatMap_tokens_of_root rfl hline

end Station

/-- Reading goes on at a line break as if the text began there, if nothing is left open before it and
what follows is not blank. -/
theorem tokenize_append (a b : List Char) (ha : ∀ c ∈ a.getLast?, c = '\n')
    (hb : ∀ c ∈ b.head?, isBlank c = false)
    (hm : (Lexer.ofText a).rest.lexer.modes.top = .root ∧
        (Lexer.ofText a).rest.lexer.modes.depth = 1 ∨
      (Lexer.ofText a).rest.lexer.modes.top = .blockLiteral)
    (hopen : ∀ record ∈ trace a, ¬ record.IsOpen a) :
    tokenize (a ++ b) = tokenize a ++ (tokenize b).map (Token.shift (bytes a)) := by
  rw [modes_rest_ofText] at hm
  rw [trace_eq] at hopen
  let start : Station := { ahead := a }
  have hrounds : ∀ x ∈ start.stations, ¬ x.LeavesOpen := by
    intro x hx hx'
    obtain ⟨record, hrecord, hisOpen⟩ := hx'.exists_record
    rw [Station.text_of_mem_stations hx] at hisOpen
    exact hopen record (List.mem_filterMap.2 ⟨x, hx, hrecord⟩) hisOpen
  have hmode : start.last.modes.top ≠ .doubleString := by
    rcases hm with ⟨htop, -⟩ | htop <;> rw [htop] <;> nofun
  have hseam : start.last.extend b = ⟨start.last.modes, a.reverse, b⟩ := by
    have hpassed : start.last.passed = a.reverse := by
      rw [← List.reverse_reverse start.last.passed, Station.passed_last]
      rfl
    have hahead : start.last.ahead ++ b = b := by rw [Station.ahead_last, List.nil_append]
    rw [← hpassed, Station.extend, hahead]
  have hline : ∀ c ∈ a.reverse.head?, c = '\n' := by rwa [List.head?_reverse]
  have hrest : (start.last.extend b).stations.flatMap Station.tokens =
      (tokenize b).map (Token.shift (bytes a)) := by
    rw [hseam, ← Text.bytes_reverse]
    rcases hm with ⟨htop, hdepth⟩ | htop
    · have hmodes : start.last.modes = {} := by
        rw [ModeStack.eq_of_depth_eq_one hdepth, htop]
      exact Station.flatMap_tokens_of_root hmodes hline
    · have husual : start.last.modes ∈ ModeStack.usual :=
        Station.modes_last_mem_usual (List.mem_cons_self ..)
      have hmodes := ModeStack.eq_of_blockLiteral husual htop
      exact Station.flatMap_tokens_of_block hmodes hline hb
  rw [tokenize_eq, tokenize_eq, ← hrest]
  exact Station.flatMap_tokens_extend hb ha hrounds hmode

theorem tokenize_append_block :
    let a := ['é', ' ', '!', '\n', '|', '\n', ' ', '\'', '$', '[', '\n']
    let b := ['x', ']', '\'']
    (∀ c ∈ a.getLast?, c = '\n') ∧ (∀ c ∈ b.head?, isBlank c = false) ∧
      (Lexer.ofText a).rest.lexer.modes.top = .blockLiteral ∧
      (∀ record ∈ trace a, ¬ record.IsOpen a) ∧
      tokenize (a ++ b) = tokenize a ++ (tokenize b).map (Token.shift 12) := by
  intro a b
  have ha : ∀ c ∈ a.getLast?, c = '\n' := by
    intro c hc
    exact (Option.some.inj hc).symm
  have hb : ∀ c ∈ b.head?, isBlank c = false := by
    intro c hc
    obtain rfl := Option.some.inj hc
    decide
  have hm : (Lexer.ofText a).rest.lexer.modes.top = .blockLiteral := by
    rw [modes_rest_ofText]
    decide +kernel
  have htrace : trace a = [.unmatched .root '!' 3, .pushed .root .blockLiteral 6] := by
    rw [trace_eq]
    decide +kernel
  have hopen : ∀ record ∈ trace a, ¬ record.IsOpen a := by
    rw [htrace, List.forall_mem_cons, List.forall_mem_singleton]
    refine ⟨?_, id⟩
    rintro (h | ⟨h | h, -⟩) <;> exact absurd h (by decide)
  exact ⟨ha, hb, hm, hopen, tokenize_append a b ha hb (.inr hm) hopen⟩

end Tony
