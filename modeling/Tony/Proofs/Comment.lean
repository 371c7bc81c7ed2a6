import Tony.Proofs.Longest
import Tony.Proofs.Neighbours
import Tony.Proofs.NextToken
import Tony.Proofs.Reachable

/-!
Comments. Main statement: in a document a comment goes from its number sign up to the end of the
line and has the kind that the markers in it call for. Whichever of them is taken for the one that
makes the comment special, the rest of the line comes after it. In the other modes there are no
comments, and none is left pending when the mode changes.
-/

namespace Tony

open Form (Marked)
open Pattern

namespace Form

def MarkedComment : Form := fun s =>
  ∃ before after, ∃ w ∈ ["TODO", "FIXME", "XXX", "NOTE"],
    '\n' ∉ before ∧ '\n' ∉ after ∧ s = '#' :: (before ++ w.toList ++ after)

theorem markedComment_iff {s : List Char} :
    MarkedComment s ↔ ∃ line, '\n' ∉ line ∧ Marked line ∧ s = '#' :: line := by
  have hwords : ∀ w ∈ ["TODO", "FIXME", "XXX", "NOTE"], '\n' ∉ w.toList := by decide
  constructor
  · rintro ⟨before, after, w, hw, hbefore, hafter, rfl⟩
    refine ⟨_, ?_, ⟨w, hw, before, after, rfl⟩, rfl⟩
    simp only [List.mem_append, hbefore, hwords w hw, hafter, or_self, not_false_eq_true]
  · rintro ⟨_, hline, ⟨w, hw, before, after, rfl⟩, rfl⟩
    simp only [List.mem_append, not_or] at hline
    exact ⟨before, after, w, hw, hline.1.1, hline.2, rfl⟩

theorem marked_hash_iff {line : List Char} : Marked ('#' :: line) ↔ Marked line := by
  have hwords : ∀ w ∈ ["TODO", "FIXME", "XXX", "NOTE"], ¬ w.toList <+: '#' :: line := by
    simp [List.cons_prefix_cons]
  refine exists_congr fun w => and_congr_right fun hw => ?_
  rw [List.infix_cons_iff, or_iff_right (hwords w hw)]

end Form

open Form (MarkedComment)

namespace Pattern

theorem Finds.longest_iff {p : Pattern} {F : Form} {s v : List Char} (h : p.Finds F) :
    F.Longest s v ↔ ∃ n, p s = some n ∧ v = s.take n := by
  constructor
  · intro hv
    cases hn : p s with
    | none => exact absurd (h.eq_none_iff.1 hn) hv.not_absent
    | some n => exact ⟨n, rfl, hv.eq (h.longest hn)⟩
  · rintro ⟨n, hn, rfl⟩
    exact h.longest hn

theorem passing_comment_hash (r : List Char) :
    comment.passing hasMarker ('#' :: r) =
      if hasMarker ('#' :: r.takeWhile (· ≠ '\n')) then
        some ('#' :: r.takeWhile (· ≠ '\n')).length
      else none := by
  have htake : ('#' :: r).take ('#' :: r.takeWhile (· ≠ '\n')).length =
      '#' :: r.takeWhile (· ≠ '\n') :=
    congrArg ('#' :: ·) (take_length_takeWhile _ r)
  unfold passing
  rw [comment_hash, Option.filter_some, htake]

/-- The test on the whole line finds what a search for a marker along the line would. -/
theorem finds_markedComment : (comment.passing hasMarker).Finds MarkedComment where
  takes := by
    refine (takes_comment.passing hasMarker).mono ?_
    rintro _ ⟨⟨line, rfl, hline⟩, hmarker⟩
    have hmarked := Form.marked_hash_iff.1 (hasMarker_iff.1 hmarker)
    exact Form.markedComment_iff.2 ⟨line, hline, hmarked, rfl⟩
  reaches := by
    intro v r hv
    obtain ⟨line, hline, hmarked, rfl⟩ := Form.markedComment_iff.1 hv
    have htake : (line ++ r).takeWhile (· ≠ '\n') = line ++ r.takeWhile (· ≠ '\n') := by
      refine List.takeWhile_append_of_pos fun c hc => decide_eq_true ?_
      rintro rfl
      exact hline hc
    have hmarker : hasMarker ('#' :: (line ++ r.takeWhile (· ≠ '\n'))) := by
      obtain ⟨w, hw, hinfix⟩ := Form.marked_hash_iff.2 hmarked
      exact hasMarker_iff.2 ⟨w, hw, hinfix.trans (List.prefix_append _ _).isInfix⟩
    rw [List.cons_append, passing_comment_hash, htake, if_pos hmarker]
    refine ⟨_, rfl, ?_⟩
    rw [List.length_cons, List.length_cons, List.length_append]
    omega

theorem longest_markedComment_iff {r v : List Char} :
    Form.Longest MarkedComment ('#' :: r) v ↔
      hasMarker ('#' :: r.takeWhile (· ≠ '\n')) ∧ v = '#' :: r.takeWhile (· ≠ '\n') := by
  rw [finds_markedComment.longest_iff, passing_comment_hash]
  constructor
  · rintro ⟨n, hn, rfl⟩
    obtain ⟨hmarker, hlength⟩ := Option.ite_none_right_eq_some.1 hn
    obtain rfl := Option.some.inj hlength
    exact ⟨hmarker, congrArg ('#' :: ·) (take_length_takeWhile _ r)⟩
  · rintro ⟨hmarker, rfl⟩
    exact ⟨_, if_pos hmarker, congrArg ('#' :: ·) (take_length_takeWhile _ r).symm⟩

theorem exists_line (r : List Char) :
    ∃ line rest, r = line ++ rest ∧ '\n' ∉ line ∧ (∀ c ∈ rest.head?, c = '\n') ∧
      r.takeWhile (· ≠ '\n') = line := by
  have hstop : ∀ c ∈ (r.drop (r.takeWhile (· ≠ '\n')).length).head?, decide (c ≠ '\n') = false :=
    stop_of_takeWhile
  refine ⟨_, r.drop (r.takeWhile (· ≠ '\n')).length, ?_, fun hmem => ?_,
    fun c hc => by simpa using hstop c hc, rfl⟩
  · have happend := List.take_append_drop (r.takeWhile (· ≠ '\n')).length r
    rw [take_length_takeWhile] at happend
    exact happend.symm
  · exact absurd (List.mem_takeWhile_imp hmem) (by decide)

end Pattern

namespace Station

theorem eq_root_of_comment {s : Station} {t : Token} (hs : s.ahead ≠ []) (ht : t ∈ s.tokens)
    (hkind : t.kind = .comment ∨ t.kind = .commentSpecial) :
    s.modes.top = .root ∧ s.next.modes = s.modes := by
  have halone : t.kind.standsAlone := by rcases hkind with h | h <;> rw [h] <;> rfl
  obtain ⟨rule, hread, hrule⟩ := exists_alone hs (List.mem_map_of_mem ht) halone
  refine ⟨?_, modes_next_of_alone hread hrule⟩
  generalize s.modes.top = mode at hrule
  rcases hkind with h | h
  · rw [h] at hrule
    cases hrule
    rfl
  · rw [h] at hrule
    cases hrule <;> rfl

end Station

namespace Lexer

def Rooted (l : Lexer) : Prop :=
  ∀ t ∈ l.pending, t.kind = .comment ∨ t.kind = .commentSpecial → l.mode = .root

theorem comment_round {l : Lexer} {r : Round} (hp : l.pending = []) (hr : l.round = .ok (some r)) :
    ∀ t ∈ r.lexer.pending, t.kind = .comment ∨ t.kind = .commentSpecial →
      l.mode = .root ∧ r.lexer.mode = .root := by
  obtain ⟨s, hs, hl, rfl⟩ := round_eq_some hr
  rw [hp, List.nil_append]
  intro t ht hkind
  obtain ⟨htop, hmodes⟩ := Station.eq_root_of_comment hs ht hkind
  have hmode : s.next.modes.top = .root := by rw [hmodes, htop]
  exact ⟨(congrArg mode hl).trans htop, hmode⟩

theorem Rooted.next {l : Lexer} {y : Yield} (hy : l.next = .ok y) (hl : l.Rooted) :
    y.lexer.Rooted ∧
      ∀ t ∈ y.token, t.kind = .comment ∨ t.kind = .commentSpecial → y.lexer.mode = .root := by
  fun_induction Lexer.next l generalizing y with
  | case1 l t ts hp =>
    obtain rfl := Except.ok.inj hy
    rw [Rooted, hp] at hl
    obtain ⟨ht, hts⟩ := List.forall_mem_cons.1 hl
    refine ⟨hts, fun u hu => ?_⟩
    obtain rfl := Option.some.inj hu
    exact ht
  | case2 l hp e hr => cases hy
  | case3 l hp hr =>
    obtain rfl := Except.ok.inj hy
    exact ⟨hl, fun t ht => absurd ht (Option.not_mem_none t)⟩
  | case4 l hp r hr _ ih =>
    rcases hn : r.lexer.next with e | z
    · rw [hn] at hy; cases hy
    · rw [hn] at hy
      obtain rfl := Except.ok.inj hy
      have hrooted : r.lexer.Rooted := fun t ht hkind => (comment_round hp hr t ht hkind).2
      have hz := ih hn hrooted
      exact hz

end Lexer

theorem Session.Reachable.rooted {source : List Char} {s : Session} (h : s.Reachable source) :
    s.lexer.Rooted := by
  have hstart : (Lexer.ofText source).Rooted := nofun
  exact (h.lexers_of_next hstart (fun hy hl => (hl.next hy).1) fun _ _ hl => hl).1

theorem next_of_hash :
    (∀ l : Lexer, l.mode = .root → l.pending = [] → ∀ r, l.remaining = .ok ('#' :: r) →
      ∃ line rest, r = line ++ rest ∧ '\n' ∉ line ∧ (∀ c ∈ rest.head?, c = '\n') ∧
        (∀ v, Form.Longest MarkedComment ('#' :: r) v ↔ Marked line ∧ v = '#' :: line) ∧
        (Marked line → l.Gives .commentSpecial ('#' :: line) l.modes) ∧
        (¬ Marked line → l.Gives .comment ('#' :: line) l.modes)) ∧
    (∀ l : Lexer, l.mode ≠ .root → l.pending = [] → ∀ round, l.round = .ok (some round) →
      ∀ t ∈ round.lexer.pending, t.kind ≠ .comment ∧ t.kind ≠ .commentSpecial) ∧
    ∀ (source : List Char) (s : Session), s.Reachable source → ∀ y t, s.lexer.next = .ok y →
      y.token = some t → t.kind = .comment ∨ t.kind = .commentSpecial → y.lexer.mode = .root := by
  refine ⟨fun l hm hp r hr => ?_, fun l hm hp round hround t ht => ?_,
    fun source s h y t hy ht => (h.rooted.next hy).2 t ht⟩
  · obtain ⟨s, rfl, hs, -⟩ := Lexer.exists_station_of_remaining hp hr
    obtain ⟨line, rest, hline, hfeed, hstop, htake⟩ := exists_line r
    have hmarked : hasMarker ('#' :: line) ↔ Marked line :=
      hasMarker_iff.trans Form.marked_hash_iff
    have hread : s.reading? =
        some ⟨[⟨Station.commentKind ('#' :: line), '#' :: line⟩], .stay⟩ := by
      rw [← htake]
      exact Station.reading?_of_comment hm hs
    refine ⟨line, rest, hline, hfeed, hstop, fun v => ?_, fun h => ?_, fun h => ?_⟩
    · rw [longest_markedComment_iff, htake, hmarked]
    · rw [Station.commentKind, if_pos (hmarked.2 h)] at hread
      exact Station.gives_of_reading? hread (List.cons_ne_nil _ _)
    · rw [Station.commentKind, if_neg (mt hmarked.1 h)] at hread
      exact Station.gives_of_reading? hread (List.cons_ne_nil _ _)
  · exact not_or.1 fun hkind => hm (Lexer.comment_round hp hround t ht hkind).1

theorem next_of_hash_overlap :
    let line := ['X', 'X', 'X', 'X', 'T', 'O', 'D', 'O', '\r']
    let l := Lexer.ofText ('#' :: line ++ ['\n', '-'])
    l.pending = [] ∧ l.mode = .root ∧ l.remaining = .ok ('#' :: line ++ ['\n', '-']) ∧
      Marked line ∧ l.Gives .commentSpecial ('#' :: line) l.modes := by
  intro line l
  obtain ⟨line', rest, -, -, -, hlongest, hspecial, -⟩ :=
    next_of_hash.1 l rfl rfl (line ++ ['\n', '-']) rfl
  have hwhole : Form.Longest MarkedComment ('#' :: line ++ ['\n', '-']) ('#' :: line) :=
    longest_markedComment_iff.2 ⟨by decide, by decide⟩
  obtain ⟨hmarked, hline⟩ := (hlongest _).1 hwhole
  obtain rfl : line = line' := (List.cons.inj hline).2
  exact ⟨rfl, rfl, rfl, hmarked, hspecial hmarked⟩

end Tony
