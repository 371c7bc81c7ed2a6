import Tony.Proofs.BlockReading
import Tony.Proofs.Boundary
import Tony.Proofs.Passage
import Tony.Proofs.Progress

/-!
How far a block goes. Main statement: a block goes on up to the first line after its mark that does
not begin with a blank, or else to the end of the text. At that line the mode is left without a
token, and the first token after it begins there.
-/

namespace Tony

open Pattern
open Text (bytes)
open Unicode (isBlank)

/-- At byte `q` a line of the text begins, and not with a blank. -/
def LineBegins (source : List Char) (q : Nat) : Prop :=
  ∃ u c v, source = u ++ '\n' :: c :: v ∧ isBlank c = false ∧ q = bytes (u ++ ['\n'])

theorem LineBegins.lt_bytes {source : List Char} {q : Nat} (h : LineBegins source q) :
    q < bytes source := by
  obtain ⟨u, c, v, rfl, -, rfl⟩ := h
  have hlt := Text.bytes_lt_append_cons (u ++ ['\n']) c v
  rwa [List.append_assoc] at hlt

theorem Text.mem_dropLast_of_bytes_lt {t r a b : List Char} {d : Char} (h : t ++ r = a ++ d :: b)
    (hlt : bytes (a ++ [d]) < bytes t) : d ∈ t.dropLast := by
  have hcut : t ++ r = a ++ [d] ++ b := by rw [h, List.append_assoc]; rfl
  obtain ⟨e, rfl, -⟩ := exists_append_of_bytes_le hcut.symm (Nat.le_of_lt hlt)
  have hne : e ≠ [] := by
    rintro rfl
    rw [List.append_nil] at hlt
    exact Nat.lt_irrefl _ hlt
  rw [List.dropLast_append_of_ne_nil hne]
  exact List.mem_append_left _ (List.mem_append_right a (List.mem_singleton_self d))

theorem ModeStack.eq_push_of_change {m : ModeStack} {c : ModeChange} {mode : Mode}
    (h : m.change c = ⟨mode, m.top :: m.below⟩) : c = .push mode := by
  have hdepth : (m.change c).depth = m.depth + 1 := by
    rw [h]
    rfl
  cases c with
  | stay => exact absurd hdepth (Nat.ne_of_lt (Nat.lt_succ_self _))
  | push mode' => exact congrArg ModeChange.push (ModeStack.mk.inj h).1
  | pop =>
    have hpop : m.pop.depth = m.depth + 1 := hdepth
    have hpos : 0 < m.depth := Nat.succ_pos _
    rw [depth_pop] at hpop
    omega

theorem Anchor.not_lineStart_append {w : List Char} (hne : w ≠ []) (hfeed : '\n' ∉ w)
    (p : List Char) : ¬ Anchor.lineStart.holds (w.reverse ++ p) := by
  obtain ⟨c, v, hv⟩ := List.exists_cons_of_ne_nil (mt List.reverse_eq_nil_iff.1 hne)
  rw [hv]
  intro hline
  obtain rfl : c = '\n' := of_decide_eq_true hline
  refine hfeed (List.mem_reverse.1 ?_)
  rw [hv]
  exact List.mem_cons_self ..

namespace Station

variable {s : Station} {q : Nat}

theorem readBy_blockOpening (hs : s.ahead ≠ [])
    (h : s.next.modes = ⟨.blockLiteral, s.modes.top :: s.modes.below⟩) :
    s.ReadBy Rule.blockOpening ∧ s.modes.top = .root := by
  have hpush : s.reading.change = .push .blockLiteral := ModeStack.eq_push_of_change h
  rcases telling_or_isQuiet hs with ⟨rule, htelling, hrule⟩ | hquiet
  · rw [hrule.change] at hpush
    generalize hmode : s.modes.top = mode at htelling
    cases htelling with
    | blockOpening => exact ⟨hrule, rfl⟩
    | separator | mergeKey | argumentsOpening | quoteOpening | argumentsClosing | quoteClosing
    | blockLeaving => cases hpush
  · rw [hquiet.change] at hpush
    cases hpush

theorem lineFeed_not_mem_of_blockOpening (h : s.ReadBy Rule.blockOpening) :
    '\n' ∉ s.reading.text := by
  have hindent : StopsAt indent '\n' := stopsAt_indent (by decide)
  have hmark : StopsAt blockMark '\n' := stopsAt_blockMark (by decide)
  have hparts : ∀ part ∈ Rule.blockOpening.parts, part.2.Takes ('\n' ∉ ·) := by
    simp only [Rule.blockOpening, List.forall_mem_cons]
    exact ⟨hindent.takes, hmark.takes, hindent.takes, List.forall_mem_nil _⟩
  have hlexemes := h.forall_lexemes (F := fun _ s => '\n' ∉ s) hparts
  intro hmem
  obtain ⟨l, hl, hmem⟩ := List.mem_flatMap.1 hmem
  exact hlexemes l hl hmem

theorem block_round (hs : s.ahead ≠ []) (hm : s.modes.top = .blockLiteral)
    (hdepth : 1 < s.modes.depth) (hindented : ¬ s.AtUnindented) :
    s.next.modes = s.modes ∧ '\n' ∉ s.reading.text.dropLast := by
  obtain ⟨kind, w, hreading, hfeed⟩ : ∃ kind w,
      s.reading = ⟨[⟨kind, w⟩], .stay⟩ ∧ '\n' ∉ w.dropLast := by
    cases blockTurn hm hs hdepth with
    | line _ _ _ inner _ reading =>
      refine ⟨_, _, reading_of_reading? reading, fun hmem => ?_⟩
      have hend := inner '\n' ((List.dropLast_sublist _).subset hmem)
      cases hend
    | lineBreak _ form reading =>
      have hbreaks : ∀ w ∈ [['\n'], ['\r', '\n']], '\n' ∉ w.dropLast := by decide
      exact ⟨_, _, reading_of_reading? reading, hbreaks _ form⟩
    | leaving unindented _ => exact absurd unindented hindented
    | @stray c r ahead _ _ _ reading =>
      refine ⟨.plainText, [c], ?_, List.not_mem_nil⟩
      rw [Station.reading, reading, ahead]
      rfl
  have htext : s.reading.text = w := by
    rw [hreading]
    exact List.append_nil w
  rw [htext]
  refine ⟨?_, hfeed⟩
  show s.modes.change s.reading.change = s.modes
  rw [hreading]
  rfl

theorem not_lineBegins_of_block (hindented : ¬ s.AtUnindented)
    (hfeed : '\n' ∉ s.reading.text.dropLast) (hle : bytes s.passed ≤ q)
    (hlt : q < bytes s.next.passed) : ¬ LineBegins (s.passed.reverse ++ s.ahead) q := by
  rintro ⟨u, c, v, hsource, hblank, rfl⟩
  have hcut : s.passed.reverse ++ s.ahead = u ++ ['\n'] ++ c :: v := by
    rw [hsource, List.append_assoc]
    rfl
  rw [← Text.bytes_reverse] at hle
  obtain ⟨e, he, hahead⟩ := Text.exists_append_of_bytes_le hcut hle
  -- Either the line begins where the round does, or its line feed is within what is read.
  rcases List.eq_nil_or_concat e with rfl | ⟨e, d, rfl⟩
  · refine hindented ⟨?_, ?_⟩
    · rw [← List.reverse_reverse s.passed, ← List.append_nil s.passed.reverse, ← he,
        List.reverse_append]
      rfl
    · rw [hahead]
      show (!isBlank c) = true
      rw [hblank]
      rfl
  · rw [List.concat_eq_append, ← List.append_assoc] at he
    obtain ⟨-, hd⟩ := List.append_inj' he rfl
    obtain rfl := List.singleton_inj.1 hd
    refine hfeed (Text.mem_dropLast_of_bytes_lt (r := s.next.ahead) (a := e) (b := c :: v) ?_ ?_)
    · rw [s.text_append_ahead, hahead, List.concat_eq_append, List.append_assoc]
      rfl
    · rw [he, List.append_assoc, Text.bytes_append, Text.bytes_reverse, bytes_passed_next] at hlt
      omega

variable {top : Mode} {below : List Mode}

theorem lineBegins_of_atUnindented (hpassed : s.passed ≠ []) (h : s.AtUnindented) :
    LineBegins (s.passed.reverse ++ s.ahead) (bytes s.passed) := by
  obtain ⟨hline, hblank⟩ := h
  obtain ⟨c, p, hp⟩ := List.exists_cons_of_ne_nil hpassed
  rw [hp] at hline
  obtain rfl : c = '\n' := of_decide_eq_true hline
  cases hahead : s.ahead with
  | nil => rw [hahead] at hblank; cases hblank
  | cons d v =>
    rw [hahead] at hblank
    have hblank : (!isBlank d) = true := hblank
    refine ⟨p.reverse, d, v, by rw [hp]; simp, by simpa using hblank, ?_⟩
    rw [hp, ← List.reverse_cons, Text.bytes_reverse]

theorem lineBegins_beyond {y : Station} (hpassed : s.passed ≠ [])
    (hstart : ¬ Anchor.lineStart.holds s.passed) (hsuffix : s.passed <:+ y.passed)
    (h : y.AtUnindented) :
    bytes s.passed < bytes y.passed ∧ LineBegins (y.passed.reverse ++ y.ahead) (bytes y.passed) := by
  obtain ⟨e, he⟩ := hsuffix
  -- A block does not begin where a line does, so the line that ends it is further on.
  have hne : e ≠ [] := by
    rintro rfl
    rw [List.nil_append] at he
    exact hstart (he ▸ h.1)
  have hbytes := mt Text.bytes_eq_zero_iff.1 hne
  refine ⟨?_, lineBegins_of_atUnindented (he ▸ List.append_ne_nil_of_right_ne_nil e hpassed) h⟩
  rw [← he, Text.bytes_append]
  omega

theorem exists_passage_block (hm : s.modes = ⟨.blockLiteral, top :: below⟩) :
    ∃ (ts : List Token) (y : Station), (s.lexer []).Passage s.modes ts (y.lexer []) ∧
      y.modes = s.modes ∧ (y.ahead = [] ∨ y.AtUnindented) ∧
      y.passed.reverse ++ y.ahead = s.passed.reverse ++ s.ahead ∧ s.passed <:+ y.passed ∧
      ∀ q, bytes s.passed ≤ q → q < bytes y.passed →
        ¬ LineBegins (s.passed.reverse ++ s.ahead) q := by
  induction s using run_induction with
  | last s h =>
    refine ⟨[], s, .refl _, rfl, .inl h, rfl, List.suffix_rfl, fun q hle hlt => ?_⟩
    exact absurd hlt (Nat.not_lt.2 hle)
  | round s h ih =>
    by_cases hindented : s.AtUnindented
    · refine ⟨[], s, .refl _, rfl, .inr hindented, rfl, List.suffix_rfl, fun q hle hlt => ?_⟩
      exact absurd hlt (Nat.not_lt.2 hle)
    · have hdepth : 1 < s.modes.depth := by
        rw [hm]
        exact Nat.succ_lt_succ (Nat.succ_pos _)
      obtain ⟨hmodes, hfeed⟩ := block_round h (by rw [hm]) hdepth hindented
      obtain ⟨ts, y, hpassage, hy, hend, htext, hsuffix, hnone⟩ := ih (hmodes.trans hm)
      have hround := passage_round h hmodes.symm hpassage
      rw [hmodes] at hround hy
      rw [passed_append_ahead_next] at htext hnone
      refine ⟨_, y, hround, hy, hend, htext, (List.suffix_append _ _).trans hsuffix,
        fun q hle hlt => ?_⟩
      by_cases hq : q < bytes s.next.passed
      · exact not_lineBegins_of_block hindented hfeed hle hq
      · exact hnone q (Nat.not_lt.1 hq) hlt

theorem leave_block (hm : s.modes = ⟨.blockLiteral, top :: below⟩) (h : s.AtUnindented) :
    s.ahead ≠ [] ∧ s.tokens = [] ∧ s.next = ⟨⟨top, below⟩, s.passed, s.ahead⟩ := by
  obtain ⟨hline, hblank⟩ := h
  cases hahead : s.ahead with
  | nil => rw [hahead] at hblank; cases hblank
  | cons c v =>
    rw [hahead] at hblank
    have hblank : (!isBlank c) = true := hblank
    have hdepth : 1 < s.modes.depth := by
      rw [hm]
      exact Nat.succ_lt_succ (Nat.succ_pos _)
    have hread := reading?_of_unindented (by rw [hm]) hdepth hline hahead (by simpa using hblank)
    have hreading : s.reading = ⟨[⟨.plainText, []⟩], .pop⟩ := reading_of_reading? hread
    refine ⟨List.cons_ne_nil c v, by rw [tokens, hreading]; rfl, ?_⟩
    rw [next, hreading, hm, hahead]
    rfl

theorem next_of_root (hs : s.ahead ≠ []) (hm : s.modes.top = .root) :
    ∃ z t, (s.lexer []).next = .ok z ∧ z.token = some t ∧ t.span.start = bytes s.passed := by
  have htext := text_ne_nil_of_mode hs (by rw [hm]; decide)
  have htiles := Lexeme.tiles_layout (bytes s.passed) s.reading.lexemes
  obtain ⟨t, ts, ht⟩ := List.exists_cons_of_ne_nil (tokens_ne_nil htext)
  rw [← tokens, ht] at htiles
  exact ⟨_, t, next_of_tokens hs ht, rfl, htiles.1⟩

theorem not_lineStart_of_blockOpening (h : s.ReadBy Rule.blockOpening) :
    s.next.passed ≠ [] ∧ ¬ Anchor.lineStart.holds s.next.passed := by
  have hne := h.text_ne_nil (by decide)
  refine ⟨List.append_ne_nil_of_left_ne_nil (mt List.reverse_eq_nil_iff.1 hne) _, ?_⟩
  exact Anchor.not_lineStart_append hne (lineFeed_not_mem_of_blockOpening h) s.passed

end Station

/-- A block from its beginning on, after any round that has opened it. -/
theorem blockLiteral_passage {l : Lexer} {r : Lexer.Round} (h : l.round = .ok (some r))
    (hopen : r.lexer.modes = ⟨.blockLiteral, l.modes.top :: l.modes.below⟩) :
    l.modes.top = .root ∧
      (∀ q, r.lexer.pos < q → LineBegins l.text q →
        (∀ k, r.lexer.pos < k → LineBegins l.text k → q ≤ k) →
        ∃ ts y, r.lexer.HandsOut ts y ∧ r.lexer.Passage r.lexer.modes ts y ∧ y.pos = q ∧
          y.modes = r.lexer.modes ∧ y.pending = [] ∧
          (∃ r', y.round = .ok (some r') ∧ r'.lexer = { y with modes := l.modes }) ∧
          ∃ z t, y.next = .ok z ∧ z.token = some t ∧ t.span.start = q) ∧
      ((∀ q, r.lexer.pos < q → ¬ LineBegins l.text q) →
        ∃ ts y, r.lexer.HandsOut ts y ∧ r.lexer.Passage r.lexer.modes ts y ∧ y.atEnd ∧
          y.modes = r.lexer.modes ∧ y.pending = []) := by
  obtain ⟨s, hs, hl, rfl⟩ := Lexer.round_eq_some h
  have hmodes : l.modes = s.modes := by rw [hl]; rfl
  have htext : l.text = s.passed.reverse ++ s.ahead := by rw [hl]; rfl
  rw [hmodes] at hopen ⊢
  rw [htext]
  obtain ⟨hopening, hroot⟩ := Station.readBy_blockOpening hs hopen
  obtain ⟨hpassed, hstart⟩ := Station.not_lineStart_of_blockOpening hopening
  obtain ⟨ts, y, hpassage, hy, hend, hytext, hsuffix, hnone⟩ :=
    Station.exists_passage_block (s := s.next) hopen
  have hpassage := Station.passage_pending (l.pending ++ s.tokens) hpassage
  have hhands := hpassage.handsOut rfl fun _ => hy
  rw [Station.passed_append_ahead_next] at hytext hnone
  have hline : y.AtUnindented → bytes s.next.passed < bytes y.passed ∧
      LineBegins (s.passed.reverse ++ s.ahead) (bytes y.passed) := by
    intro hunindented
    rw [← hytext]
    exact Station.lineBegins_beyond hpassed hstart hsuffix hunindented
  refine ⟨hroot, fun q hq hbegins hleast => ?_, fun hnever => ?_⟩
  · have hunindented : y.AtUnindented := by
      refine hend.resolve_left fun hahead => hnone q (Nat.le_of_lt hq) ?_ hbegins
      rw [← Text.bytes_reverse, ← List.append_nil y.passed.reverse, ← hahead, hytext]
      exact hbegins.lt_bytes
    obtain ⟨hlt, hthere⟩ := hline hunindented
    obtain rfl : q = bytes y.passed :=
      Nat.le_antisymm (hleast _ hlt hthere)
        (Nat.not_lt.1 fun hbefore => hnone q (Nat.le_of_lt hq) hbefore hbegins)
    obtain ⟨hahead, htokens, hnext⟩ := Station.leave_block (hy.trans hopen) hunindented
    obtain ⟨z, t, hz, ht, hspan⟩ :=
      Station.next_of_root (s := ⟨s.modes, y.passed, y.ahead⟩) hahead hroot
    have hround := Station.round_lexer [] hahead
    have hcall : (y.next.lexer y.tokens).next = .ok z := by
      rw [htokens, hnext]
      exact hz
    refine ⟨_, y.lexer [], hhands, hpassage, rfl, hy, rfl, ⟨_, hround, ?_⟩,
      _, t, Station.next_lexer_of_next hahead hcall, ht, hspan⟩
    rw [htokens, hnext]
    rfl
  · refine ⟨_, y.lexer [], hhands, hpassage, ?_, hy, rfl⟩
    have hahead : y.ahead = [] := hend.resolve_right fun hunindented =>
      hnever _ (hline hunindented).1 (hline hunindented).2
    exact List.isEmpty_iff.2 hahead

theorem blockLiteral_passage_blank :
    let source := ['|', '\n', '\u00a0', '\n', 'x']
    ∃ r ts y, (Lexer.ofText source).round = .ok (some r) ∧ r.lexer.pos = 1 ∧
      r.lexer.HandsOut ts y ∧ r.lexer.Passage ⟨.blockLiteral, [.root]⟩ ts y ∧ y.pos = 5 ∧
      ∃ z t, y.next = .ok z ∧ z.token = some t ∧ t.span.start = 5 := by
  intro source
  let s : Station := { ahead := source }
  have hround : (Lexer.ofText source).round = .ok (some ⟨s.next.lexer s.tokens, s.record⟩) :=
    Station.round_lexer (s := s) [] (List.cons_ne_nil _ _)
  have hopen : s.next.modes = ⟨.blockLiteral, [.root]⟩ := by decide +kernel
  have hpos : (s.next.lexer s.tokens).pos = 1 := by decide +kernel
  obtain ⟨-, hleave, -⟩ := blockLiteral_passage hround hopen
  have hline : LineBegins source 5 := ⟨['|', '\n', '\u00a0'], 'x', [], rfl, by decide, by decide⟩
  have hleast : ∀ k, 1 < k → LineBegins source k → 5 ≤ k := by
    rintro k - ⟨u, c, v, hsource, hblank, rfl⟩
    rcases u with _ | ⟨a, _ | ⟨b, _ | ⟨d, u⟩⟩⟩
    all_goals
      simp only [source, List.nil_append, List.cons_append, List.cons.injEq] at hsource
    · exact absurd hsource.1 (by decide)
    · obtain ⟨-, -, rfl, -⟩ := hsource
      cases hblank
    · exact absurd hsource.2.2.1 (by decide)
    · obtain ⟨rfl, rfl, rfl, -⟩ := hsource
      have hbefore : bytes ['|', '\n', '\u00a0'] = 4 := by decide
      have hsplit : bytes ('|' :: '\n' :: '\u00a0' :: u ++ ['\n']) = 4 + bytes (u ++ ['\n']) := by
        rw [← hbefore, ← Text.bytes_append]
        rfl
      have hfeed : bytes (u ++ ['\n']) = bytes u + 1 := Text.bytes_append u ['\n']
      omega
  obtain ⟨ts, y, hhands, hpassage, hy, -, -, -, hnext⟩ :=
    hleave 5 (by rw [hpos]; decide) hline (by rw [hpos]; exact hleast)
  have hmodes : (s.next.lexer s.tokens).modes = ⟨.blockLiteral, [.root]⟩ := hopen
  rw [hmodes] at hpassage
  exact ⟨_, ts, y, hround, hpos, hhands, hpassage, hy, hnext⟩

end Tony
