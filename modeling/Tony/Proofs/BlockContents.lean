import Tony.Proofs.BlockExtent
import Tony.Proofs.LineMark

/-!
What is in a block. Main statement: line by line, a block gives what is before the first carriage
return of the line as one token, from there on each character by itself, and then the line break. So
it reads all that is in it, unless carriage returns stand alone.
-/

namespace Tony

open Pattern
open Text (bytes)
open Unicode (isBlank)

/-- A line, and what ends it: nothing, a line feed, or a carriage return and a line feed. -/
structure TextLine where
  text : List Char
  ending : List Char
  deriving DecidableEq, Repr

def Text.ReturnsPaired (s : List Char) : Prop :=
  ∀ u w, s = u ++ '\r' :: w → w.head? = some '\n'

theorem Text.ReturnsPaired.of_append {t s : List Char} (h : Text.ReturnsPaired (t ++ s)) :
    Text.ReturnsPaired s := by
  rintro u w rfl
  exact h (t ++ u) w (List.append_assoc ..).symm

namespace TextLine

def attach (c : Char) : List TextLine → List TextLine
  | [] => [⟨[c], []⟩]
  | l :: ls => ⟨c :: l.text, l.ending⟩ :: ls

/-- The lines of a text. Behind the last line break there is one more, which may be empty. -/
def ofText : List Char → List TextLine
  | [] => [⟨[], []⟩]
  | '\n' :: s => ⟨[], ['\n']⟩ :: ofText s
  | '\r' :: '\n' :: s => ⟨[], ['\r', '\n']⟩ :: ofText s
  | c :: s => attach c (ofText s)

def whole (l : TextLine) : List Char :=
  l.text ++ l.ending

def isIndented (l : TextLine) : Bool :=
  l.text.head?.all isBlank

def block (ls : List TextLine) : List TextLine :=
  ls.takeWhile isIndented

def content (l : TextLine) : List Char :=
  l.text.takeWhile (· ≠ '\r')

def strays (l : TextLine) : List Char :=
  l.text.dropWhile (· ≠ '\r')

def single (s : List Char) : List Lexeme :=
  s.map fun c => ⟨.plainText, [c]⟩

/-- The lexemes of a line in a block. There is no token for what is empty. -/
def lexemes (l : TextLine) : List Lexeme :=
  ⟨.string, l.content⟩ :: (single l.strays ++ [⟨.plainText, l.ending⟩])

def lexemesWithin : List TextLine → List Lexeme
  | [] => []
  | l :: ls => single l.text ++ ⟨.plainText, l.ending⟩ :: (block ls).flatMap lexemes

structure Proper (l : TextLine) : Prop where
  feed : '\n' ∉ l.text
  form : l.ending ∈ [[], ['\n'], ['\r', '\n']]
  ret : l.ending = ['\n'] → l.text.getLast? ≠ some '\r'

section Lines

variable {c : Char} {s v w : List Char} {l : TextLine} {ls : List TextLine}

theorem attach_eq (c : Char) (l : TextLine) (ls : List TextLine) :
    attach c (l :: ls) = ⟨c :: l.text, l.ending⟩ :: ls := rfl

theorem ofText_ne_nil (s : List Char) : ofText s ≠ [] := by
  fun_cases ofText s with
  | case1 | case2 | case3 => exact List.cons_ne_nil _ _
  | case4 c s =>
    cases ofText s with
    | nil => exact List.cons_ne_nil _ _
    | cons l ls => exact List.cons_ne_nil _ _

theorem exists_ofText (s : List Char) : ∃ l ls, ofText s = l :: ls :=
  List.exists_cons_of_ne_nil (ofText_ne_nil s)

theorem ofText_lineBreak (hw : w ∈ [['\n'], ['\r', '\n']]) (v : List Char) :
    ofText (w ++ v) = ⟨[], w⟩ :: ofText v := by
  simp only [List.mem_cons, List.not_mem_nil, or_false] at hw
  rcases hw with rfl | rfl
  · rfl
  · rfl

theorem ofText_cons (hfeed : c ≠ '\n') (hret : c = '\r' → s.head? ≠ some '\n') :
    ofText (c :: s) = attach c (ofText s) := by
  rw [ofText]
  · exact hfeed
  · rintro t rfl rfl
    exact hret rfl rfl

theorem ofText_append (hw : ∀ c ∈ w, isLineEnd c = false) (hv : ofText v = l :: ls) :
    ofText (w ++ v) = ⟨w ++ l.text, l.ending⟩ :: ls := by
  induction w with
  | nil => exact hv
  | cons c w ih =>
    obtain ⟨hc, hw⟩ := List.forall_mem_cons.1 hw
    have hfeed : c ≠ '\n' := by rintro rfl; cases hc
    have hret : c = '\r' → (w ++ v).head? ≠ some '\n' := by rintro rfl; cases hc
    rw [List.cons_append, ofText_cons hfeed hret, ih hw]
    rfl

theorem flatMap_whole (s : List Char) : (ofText s).flatMap whole = s := by
  fun_induction ofText s with
  | case1 => rfl
  | case2 s ih => exact congrArg ('\n' :: ·) ih
  | case3 s ih => exact congrArg (['\r', '\n'] ++ ·) ih
  | case4 c s _ _ ih =>
    obtain ⟨l, ls, hls⟩ := exists_ofText s
    rw [hls] at ih ⊢
    exact congrArg (c :: ·) ih

theorem proper_of_mem (s : List Char) : ∀ l ∈ ofText s, l.Proper := by
  fun_induction ofText s with
  | case1 => exact List.forall_mem_singleton.2 ⟨List.not_mem_nil, by decide, nofun⟩
  | case2 s ih => exact List.forall_mem_cons.2 ⟨⟨List.not_mem_nil, by decide, nofun⟩, ih⟩
  | case3 s ih => exact List.forall_mem_cons.2 ⟨⟨List.not_mem_nil, by decide, nofun⟩, ih⟩
  | case4 c s hfeed hret ih =>
    obtain ⟨l, ls, hls⟩ := exists_ofText s
    have hwhole := flatMap_whole s
    rw [hls] at ih hwhole ⊢
    obtain ⟨hl, hrest⟩ := List.forall_mem_cons.1 ih
    refine List.forall_mem_cons.2 ⟨⟨?_, hl.form, fun hending hlast => ?_⟩, hrest⟩
    · exact List.not_mem_cons_of_ne_of_not_mem (fun h => hfeed h.symm) hl.feed
    · obtain ⟨text, ending⟩ := l
      obtain rfl : ending = ['\n'] := hending
      cases text with
      | nil =>
        obtain rfl : c = '\r' := Option.some.inj hlast
        exact hret _ rfl hwhole.symm
      | cons d text => exact hl.ret rfl ((List.getLast?_cons_cons).symm.trans hlast)

theorem return_not_mem (hs : Text.ReturnsPaired s) : ∀ l ∈ ofText s, '\r' ∉ l.text := by
  fun_induction ofText s with
  | case1 => exact List.forall_mem_singleton.2 List.not_mem_nil
  | case2 s ih =>
    exact List.forall_mem_cons.2 ⟨List.not_mem_nil, ih (hs.of_append (t := ['\n']))⟩
  | case3 s ih =>
    exact List.forall_mem_cons.2 ⟨List.not_mem_nil, ih (hs.of_append (t := ['\r', '\n']))⟩
  | case4 c s hfeed hret ih =>
    have hc : c ≠ '\r' := by
      rintro rfl
      obtain ⟨t, rfl⟩ := List.head?_eq_some_iff.1 (hs [] s rfl)
      exact hret t rfl rfl
    have hrest := ih (hs.of_append (t := [c]))
    obtain ⟨l, ls, hls⟩ := exists_ofText s
    rw [hls] at hrest ⊢
    obtain ⟨hl, hrest⟩ := List.forall_mem_cons.1 hrest
    exact List.forall_mem_cons.2 ⟨List.not_mem_cons_of_ne_of_not_mem (fun h => hc h.symm) hl, hrest⟩

theorem flatMap_text_lexemes (ls : List TextLine) :
    (ls.flatMap lexemes).flatMap Lexeme.text = ls.flatMap whole := by
  induction ls with
  | nil => rfl
  | cons l ls ih =>
    have hstrays : (single l.strays).flatMap Lexeme.text = l.strays := by
      rw [single, List.flatMap_map]
      exact List.flatMap_singleton' l.strays
    have hline : l.lexemes.flatMap Lexeme.text = l.whole := by
      rw [lexemes, List.flatMap_cons, List.flatMap_append, hstrays, List.flatMap_singleton,
        ← List.append_assoc]
      exact congrArg (· ++ l.ending) List.takeWhile_append_dropWhile
    rw [List.flatMap_cons, List.flatMap_append, List.flatMap_cons, hline, ih]

theorem block_cons (h : l.isIndented) : block (l :: ls) = l :: block ls :=
  List.takeWhile_cons_of_pos h

theorem lexemes_append (hw : '\r' ∉ w) (h : ∀ c ∈ l.text.head?, c = '\r') :
    lexemes ⟨w ++ l.text, l.ending⟩ =
      ⟨.string, w⟩ :: (single l.text ++ [⟨.plainText, l.ending⟩]) := by
  have hinner : ∀ c ∈ w, decide (c ≠ '\r') = true := by
    rintro c hc
    exact decide_eq_true fun h => hw (h ▸ hc)
  have hstop : ∀ c ∈ l.text.head?, decide (c ≠ '\r') = false := fun c hc => by
    rw [h c hc]
    rfl
  have hcontent : (w ++ l.text).takeWhile (· ≠ '\r') = w := by
    rw [takeWhile_append_of_head? hstop, List.takeWhile_eq_self_iff]
    exact hinner
  have hstrays : (w ++ l.text).dropWhile (· ≠ '\r') = l.text := by
    have happend := List.takeWhile_append_dropWhile (p := (· ≠ '\r')) (l := w ++ l.text)
    rw [hcontent] at happend
    exact List.append_cancel_left happend
  rw [lexemes, content, strays, hcontent, hstrays]

theorem flatMap_lexemes_append (hindented : isIndented ⟨w ++ l.text, l.ending⟩) (hw : '\r' ∉ w)
    (h : ∀ c ∈ l.text.head?, c = '\r') :
    (block (⟨w ++ l.text, l.ending⟩ :: ls)).flatMap lexemes =
      ⟨.string, w⟩ :: lexemesWithin (l :: ls) := by
  rw [block_cons hindented, List.flatMap_cons, lexemes_append hw h, List.cons_append,
    List.append_assoc]
  rfl

theorem flatMap_lexemes_of_stop (h : ∀ c ∈ l.text.head?, c = '\r') :
    (block (l :: ls)).flatMap lexemes = ⟨.string, []⟩ :: lexemesWithin (l :: ls) := by
  refine flatMap_lexemes_append (w := []) ?_ List.not_mem_nil h
  show l.text.head?.all isBlank = true
  rw [Option.all_eq_true]
  intro c hc
  rw [h c hc]
  rfl

theorem head?_text (hs : ofText s = l :: ls) : ∀ c ∈ l.text.head?, s.head? = some c := by
  intro c hc
  have hwhole := flatMap_whole s
  obtain ⟨t, ht⟩ := List.head?_eq_some_iff.1 hc
  rw [hs, List.flatMap_cons, whole, ht] at hwhole
  rw [← hwhole]
  rfl

theorem stop_of_ofText (hs : ofText s = l :: ls) (hstop : ∀ c ∈ s.head?, isLineEnd c) :
    ∀ c ∈ l.text.head?, c = '\r' := by
  intro c hc
  have hend := isLineEnd_iff.1 (hstop c (head?_text hs c hc))
  have hproper := proper_of_mem s l (by rw [hs]; exact List.mem_cons_self ..)
  refine hend.resolve_right fun hfeed => hproper.feed ?_
  rw [← hfeed]
  exact List.mem_of_mem_head? hc

end Lines

end TextLine

namespace Station

open TextLine

variable {s : Station} {top : Mode} {below : List Mode}

def blockLexemes (s : Station) : List Lexeme :=
  if Anchor.lineStart.holds s.passed then (block (ofText s.ahead)).flatMap lexemes
  else lexemesWithin (ofText s.ahead)

theorem blockLexemes_of_lineStart (h : Anchor.lineStart.holds s.passed) :
    s.blockLexemes = (block (ofText s.ahead)).flatMap lexemes :=
  if_pos h

theorem blockLexemes_of_within (h : ¬ Anchor.lineStart.holds s.passed) :
    s.blockLexemes = lexemesWithin (ofText s.ahead) :=
  if_neg h

theorem lineStart_of_lineBreak {w : List Char} (hw : w ∈ [['\n'], ['\r', '\n']])
    (p : List Char) : Anchor.lineStart.holds (w.reverse ++ p) := by
  simp only [List.mem_cons, List.not_mem_nil, or_false] at hw
  rcases hw with rfl | rfl
  · rfl
  · rfl

theorem blockLexemes_step (hturn : s.BlockTurn) (hstay : ¬ s.AtUnindented) :
    s.next.modes = s.modes ∧
      (s.blockLexemes = s.reading.lexemes ++ s.next.blockLexemes ∨
        s.blockLexemes = ⟨.string, []⟩ :: (s.reading.lexemes ++ s.next.blockLexemes)) := by
  cases hturn with
  | leaving unindented _ => exact absurd unindented hstay
  | @line w v ahead start blank inner stop reading =>
    obtain ⟨c, hc, hblank⟩ := blank
    have hreading := reading_of_reading? reading
    have hnext := next_of_append hreading ahead
    have hne : w ≠ [] := by
      rintro rfl
      cases hc
    have hends : ∀ d, isLineEnd d → d ∉ w := by
      intro d hd hmem
      rw [inner d hmem] at hd
      cases hd
    have hwithin : ¬ Anchor.lineStart.holds s.next.passed := by
      rw [hnext]
      exact Anchor.not_lineStart_append hne (hends '\n' rfl) s.passed
    obtain ⟨l, ls, hls⟩ := exists_ofText v
    have hindented : isIndented ⟨w ++ l.text, l.ending⟩ := by
      show (w ++ l.text).head?.all isBlank = true
      rw [List.head?_append, hc]
      exact hblank
    refine ⟨by rw [hnext], .inl ?_⟩
    rw [blockLexemes_of_lineStart start, blockLexemes_of_within hwithin, hnext, hreading, ahead,
      ofText_append inner hls, hls]
    exact flatMap_lexemes_append hindented (hends '\r' rfl) (stop_of_ofText hls stop)
  | @lineBreak w v ahead form reading =>
    have hreading := reading_of_reading? reading
    have hnext := next_of_append hreading ahead
    have hlines := ofText_lineBreak form v
    have hstart : Anchor.lineStart.holds s.next.passed := by
      rw [hnext]
      exact lineStart_of_lineBreak form s.passed
    refine ⟨by rw [hnext], ?_⟩
    by_cases hline : Anchor.lineStart.holds s.passed
    · right
      rw [blockLexemes_of_lineStart hline, blockLexemes_of_lineStart hstart, hnext, hreading, ahead,
        hlines]
      rfl
    · left
      rw [blockLexemes_of_within hline, blockLexemes_of_lineStart hstart, hnext, hreading, ahead,
        hlines]
      rfl
  | @stray c r ahead feed ret inside reading =>
    have hreading : s.reading = ⟨[⟨.plainText, [c]⟩], .stay⟩ := by
      rw [Station.reading, reading, ahead]
      rfl
    have hahead : s.ahead = [c] ++ r := ahead
    have hnext := next_of_append hreading hahead
    have hwithin : ¬ Anchor.lineStart.holds s.next.passed := by
      rw [hnext]
      exact Anchor.not_lineStart_append (List.cons_ne_nil c [])
        (fun h => feed (List.mem_singleton.1 h).symm) s.passed
    obtain ⟨l, ls, hls⟩ := exists_ofText r
    refine ⟨by rw [hnext], ?_⟩
    by_cases hline : Anchor.lineStart.holds s.passed
    · -- A carriage return that begins a line is read by itself, after an empty content.
      right
      obtain rfl := inside.resolve_right (not_not.2 hline)
      rw [blockLexemes_of_lineStart hline, blockLexemes_of_within hwithin, hnext, hreading, ahead,
        ofText_cons feed ret, hls, attach_eq]
      refine flatMap_lexemes_of_stop fun d hd => ?_
      exact (Option.some.inj hd).symm
    · left
      rw [blockLexemes_of_within hline, blockLexemes_of_within hwithin, hnext, hreading, ahead,
        ofText_cons feed ret, hls, attach_eq]
      rfl

theorem blockLexemes_of_unindented (h : s.AtUnindented) : s.blockLexemes = [] := by
  obtain ⟨hline, hunindented⟩ := h
  cases hahead : s.ahead with
  | nil =>
    rw [hahead] at hunindented
    cases hunindented
  | cons c r =>
    rw [hahead] at hunindented
    have hblank : (!isBlank c) = true := hunindented
    have hblank : isBlank c = false := by simpa using hblank
    have hends : ∀ d, isBlank d → c ≠ d := by
      rintro d hd rfl
      rw [hd] at hblank
      cases hblank
    have hret : c = '\r' → r.head? ≠ some '\n' := fun hc => absurd hc (hends '\r' rfl)
    obtain ⟨l, ls, hls⟩ := exists_ofText r
    have hfirst : ¬ isIndented ⟨c :: l.text, l.ending⟩ := by
      show ¬ isBlank c
      rw [hblank]
      exact Bool.false_ne_true
    rw [blockLexemes_of_lineStart hline, hahead, ofText_cons (hends '\n' rfl) hret, hls, attach_eq,
      block, List.takeWhile_cons_of_neg hfirst]
    rfl

theorem exists_passage_contents (hm : s.modes = ⟨.blockLiteral, top :: below⟩) :
    ∃ x : Station,
      (s.lexer []).Passage s.modes (Lexeme.layout (bytes s.passed) s.blockLexemes) (x.lexer []) ∧
      s.ahead = s.blockLexemes.flatMap Lexeme.text ++ x.ahead ∧ x.modes = s.modes ∧
      (x.ahead = [] ∨ x.AtUnindented) := by
  -- What the rest of the run gives stays what the lines say, round by round.
  induction s using run_induction with
  | last s h =>
    have hnothing : Lexeme.layout (bytes s.passed) s.blockLexemes = [] ∧
        s.blockLexemes.flatMap Lexeme.text = [] := by
      unfold blockLexemes
      rw [h]
      split
      · exact ⟨rfl, rfl⟩
      · exact ⟨rfl, rfl⟩
    rw [hnothing.1, hnothing.2]
    exact ⟨s, .refl _, rfl, rfl, .inl h⟩
  | round s h ih =>
    by_cases hstay : s.AtUnindented
    · rw [blockLexemes_of_unindented hstay]
      exact ⟨s, .refl _, rfl, rfl, .inr hstay⟩
    · have hdepth : 1 < s.modes.depth := by
        rw [hm]
        exact Nat.succ_lt_succ (Nat.succ_pos _)
      obtain ⟨hmodes, hstep⟩ := blockLexemes_step (blockTurn (by rw [hm]) h hdepth) hstay
      obtain ⟨x, hpassage, hahead, hx, hend⟩ := ih (hmodes.trans hm)
      have hround := passage_round h hmodes.symm hpassage
      rw [hmodes] at hround hx
      have htokens : s.tokens ++ Lexeme.layout (bytes s.next.passed) s.next.blockLexemes =
          Lexeme.layout (bytes s.passed) s.blockLexemes := by
        rw [bytes_passed_next, tokens, Reading.text, ← Lexeme.layout_append]
        rcases hstep with hstep | hstep
        · rw [hstep]
        · rw [hstep]
          rfl
      have htext : s.blockLexemes.flatMap Lexeme.text =
          s.reading.text ++ s.next.blockLexemes.flatMap Lexeme.text := by
        rw [Reading.text, ← List.flatMap_append]
        rcases hstep with hstep | hstep
        · rw [hstep]
        · rw [hstep]
          rfl
      rw [htokens] at hround
      refine ⟨x, hround, ?_, hx, hend⟩
      rw [htext, List.append_assoc, ← hahead, s.text_append_ahead]

theorem stop_of_blockOpening (h : s.ReadBy Rule.blockOpening) :
    ∀ c ∈ s.next.ahead.head?, isLineEnd c := by
  intro c hc
  have hfollow : endsLine s.next.ahead.head? := h.follow
  rw [hc] at hfollow
  exact hfollow

def AtLineEdge (s : Station) : Prop :=
  s.modes.top = .blockLiteral →
    Anchor.lineStart.holds s.passed ∨ ∀ c ∈ s.ahead.head?, isLineEnd c

section Paired

variable (hm : s.modes ∈ ModeStack.usual) (hpaired : Text.ReturnsPaired s.ahead)
  (hedge : s.AtLineEdge)

include hm hpaired hedge

theorem reading?_ne_none_of_lineEdge (hs : s.ahead ≠ []) (htop : s.modes.top = .blockLiteral) :
    s.reading? ≠ none := by
  intro h
  cases blockTurn htop hs (ModeStack.one_lt_depth_of_blockLiteral hm htop) with
  | line _ _ _ _ _ reading | lineBreak _ _ reading | leaving _ reading =>
    rw [reading] at h
    cases h
  | @stray c r ahead feed ret inside _ =>
    rw [ahead] at hpaired
    have hreturn : c ≠ '\r' := fun hc => ret hc (hpaired [] r (congrArg (· :: r) hc))
    have hend := (hedge htop).resolve_left (inside.resolve_left hreturn)
    rw [ahead] at hend
    exact (isLineEnd_iff.1 (hend c rfl)).elim hreturn feed

theorem atLineEdge_next (hs : s.ahead ≠ []) : s.next.AtLineEdge := by
  intro hnext
  by_cases htop : s.modes.top = .blockLiteral
  · have hread := reading?_ne_none_of_lineEdge hm hpaired hedge hs htop
    cases blockTurn htop hs (ModeStack.one_lt_depth_of_blockLiteral hm htop) with
    | line ahead _ _ _ stop reading =>
      right
      rw [next_of_append (reading_of_reading? reading) ahead]
      exact stop
    | lineBreak ahead form reading =>
      left
      rw [next_of_append (reading_of_reading? reading) ahead]
      exact lineStart_of_lineBreak form _
    | leaving _ reading =>
      have hmodes : s.next.modes = s.modes.change .pop := by
        rw [next, reading_of_reading? reading]
      rw [hmodes, ModeStack.eq_of_blockLiteral hm htop] at hnext
      cases hnext
    | stray _ _ _ _ reading => exact absurd reading hread
  · right
    have hopen : s.next.modes = ⟨.blockLiteral, s.modes.top :: s.modes.below⟩ := by
      cases turn hs hm with
      | still modes _ _ =>
        rw [modes] at hnext
        exact absurd hnext htop
      | openArguments _ there _ | closeArguments _ there _ =>
        rw [there] at hnext
        cases hnext
      | openQuotes _ there _ =>
        rw [there] at hnext
        cases hnext
      | closeQuotes _ there _ =>
        rcases there with there | there
        · rw [there] at hnext
          cases hnext
        · rw [there] at hnext
          cases hnext
      | openBlock here there _ _ _ =>
        rw [there, here]
      | leaveBlock here _ _ _ _ => exact absurd (by rw [here]) htop
    exact stop_of_blockOpening (readBy_blockOpening hs hopen).1

end Paired

theorem reading?_ne_none_of_mem_stations (hm : s.modes ∈ ModeStack.usual)
    (hpaired : Text.ReturnsPaired s.ahead) (hedge : s.AtLineEdge) :
    ∀ x ∈ s.stations, x.modes.top = .blockLiteral → x.reading? ≠ none := by
  induction s using run_induction with
  | last s h =>
    rw [stations_of_end h]
    exact List.forall_mem_nil _
  | round s h ih =>
    have hrest : Text.ReturnsPaired s.next.ahead := by
      have happend := s.text_append_ahead
      rw [← happend] at hpaired
      exact hpaired.of_append
    rw [stations_of_ahead h]
    refine List.forall_mem_cons.2 ⟨reading?_ne_none_of_lineEdge hm hpaired hedge h, ?_⟩
    exact ih (modes_next_mem_usual hm) hrest (atLineEdge_next hm hpaired hedge h)

end Station

theorem unmatched_not_mem_trace {source : List Char} (hpaired : Text.ReturnsPaired source)
    (c : Char) (pos : Nat) : Record.unmatched .blockLiteral c pos ∉ trace source := by
  rw [trace_eq, List.mem_filterMap]
  rintro ⟨x, hx, hrecord⟩
  have hstart : Station.AtLineEdge { ahead := source } := nofun
  have hread := Station.reading?_ne_none_of_mem_stations (s := { ahead := source })
    (List.mem_cons_self ..) hpaired hstart x hx
  rw [Station.record] at hrecord
  cases hr : x.reading? with
  | none =>
    rw [hr] at hrecord
    obtain ⟨d, -, hd⟩ := Option.map_eq_some_iff.1 hrecord
    exact hread (Record.unmatched.inj hd).1 hr
  | some reading =>
    rw [hr] at hrecord
    have hchange : Record.ofChange? x.modes reading.change (bytes x.passed + bytes reading.text) =
        some (.unmatched .blockLiteral c pos) := hrecord
    unfold Record.ofChange? at hchange
    split at hchange <;> cases hchange

open TextLine in
/-- The tokens of a block, after any round that has opened it. -/
theorem blockLiteral_contents {l : Lexer} {r : Lexer.Round} (h : l.round = .ok (some r))
    (hopen : r.lexer.modes = ⟨.blockLiteral, l.modes.top :: l.modes.below⟩) :
    ∃ v rest ts z, r.lexer.remaining = .ok v ∧ (∀ c ∈ v.head?, c = '\r' ∨ c = '\n') ∧
      (∀ line ∈ ofText v, line.Proper) ∧ v = (block (ofText v)).flatMap whole ++ rest ∧
      ts = r.lexer.pending ++
        Lexeme.layout r.lexer.pos ((block (ofText v)).flatMap TextLine.lexemes) ∧
      r.lexer.HandsOut ts z ∧ r.lexer.Passage r.lexer.modes ts z ∧
      z.modes = r.lexer.modes ∧ z.pending = [] ∧ z.remaining = .ok rest ∧
      (rest = [] ∨ ∃ r', z.round = .ok (some r') ∧ r'.lexer = { z with modes := l.modes }) ∧
      (Text.ReturnsPaired l.text →
        (∀ line ∈ block (ofText v), line.content = line.text) ∧
          ∀ c pos, Record.unmatched .blockLiteral c pos ∉ trace l.text) := by
  obtain ⟨s, hs, hl, rfl⟩ := Lexer.round_eq_some h
  have hmodes : l.modes = s.modes := by rw [hl]; rfl
  have htext : l.text = s.passed.reverse ++ s.ahead := by rw [hl]; rfl
  rw [hmodes] at hopen ⊢
  obtain ⟨hopening, -⟩ := Station.readBy_blockOpening hs hopen
  have hstop := Station.stop_of_blockOpening hopening
  obtain ⟨-, hstart⟩ := Station.not_lineStart_of_blockOpening hopening
  obtain ⟨x, hpassage, hahead, hx, hend⟩ := Station.exists_passage_contents (s := s.next) hopen
  have hpassage := Station.passage_pending (l.pending ++ s.tokens) hpassage
  -- The rest of the line of the mark is read as if a line with nothing in it began there.
  have hlexemes : (block (ofText s.next.ahead)).flatMap TextLine.lexemes =
      ⟨.string, []⟩ :: s.next.blockLexemes := by
    obtain ⟨l, ls, hls⟩ := exists_ofText s.next.ahead
    rw [Station.blockLexemes_of_within hstart, hls]
    exact flatMap_lexemes_of_stop (stop_of_ofText hls hstop)
  have hlayout : Lexeme.layout (bytes s.next.passed) s.next.blockLexemes =
      Lexeme.layout (bytes s.next.passed)
        ((block (ofText s.next.ahead)).flatMap TextLine.lexemes) := by
    rw [hlexemes]
    rfl
  have hwhole : s.next.blockLexemes.flatMap Lexeme.text =
      (block (ofText s.next.ahead)).flatMap whole := by
    have htexts := flatMap_text_lexemes (block (ofText s.next.ahead))
    rw [hlexemes] at htexts
    exact htexts
  rw [hlayout] at hpassage
  rw [hwhole] at hahead
  have hhands := hpassage.handsOut rfl fun _ => hx
  refine ⟨s.next.ahead, x.ahead, _, x.lexer [], rfl, fun c hc => isLineEnd_iff.1 (hstop c hc),
    proper_of_mem _, hahead, rfl, hhands, hpassage, hx, rfl, rfl,
    hend.imp_right fun hunindented => ?_, fun hpaired => ⟨?_, unmatched_not_mem_trace hpaired⟩⟩
  · obtain ⟨hne, htokens, hnext⟩ := Station.leave_block (hx.trans hopen) hunindented
    refine ⟨_, Station.round_lexer [] hne, ?_⟩
    rw [htokens, hnext]
    rfl
  · intro line hline
    rw [htext, ← s.passed_append_ahead_next] at hpaired
    have hmem := (List.takeWhile_sublist _).subset hline
    refine List.takeWhile_eq_self_iff.2 fun c hc => decide_eq_true ?_
    rintro rfl
    exact return_not_mem hpaired.of_append line hmem hc

theorem blockLiteral_contents_return :
    let source := ['|', '\r', 'a', '\r', '\n', '\t', 'b', '\n', 'c']
    let ts : List Token :=
      [⟨.punctuation, ['|'], ⟨0, 1⟩⟩, ⟨.plainText, ['\r'], ⟨1, 2⟩⟩, ⟨.plainText, ['a'], ⟨2, 3⟩⟩,
        ⟨.plainText, ['\r', '\n'], ⟨3, 5⟩⟩, ⟨.string, ['\t', 'b'], ⟨5, 7⟩⟩,
        ⟨.plainText, ['\n'], ⟨7, 8⟩⟩]
    ∃ r z, (Lexer.ofText source).round = .ok (some r) ∧ r.lexer.HandsOut ts z ∧
      r.lexer.Passage ⟨.blockLiteral, [.root]⟩ ts z ∧
      z.modes = ⟨.blockLiteral, [.root]⟩ ∧ z.remaining = .ok ['c'] ∧
      ∃ r', z.round = .ok (some r') ∧ r'.lexer = { z with modes := {} } := by
  intro source ts
  let s : Station := { ahead := source }
  let x : Station :=
    ⟨⟨.blockLiteral, [.root]⟩, ['|'], ['\r', 'a', '\r', '\n', '\t', 'b', '\n', 'c']⟩
  have hround : (Lexer.ofText source).round = .ok (some ⟨s.next.lexer s.tokens, s.record⟩) :=
    Station.round_lexer (s := s) [] (List.cons_ne_nil _ _)
  have hnext : s.next = x := by decide +kernel
  have htokens : s.tokens = [⟨.punctuation, ['|'], ⟨0, 1⟩⟩] := by decide +kernel
  rw [hnext, htokens] at hround
  obtain ⟨v, rest, us, z, hv, -, -, hsplit, hus, hhands, hpassage, hmodes, -, hrest, hend, -⟩ :=
    blockLiteral_contents hround rfl
  obtain rfl : x.ahead = v := Except.ok.inj hv
  have hahead : x.ahead =
      (TextLine.block (TextLine.ofText x.ahead)).flatMap TextLine.whole ++ ['c'] := by
    decide +kernel
  obtain rfl : ['c'] = rest := List.append_cancel_left (hahead.symm.trans hsplit)
  have hlayout : [⟨.punctuation, ['|'], ⟨0, 1⟩⟩] ++ Lexeme.layout 1
      ((TextLine.block (TextLine.ofText x.ahead)).flatMap TextLine.lexemes) = ts := by
    decide +kernel
  obtain rfl : us = ts := hus.trans hlayout
  exact ⟨_, z, hround, hhands, hpassage, hmodes, hrest, hend.resolve_left (List.cons_ne_nil _ _)⟩

end Tony
