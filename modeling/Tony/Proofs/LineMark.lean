import Tony.Proofs.Coverage
import Tony.Proofs.MarkReading
import Tony.Proofs.Scope

/-!
Marks that have a line of their own to stand on: merge keys, document separators and block marks.
Main statement: tokens of these forms are such marks, and where a document is read, every such mark
is a token, unless a text in quotes or a reference runs over it from an earlier line.
-/

namespace Tony

open Pattern
open Text (bytes)
open Unicode (isBlank)

/-- A mark of a kind at a byte of the text. Before it there are only spaces and tabs on its line, and
before a separator not even these. After a separator or a block mark the line ends, which spaces and
tabs may put off. They are part of the separator. -/
inductive LineMark (source : List Char) : Nat → Kind → List Char → Prop
  | mergeKey {u w v : List Char} (line : ∀ c ∈ u.getLast?, c = '\n')
      (indent : ∀ c ∈ w, c = ' ' ∨ c = '\t') (text : source = u ++ (w ++ ('<' :: '<' :: ':' :: v))) :
      LineMark source (bytes (u ++ w)) .operator ['<', '<', ':']
  | separator {u w v : List Char} (line : ∀ c ∈ u.getLast?, c = '\n')
      (blanks : ∀ c ∈ w, c = ' ' ∨ c = '\t') (stop : ∀ c ∈ v.head?, c = '\r' ∨ c = '\n')
      (text : source = u ++ ('-' :: '-' :: '-' :: w ++ v)) :
      LineMark source (bytes u) .commentSpecial ('-' :: '-' :: '-' :: w)
  | block {u w mark x v : List Char} (line : ∀ c ∈ u.getLast?, c = '\n')
      (indent : ∀ c ∈ w, c = ' ' ∨ c = '\t') (form : mark ∈ [['|'], ['|', '+'], ['|', '-']])
      (blanks : ∀ c ∈ x, c = ' ' ∨ c = '\t') (stop : ∀ c ∈ v.head?, c = '\r' ∨ c = '\n')
      (text : source = u ++ (w ++ (mark ++ (x ++ v)))) :
      LineMark source (bytes (u ++ w)) .punctuation mark

def Kind.LineMark : Kind → Form
  | .operator, _ => True
  | .commentSpecial, s => ['-', '-', '-'] <+: s
  | .punctuation, s => s.head? = some '|'
  | _, _ => False

/-- A text in quotes or a reference that has begun in a line before the one that byte `q` is in. -/
def Token.RunsOver (t : Token) (q : Nat) : Prop :=
  (t.kind = .string ∨ t.kind = .variableName) ∧
    ∃ a b, t.value = a ++ '\n' :: b ∧ t.span.start + bytes a < q

theorem Kind.LineMark.landmark {kind : Kind} {s : List Char} (h : kind.LineMark s) :
    kind.Landmark s := by
  cases kind
  case operator | commentSpecial | punctuation => exact h
  all_goals exact h.elim

theorem LineMark.lt_bytes {source : List Char} {q : Nat} {kind : Kind} {mark : List Char}
    (h : LineMark source q kind mark) : q < bytes source := by
  cases h with
  | mergeKey _ _ text =>
    rw [text, ← List.append_assoc]
    exact Text.bytes_lt_append_cons _ _ _
  | separator _ _ _ text =>
    rw [text]
    exact Text.bytes_lt_append_cons _ _ _
  | block _ _ form _ _ text =>
    obtain ⟨r, rfl⟩ := exists_bar_of_mem form
    rw [text, ← List.append_assoc]
    exact Text.bytes_lt_append_cons _ _ _

namespace Anchor

theorem holds_lineStart_iff {p : List Char} :
    lineStart.holds p ↔ ∀ c ∈ p.reverse.getLast?, c = '\n' := by
  rw [List.getLast?_reverse]
  cases p with
  | nil => simp [holds, atLineStart]
  | cons c p => simp [holds, atLineStart]

theorem holds_afterIndent_of_lineStart {p : List Char} (h : lineStart.holds p) :
    afterIndent.holds p := by
  cases p with
  | nil => rfl
  | cons c p =>
    obtain rfl : c = '\n' := of_decide_eq_true h
    rfl

theorem holds_afterIndent_append {w : List Char} (hw : ∀ c ∈ w, c = ' ' ∨ c = '\t')
    (u : List Char) : afterIndent.holds (u ++ w).reverse = afterIndent.holds u.reverse := by
  have hindent : ∀ c ∈ w.reverse, isIndent c :=
    fun c hc => isIndent_iff.2 (hw c (List.mem_reverse.1 hc))
  rw [List.reverse_append, holds, List.dropWhile_append_of_pos hindent, holds]

theorem holds_afterIndent_iff {p : List Char} :
    afterIndent.holds p ↔
      ∃ u w, p.reverse = u ++ w ∧ (∀ c ∈ u.getLast?, c = '\n') ∧ ∀ c ∈ w, c = ' ' ∨ c = '\t' := by
  constructor
  · intro h
    have hline : lineStart.holds (p.dropWhile isIndent) := h
    have hp : p.reverse = (p.dropWhile isIndent).reverse ++ (p.takeWhile isIndent).reverse := by
      rw [← List.reverse_append, List.takeWhile_append_dropWhile]
    refine ⟨_, _, hp, holds_lineStart_iff.1 hline, fun c hc => ?_⟩
    exact isIndent_iff.1 (List.all_eq_true.1 List.all_takeWhile c (List.mem_reverse.1 hc))
  · rintro ⟨u, w, hp, hline, hw⟩
    have hstart : lineStart.holds u.reverse :=
      holds_lineStart_iff.2 (by rwa [List.reverse_reverse])
    rw [← List.reverse_reverse p, hp, holds_afterIndent_append hw]
    exact holds_afterIndent_of_lineStart hstart

theorem exists_indent_of_afterIndent {p a : List Char} (h : afterIndent.holds p)
    (ha : ∀ c ∈ a, c = ' ' ∨ c = '\t') :
    ∃ u w, p.reverse ++ a = u ++ w ∧ (∀ c ∈ u.getLast?, c = '\n') ∧ ∀ c ∈ w, c = ' ' ∨ c = '\t' := by
  obtain ⟨u, w, hp, hline, hw⟩ := holds_afterIndent_iff.1 h
  refine ⟨u, w ++ a, by rw [hp, List.append_assoc], hline, fun c hc => ?_⟩
  exact (List.mem_append.1 hc).elim (hw c) (ha c)

end Anchor

namespace Station

theorem stop_of_endsLine {v : List Char} (h : endsLine v.head?) :
    ∀ c ∈ v.head?, c = '\r' ∨ c = '\n' := by
  intro c hc
  rw [hc] at h
  exact isLineEnd_iff.1 h

section Sound

variable {s : Station} {t : Token}

theorem lineMark_of_separator (h : s.ReadBy Rule.separator) (ht : t ∈ s.tokens) :
    LineMark (s.passed.reverse ++ s.ahead) t.span.start t.kind t.value := by
  obtain ⟨n, ms, hn, hms, hls⟩ := Rule.exists_of_lexemes?_cons h.lexemes
  obtain ⟨rfl, hrest⟩ := Prod.mk.inj (Option.some.inj hms)
  obtain ⟨w, hw, htake⟩ := takes_separator s.ahead n hn
  rw [tokens, hls, htake, Lexeme.mem_layout_cons_iff] at ht
  rcases ht with ⟨-, rfl⟩ | ht
  · have htext : s.ahead = '-' :: '-' :: '-' :: w ++ s.next.ahead := by
      rw [← htake, ← hrest, List.take_append_drop]
    have hmark := LineMark.separator (Anchor.holds_lineStart_iff.1 h.anchor)
      hw (stop_of_endsLine h.follow)
      (congrArg (s.passed.reverse ++ ·) htext)
    rwa [Text.bytes_reverse] at hmark
  · cases ht

theorem ReadBy.exists_indent {rule : Rule} {kind : Kind} {p : Pattern} {F : Form}
    {parts : List (Kind × Pattern)} (h : s.ReadBy rule) (hanchor : rule.anchor = .afterIndent)
    (hparts : rule.parts = (.plainText, indent) :: (kind, p) :: parts) (hp : p.Takes F) :
    ∃ a mark rest ms u w, F mark ∧
      s.reading.lexemes = ⟨.plainText, a⟩ :: ⟨kind, mark⟩ :: ms ∧
      Rule.lexemes? parts rest = some (ms, s.next.ahead) ∧
      s.passed.reverse ++ s.ahead = u ++ (w ++ (mark ++ rest)) ∧
      bytes (u ++ w) = bytes s.passed + bytes a ∧
      (∀ c ∈ u.getLast?, c = '\n') ∧ ∀ c ∈ w, c = ' ' ∨ c = '\t' := by
  have hlexemes := h.lexemes
  have hafter := h.anchor
  rw [hparts] at hlexemes
  rw [hanchor] at hafter
  obtain ⟨n, ms, hn, hms, hls⟩ := Rule.exists_of_lexemes?_cons hlexemes
  obtain ⟨m, ns, hm, hns, rfl⟩ := Rule.exists_of_lexemes?_cons hms
  obtain ⟨u, w, hplace, hline, hw⟩ :=
    Anchor.exists_indent_of_afterIndent hafter (takes_indent s.ahead n hn)
  refine ⟨_, _, _, ns, u, w, hp _ m hm, hls, hns, ?_, ?_, hline, hw⟩
  · calc s.passed.reverse ++ s.ahead
        = s.passed.reverse ++ s.ahead.take n ++ s.ahead.drop n := by
          rw [List.append_assoc, List.take_append_drop]
      _ = u ++ (w ++ ((s.ahead.drop n).take m ++ (s.ahead.drop n).drop m)) := by
          rw [hplace, List.append_assoc, List.take_append_drop]
  · rw [← hplace, Text.bytes_append, Text.bytes_reverse]

theorem lineMark_of_mergeKey (h : s.ReadBy Rule.mergeKey) (ht : t ∈ s.tokens)
    (hkind : t.kind.LineMark t.value) :
    LineMark (s.passed.reverse ++ s.ahead) t.span.start t.kind t.value := by
  obtain ⟨a, mark, rest, ms, u, w, rfl, hls, hms, htext, hbytes, hline, hw⟩ :=
    h.exists_indent rfl rfl (takes_literal "<<:")
  obtain ⟨rfl, -⟩ := Prod.mk.inj (Option.some.inj hms)
  rw [tokens, hls, Lexeme.mem_layout_cons_iff, Lexeme.mem_layout_cons_iff] at ht
  rcases ht with ⟨-, rfl⟩ | ⟨-, rfl⟩ | ht
  · exact hkind.elim
  · have hmark := LineMark.mergeKey hline hw htext
    rwa [hbytes] at hmark
  · cases ht

theorem lineMark_of_blockOpening (h : s.ReadBy Rule.blockOpening) (ht : t ∈ s.tokens)
    (hkind : t.kind.LineMark t.value) :
    LineMark (s.passed.reverse ++ s.ahead) t.span.start t.kind t.value := by
  obtain ⟨a, mark, rest, ms, u, w, hform, hls, hms, htext, hbytes, hline, hw⟩ :=
    h.exists_indent rfl rfl takes_blockMark
  obtain ⟨k, ns, hk, hns, rfl⟩ := Rule.exists_of_lexemes?_cons hms
  obtain ⟨rfl, hrest⟩ := Prod.mk.inj (Option.some.inj hns)
  rw [tokens, hls, Lexeme.mem_layout_cons_iff, Lexeme.mem_layout_cons_iff,
    Lexeme.mem_layout_cons_iff] at ht
  rcases ht with ⟨-, rfl⟩ | ⟨-, rfl⟩ | ⟨-, rfl⟩ | ht
  · exact hkind.elim
  · rw [← List.take_append_drop k rest, hrest] at htext
    have hmark := LineMark.block hline hw hform (takes_indent rest k hk)
      (stop_of_endsLine h.follow) htext
    rwa [hbytes] at hmark
  · exact hkind.elim
  · cases ht

theorem not_lineMark_of_kind {rule : Rule} (h : s.ReadBy rule) (ht : t ∈ s.tokens)
    (hrule : ∀ part ∈ rule.parts, ∀ v, ¬ part.1.LineMark v) : ¬ t.kind.LineMark t.value := by
  obtain ⟨l, hl, -, hk, hv⟩ := Lexeme.exists_of_mem_layout ht
  have hlexemes := h.forall_lexemes (F := fun kind v => ¬ kind.LineMark v)
    fun part hpart s n _ => hrule part hpart (s.take n)
  rw [hk, hv]
  exact hlexemes l hl

theorem lineMark_of_mem_tokens (hs : s.ahead ≠ []) (ht : t ∈ s.tokens)
    (hkind : t.kind.LineMark t.value) :
    LineMark (s.passed.reverse ++ s.ahead) t.span.start t.kind t.value := by
  rcases telling_or_isQuiet hs with ⟨rule, htelling, h⟩ | hquiet
  · have hnot := not_lineMark_of_kind h ht
    generalize s.modes.top = mode at htelling
    cases htelling with
    | separator => exact lineMark_of_separator h ht
    | mergeKey => exact lineMark_of_mergeKey h ht hkind
    | blockOpening => exact lineMark_of_blockOpening h ht hkind
    | argumentsOpening | quoteOpening | argumentsClosing | quoteClosing | blockLeaving =>
      exact absurd hkind (hnot (List.forall_mem_singleton.2 fun _ => id))
  · obtain ⟨l, hl, -, hk, hv⟩ := Lexeme.exists_of_mem_layout ht
    rw [hk, hv] at hkind
    exact absurd hkind.landmark (hquiet.no_landmark l hl)

end Sound

end Station

namespace Station

section Covering

variable {s : Station} {t : Token}

theorem reading_of_root (hs : s.ahead ≠ []) (hm : s.modes.top = .root) :
    '\n' ∉ s.reading.text ∨ (∀ c ∈ s.reading.text.tail, isBlank c) ∨
      ∃ kind, (kind = .string ∨ kind = .variableName) ∧
        s.reading.lexemes = [⟨kind, s.reading.text⟩] := by
  rcases readBy_or_leftAlone hs with ⟨rule, h⟩ | ⟨c, h⟩
  · have hscope := Rule.scope_of_mem h.mem
    rw [hm] at hscope
    cases hscope with
    | line stops _ =>
      left
      have hlexemes := h.forall_lexemes (F := fun _ s => '\n' ∉ s)
        fun part hpart => (stops '\n' rfl part hpart).takes
      intro hmem
      obtain ⟨l, hl, hmem⟩ := List.mem_flatMap.1 hmem
      exact hlexemes l hl hmem
    | specialComment =>
      left
      obtain ⟨-, ⟨r, htext, hr⟩, -⟩ := h.lexemes_of_parts rfl (takes_comment.passing hasMarker)
      rw [htext, List.mem_cons, not_or]
      exact ⟨by decide, hr⟩
    | comment =>
      left
      obtain ⟨-, r, htext, hr⟩ := h.lexemes_of_parts rfl takes_comment
      rw [htext, List.mem_cons, not_or]
      exact ⟨by decide, hr⟩
    | blanks =>
      right; left
      obtain ⟨-, -, hblank⟩ := h.lexemes_of_parts rfl (takes_run1 isBlank)
      exact fun c hc => hblank c (List.mem_of_mem_tail hc)
    | mark =>
      right; left
      obtain ⟨n, ms, hn, hms, hls⟩ := Rule.exists_of_lexemes?_cons h.lexemes
      obtain ⟨m, ns, hblanks, hns, rfl⟩ := Rule.exists_of_lexemes?_cons hms
      obtain ⟨rfl, -⟩ := Prod.mk.inj (Option.some.inj hns)
      obtain ⟨c, -, hmark⟩ := takes_one _ s.ahead n hn
      obtain ⟨-, hall⟩ := takes_run1 isBlank _ m hblanks
      rw [Reading.text, hls, hmark]
      simpa using hall
    | dollar _ =>
      right; right
      exact ⟨.variableName, .inr rfl, (h.lexemes_of_parts rfl (takes_reference "$")).1⟩
    | dot =>
      right; right
      exact ⟨.variableName, .inr rfl, (h.lexemes_of_parts rfl (takes_reference ".")).1⟩
    | quoted _ =>
      right; right
      exact ⟨.string, .inl rfl, (h.lexemes_of_parts rfl takes_quoted).1⟩
  · right; left
    rw [Reading.text, h.reading_eq]
    exact List.forall_mem_nil _

theorem runsOver_of_lineFeed {a w v : List Char} {d : Char} (hm : s.modes.top = .root)
    (hahead : s.ahead = a ++ '\n' :: w ++ d :: v) (hd : isBlank d = false) (ht : t ∈ s.tokens)
    (hstop : bytes s.passed + bytes (a ++ '\n' :: w) < t.span.stop) :
    t.RunsOver (bytes s.passed + bytes (a ++ '\n' :: w)) := by
  have hs : s.ahead ≠ [] := by
    rw [hahead]
    simp
  -- What is read goes beyond the blanks, so the mark begins in it.
  obtain ⟨b, htext⟩ : ∃ b, s.reading.text = a ++ '\n' :: w ++ d :: b := by
    have hbounds := (Lexeme.tiles_layout (bytes s.passed) s.reading.lexemes).bounds_of_mem t ht
    have hlen : bytes (a ++ '\n' :: w) < bytes s.reading.text := by
      rw [Reading.text]
      omega
    have htext := s.text_append_ahead
    rw [hahead] at htext
    obtain ⟨e, he, hrest⟩ := Text.exists_append_of_bytes_le htext.symm (Nat.le_of_lt hlen)
    cases e with
    | nil =>
      rw [he, List.append_nil] at hlen
      exact absurd hlen (Nat.lt_irrefl _)
    | cons c e =>
      obtain ⟨rfl, -⟩ := List.cons.inj hrest
      exact ⟨e, he⟩
  have hfeed : '\n' ∈ s.reading.text := by
    rw [htext]
    simp
  have hmark : d ∈ s.reading.text.tail := by
    rw [htext]
    cases a <;> simp
  rcases reading_of_root hs hm with hnone | hblank | ⟨kind, hkind, hls⟩
  · exact absurd hfeed hnone
  · have hb := hblank d hmark
    rw [hd] at hb
    cases hb
  · rw [tokens, hls, Lexeme.mem_layout_cons_iff] at ht
    rcases ht with ⟨-, rfl⟩ | ht
    · refine ⟨hkind, a, w ++ d :: b, ?_, ?_⟩
      · rw [htext, List.append_assoc]
        rfl
      · exact Nat.add_lt_add_left (Text.bytes_lt_append_cons a '\n' w) (bytes s.passed)
    · cases ht

theorem eq_of_mem_layout {offset q : Nat} {before after : List Lexeme} {l : Lexeme}
    (ht : t ∈ Lexeme.layout offset (before ++ l :: after)) (hl : l.text ≠ [])
    (hq : offset + bytes (before.flatMap Lexeme.text) = q) (hstart : t.span.start ≤ q)
    (hstop : q < t.span.stop) : t = ⟨l.kind, l.text, ⟨q, q + bytes l.text⟩⟩ := by
  rw [Lexeme.layout_append, hq, List.mem_append] at ht
  rcases ht with ht | ht
  · have hbounds := (Lexeme.tiles_layout offset before).bounds_of_mem t ht
    omega
  · rcases Lexeme.mem_layout_cons_iff.1 ht with ⟨-, rfl⟩ | ht
    · rfl
    · have hbounds := (Lexeme.tiles_layout (q + bytes l.text) after).bounds_of_mem t ht
      have hpos := mt Text.bytes_eq_zero_iff.1 hl
      omega

theorem runsOver_or_among {u w v : List Char} {d : Char} (hm : s.modes.top = .root)
    (htext : s.passed.reverse ++ s.ahead = u ++ (w ++ d :: v)) (hline : ∀ c ∈ u.getLast?, c = '\n')
    (hd : isBlank d = false) (ht : t ∈ s.tokens) (hstart : t.span.start ≤ bytes (u ++ w))
    (hstop : bytes (u ++ w) < t.span.stop) :
    t.RunsOver (bytes (u ++ w)) ∨
      ∃ x y, w = x ++ y ∧ s.passed.reverse = u ++ x ∧ s.ahead = y ++ d :: v ∧
        bytes s.passed + bytes y = bytes (u ++ w) := by
  rcases List.append_eq_append_iff.1 htext with ⟨a, rfl, hahead⟩ | ⟨x, hpassed, hrest⟩
  · rcases List.eq_nil_or_concat a with rfl | ⟨a, c, rfl⟩
    · right
      exact ⟨[], w, rfl, by simp, hahead, by simp⟩
    · left
      rw [List.concat_eq_append] at hahead hline hstop ⊢
      obtain rfl : c = '\n' := hline c (by simp)
      have hq : bytes (s.passed.reverse ++ (a ++ ['\n']) ++ w) =
          bytes s.passed + bytes (a ++ '\n' :: w) := by
        rw [List.append_assoc, List.append_assoc, Text.bytes_append, Text.bytes_reverse]
        rfl
      have hahead : s.ahead = a ++ '\n' :: w ++ d :: v := by
        rw [hahead]
        simp
      rw [hq] at hstop ⊢
      exact runsOver_of_lineFeed hm hahead hd ht hstop
  · right
    have hq : bytes s.passed = bytes u + bytes x := by
      rw [← Text.bytes_reverse, hpassed, Text.bytes_append]
    have hle : bytes x ≤ bytes w := by
      have hbounds := (Lexeme.tiles_layout (bytes s.passed) s.reading.lexemes).bounds_of_mem t ht
      rw [Text.bytes_append] at hstart
      omega
    obtain ⟨y, rfl, hahead⟩ := Text.exists_append_of_bytes_le hrest.symm hle
    refine ⟨x, y, rfl, hpassed, hahead, ?_⟩
    rw [hq, Text.bytes_append, Text.bytes_append, Nat.add_assoc]

section Forms

variable {u w v : List Char} (hm : s.modes.top = .root) (line : ∀ c ∈ u.getLast?, c = '\n')
  (ht : t ∈ s.tokens)

include hm line ht

theorem token_of_mergeKey (indent : ∀ c ∈ w, c = ' ' ∨ c = '\t')
    (text : s.passed.reverse ++ s.ahead = u ++ (w ++ '<' :: '<' :: ':' :: v))
    (hstart : t.span.start ≤ bytes (u ++ w)) (hstop : bytes (u ++ w) < t.span.stop) :
    t = ⟨.operator, ['<', '<', ':'], ⟨bytes (u ++ w), bytes (u ++ w) + 3⟩⟩ ∨
      t.RunsOver (bytes (u ++ w)) := by
  rcases runsOver_or_among hm text line rfl ht hstart hstop with
    hover | ⟨x, y, rfl, hpassed, hahead, hq⟩
  · exact .inr hover
  · left
    have hx : ∀ c ∈ x, c = ' ' ∨ c = '\t' := fun c hc => indent c (List.mem_append_left y hc)
    have hy : ∀ c ∈ y, c = ' ' ∨ c = '\t' := fun c hc => indent c (List.mem_append_right x hc)
    have hanchor := Anchor.holds_afterIndent_iff.2 ⟨u, x, hpassed, line, hx⟩
    have ht : t ∈ Lexeme.layout (bytes s.passed)
        ([⟨.plainText, y⟩] ++ [⟨.operator, ['<', '<', ':']⟩]) := by
      rwa [tokens, reading_of_mergeKey hm hanchor hy hahead] at ht
    exact eq_of_mem_layout ht (List.cons_ne_nil _ _) (by simpa using hq) hstart hstop

theorem token_of_separator (blanks : ∀ c ∈ w, c = ' ' ∨ c = '\t')
    (stop : ∀ c ∈ v.head?, c = '\r' ∨ c = '\n')
    (text : s.passed.reverse ++ s.ahead = u ++ ('-' :: '-' :: '-' :: w ++ v))
    (hstart : t.span.start ≤ bytes u) (hstop : bytes u < t.span.stop) :
    t = ⟨.commentSpecial, '-' :: '-' :: '-' :: w,
        ⟨bytes u, bytes u + bytes ('-' :: '-' :: '-' :: w)⟩⟩ ∨ t.RunsOver (bytes u) := by
  have hu : bytes u = bytes (u ++ []) := by rw [List.append_nil]
  rw [hu] at hstart hstop ⊢
  rcases runsOver_or_among hm text line rfl ht hstart hstop with
    hover | ⟨x, y, hxy, hpassed, hahead, hq⟩
  · exact .inr hover
  · left
    obtain ⟨rfl, rfl⟩ := List.append_eq_nil_iff.1 hxy.symm
    rw [List.append_nil] at hpassed
    have hline := Anchor.holds_lineStart_iff.2 (hpassed ▸ line)
    have ht : t ∈ Lexeme.layout (bytes s.passed)
        ([] ++ [⟨.commentSpecial, '-' :: '-' :: '-' :: w⟩]) := by
      rwa [tokens, reading_of_separator hm hline blanks stop hahead] at ht
    exact eq_of_mem_layout ht (List.cons_ne_nil _ _) hq hstart hstop

theorem token_of_blockMark {mark b : List Char} (indent : ∀ c ∈ w, c = ' ' ∨ c = '\t')
    (form : mark ∈ [['|'], ['|', '+'], ['|', '-']]) (blanks : ∀ c ∈ b, c = ' ' ∨ c = '\t')
    (stop : ∀ c ∈ v.head?, c = '\r' ∨ c = '\n')
    (text : s.passed.reverse ++ s.ahead = u ++ (w ++ (mark ++ (b ++ v))))
    (hstart : t.span.start ≤ bytes (u ++ w)) (hstop : bytes (u ++ w) < t.span.stop) :
    t = ⟨.punctuation, mark, ⟨bytes (u ++ w), bytes (u ++ w) + bytes mark⟩⟩ ∨
      t.RunsOver (bytes (u ++ w)) := by
  obtain ⟨r, hbar⟩ := exists_bar_of_mem form
  rw [hbar, List.cons_append] at text
  rcases runsOver_or_among hm text line rfl ht hstart hstop with
    hover | ⟨x, y, rfl, hpassed, hahead, hq⟩
  · exact .inr hover
  · left
    have hx : ∀ c ∈ x, c = ' ' ∨ c = '\t' := fun c hc => indent c (List.mem_append_left y hc)
    have hy : ∀ c ∈ y, c = ' ' ∨ c = '\t' := fun c hc => indent c (List.mem_append_right x hc)
    have hanchor := Anchor.holds_afterIndent_iff.2 ⟨u, x, hpassed, line, hx⟩
    rw [← List.cons_append, ← hbar] at hahead
    have ht : t ∈ Lexeme.layout (bytes s.passed)
        ([⟨.plainText, y⟩] ++ [⟨.punctuation, mark⟩, ⟨.plainText, b⟩]) := by
      rwa [tokens, reading_of_blockMark hm hanchor hy form blanks stop hahead] at ht
    exact eq_of_mem_layout ht (by rw [hbar]; exact List.cons_ne_nil _ _) (by simpa using hq) hstart
      hstop

end Forms

theorem token_of_lineMark {q : Nat} {kind : Kind} {mark : List Char}
    (h : LineMark (s.passed.reverse ++ s.ahead) q kind mark) (hm : s.modes.top = .root)
    (ht : t ∈ s.tokens) (hstart : t.span.start ≤ q) (hstop : q < t.span.stop) :
    t = ⟨kind, mark, ⟨q, q + bytes mark⟩⟩ ∨ t.RunsOver q := by
  cases h with
  | mergeKey line indent text => exact token_of_mergeKey hm line ht indent text hstart hstop
  | separator line blanks stop text =>
    exact token_of_separator hm line ht blanks stop text hstart hstop
  | block line indent form blanks stop text =>
    exact token_of_blockMark hm line ht indent form blanks stop text hstart hstop

end Covering

end Station

/-- The token is taken in a round of the run over a text that has the mode on top. -/
def Token.ReadIn (source : List Char) (mode : Mode) (t : Token) : Prop :=
  ∃ s ∈ Station.stations { ahead := source }, s.modes.top = mode ∧ t ∈ s.tokens

theorem mem_tokenize_iff_readIn {source : List Char} {t : Token} :
    t ∈ tokenize source ↔ ∃ mode, t.ReadIn source mode := by
  rw [tokenize_eq, List.mem_flatMap]
  constructor
  · rintro ⟨s, hs, ht⟩
    exact ⟨s.modes.top, s, hs, rfl, ht⟩
  · rintro ⟨mode, s, hs, -, ht⟩
    exact ⟨s, hs, ht⟩

/-- Tokens of the forms of line marks stand where these marks do. A line mark, on the other hand, is
covered by a token, and in a document this is the mark, unless a text in quotes or a reference runs
over it. -/
theorem lineMark_tokens (source : List Char) :
    (∀ t : Token, t ∈ tokenize source ↔ ∃ mode, t.ReadIn source mode) ∧
    (∀ t ∈ tokenize source, t.kind.LineMark t.value →
      LineMark source t.span.start t.kind t.value) ∧
    ∀ (q : Nat) (kind : Kind) (mark : List Char), LineMark source q kind mark →
      (∃ (mode : Mode) (t : Token), t.ReadIn source mode ∧ t.Covers q) ∧
      ∀ t : Token, t.ReadIn source .root → t.Covers q →
        t = ⟨kind, mark, ⟨q, q + bytes mark⟩⟩ ∨ t.RunsOver q := by
  refine ⟨fun t => mem_tokenize_iff_readIn, ?_, ?_⟩
  · intro t ht hkind
    obtain ⟨mode, s, hs, -, ht⟩ := mem_tokenize_iff_readIn.1 ht
    have hahead := Station.ahead_ne_nil_of_mem_stations hs
    have hmark := Station.lineMark_of_mem_tokens hahead ht hkind
    rwa [Station.text_of_mem_stations hs] at hmark
  · intro q kind mark hmark
    constructor
    · have htiles := Station.tiles_stations { ahead := source }
      rw [← tokenize_eq, Text.bytes_nil, Nat.zero_add] at htiles
      obtain ⟨t, ht, hcovers⟩ := htiles.exists_covers (Nat.zero_le q) hmark.lt_bytes
      obtain ⟨mode, hread⟩ := mem_tokenize_iff_readIn.1 ht
      exact ⟨mode, t, hread, hcovers⟩
    · rintro t ⟨s, hs, hm, ht⟩ ⟨hstart, hstop⟩
      have htext : source = s.passed.reverse ++ s.ahead := (Station.text_of_mem_stations hs).symm
      rw [htext] at hmark
      exact Station.token_of_lineMark hmark hm ht hstart hstop

theorem lineMark_tokens_quoted :
    let source := ['\'', '\n', '-', '-', '-', '\n', '\'', '\n', ' ', '|', '-']
    let t : Token := ⟨.string, ['\'', '\n', '-', '-', '-', '\n', '\''], ⟨0, 7⟩⟩
    t ∈ tokenize source ∧ t.RunsOver 2 ∧ LineMark source 9 .punctuation ['|', '-'] := by
  intro source t
  have hseparator : LineMark source 2 .commentSpecial ['-', '-', '-'] :=
    .separator (u := ['\'', '\n']) (w := []) (v := ['\n', '\'', '\n', ' ', '|', '-']) (by simp)
      (by simp) (by simp) rfl
  have hread : t.ReadIn source .root := by
    unfold Token.ReadIn
    decide +kernel
  have hblock : ⟨.punctuation, ['|', '-'], ⟨9, 11⟩⟩ ∈ tokenize source := by
    rw [tokenize_eq]
    decide +kernel
  obtain ⟨hmem, hsound, hcomplete⟩ := lineMark_tokens source
  have hover := (hcomplete 2 _ _ hseparator).2 t hread ⟨by decide, by decide⟩
  exact ⟨(hmem t).2 ⟨_, hread⟩, hover.resolve_left (by decide), hsound _ hblock rfl⟩

end Tony
