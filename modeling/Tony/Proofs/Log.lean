import Tony.Proofs.Modes
import Tony.Proofs.Reading

/-!
What the log tells about a run. Main statement: its records can be replayed on a mode stack of their
own, which ends as that of the lexer does, they are in the order of their places, and those of
characters that no rule took are the plain text that no rule takes, in the order of the tokens.
-/

namespace Tony

open Pattern
open Text (bytes)
open Unicode (isBlank)

namespace Record

def pos : Record → Nat
  | pushed _ _ pos | popped _ _ pos | unmatched _ _ pos => pos

/-- The modes after a record, if it tells the truth about those before it. -/
def replay? (m : ModeStack) : Record → Option ModeStack
  | pushed under mode _ => if m.top = under then some ⟨mode, m.top :: m.below⟩ else none
  | popped left resumed _ =>
    match m.below with
    | [] => none
    | mode :: below => if m.top = left ∧ mode = resumed then some ⟨mode, below⟩ else none
  | unmatched mode _ _ => if m.top = mode then some m else none

def token? : Record → Option Token
  | unmatched _ c pos => some ⟨.plainText, [c], ⟨pos, pos + c.utf8Size⟩⟩
  | _ => none

end Record

namespace Token

/-- Plain text that no rule takes: a single character that is not blank, and in a block all but line
breaks. -/
def isLeftOver (mode : Mode) (t : Token) : Bool :=
  t.kind = .plainText &&
    ((t.value.length = 1 && !t.value.any isBlank) ||
      (mode = .blockLiteral && t.value ≠ ['\n'] && t.value ≠ ['\r', '\n']))

end Token

def tokensByMode (source : List Char) : List (Mode × Token) :=
  (Station.stations { ahead := source }).flatMap fun s => s.tokens.map (Prod.mk s.modes.top)

def Mode.Filler (mode : Mode) : Form := fun s =>
  (∀ c ∈ s, isBlank c) ∧ (mode = .blockLiteral → s ∈ [[], ['\n'], ['\r', '\n']])

theorem Token.isLeftOver_eq_false {mode : Mode} {t : Token}
    (h : t.kind = .plainText → t.value ≠ [] ∧ mode.Filler t.value) : t.isLeftOver mode = false := by
  rw [Bool.eq_false_iff]
  intro hleft
  obtain ⟨hkind, hleft⟩ := Bool.and_eq_true_iff.1 hleft
  obtain ⟨hne, hblank, hblock⟩ := h (of_decide_eq_true hkind)
  rcases Bool.or_eq_true_iff.1 hleft with hsolid | hother
  · obtain ⟨c, r, hc⟩ := List.exists_cons_of_ne_nil hne
    have hany : t.value.any isBlank = true :=
      List.any_eq_true.2 ⟨c, by simp [hc], hblank c (by simp [hc])⟩
    simp [hany] at hsolid
  · simp only [Bool.and_eq_true, decide_eq_true_eq] at hother
    have hbreak := hblock hother.1.1
    simp only [List.mem_cons, List.not_mem_nil, or_false] at hbreak
    rcases hbreak with hnil | hfeed | hreturn
    · exact hne hnil
    · exact hother.1.2 hfeed
    · exact hother.2 hreturn

def Mode.fillers : Mode → List Pattern
  | .root => [indent, indent, indent, blanks, blanks]
  | .tagArgs => [blanks]
  | .doubleString => []
  | .blockLiteral => [lineBreak, nothing]

theorem Mode.filter_parts (mode : Mode) :
    (mode.rules.flatMap Rule.parts).filter (fun part => part.1 = .plainText) =
      mode.fillers.map (Prod.mk .plainText) := by
  cases mode <;> rfl

theorem Mode.takes_filler {mode : Mode} : ∀ p ∈ mode.fillers, p.Takes mode.Filler := by
  have hindent : indent.Takes fun s => ∀ c ∈ s, isBlank c :=
    takes_indent.mono fun _ hs c hc => isBlank_of_indent (hs c hc)
  have hblanks : blanks.Takes fun s => ∀ c ∈ s, isBlank c :=
    (takes_run1 isBlank).mono fun _ hs => hs.2
  cases mode with
  | root =>
    simp only [fillers, List.forall_mem_cons]
    exact ⟨hindent.mono fun _ hs => ⟨hs, nofun⟩, hindent.mono fun _ hs => ⟨hs, nofun⟩,
      hindent.mono fun _ hs => ⟨hs, nofun⟩, hblanks.mono fun _ hs => ⟨hs, nofun⟩,
      hblanks.mono fun _ hs => ⟨hs, nofun⟩, List.forall_mem_nil _⟩
  | tagArgs => exact List.forall_mem_singleton.2 (hblanks.mono fun _ hs => ⟨hs, nofun⟩)
  | doubleString => exact List.forall_mem_nil _
  | blockLiteral =>
    simp only [fillers, List.forall_mem_cons]
    refine ⟨takes_lineBreak.mono fun s hs => ?_, takes_nothing.mono fun s hs => ?_,
      List.forall_mem_nil _⟩
    · exact ⟨(blank_of_lineBreak hs).2, fun _ => List.mem_cons_of_mem [] hs⟩
    · subst hs
      exact ⟨nofun, fun _ => List.mem_cons_self ..⟩

theorem Rule.takes_filler_of_mem {mode : Mode} {rule : Rule} (h : rule ∈ mode.rules) :
    ∀ part ∈ rule.parts, part.2.Takes fun s => part.1 = .plainText → mode.Filler s := by
  intro part hpart s n hn hkind
  have hmem : part ∈ (mode.rules.flatMap Rule.parts).filter (fun part => part.1 = .plainText) :=
    List.mem_filter.2 ⟨List.mem_flatMap.2 ⟨rule, h, hpart⟩, decide_eq_true hkind⟩
  rw [Mode.filter_parts] at hmem
  obtain ⟨p, hp, rfl⟩ := List.mem_map.1 hmem
  exact Mode.takes_filler p hp s n hn

namespace Station

variable {s : Station}

theorem replay_record (hs : s.ahead ≠ []) :
    s.record.toList.foldlM Record.replay? s.modes = some s.next.modes := by
  obtain ⟨c, r, hc⟩ := List.exists_cons_of_ne_nil hs
  have hmodes : s.next.modes = s.modes.change s.reading.change := rfl
  rw [hmodes, reading, record]
  cases s.reading? with
  | none =>
    rw [hc]
    simp [Record.replay?, ModeStack.change]
  | some r =>
    obtain ⟨top, below⟩ := s.modes
    cases hchange : r.change with
    | stay => simp [Record.ofChange?, ModeStack.change, hchange]
    | push mode => simp [Record.ofChange?, Record.replay?, ModeStack.change, hchange]
    | pop =>
      cases below <;>
        simp [Record.ofChange?, Record.replay?, ModeStack.change, ModeStack.pop, hchange]

theorem pos_of_record {record : Record} (h : s.record = some record) :
    bytes s.passed ≤ record.pos ∧ record.pos ≤ bytes s.next.passed := by
  rw [bytes_passed_next, reading]
  unfold Station.record at h
  cases hr : s.reading? with
  | none =>
    rw [hr] at h
    obtain ⟨c, -, rfl⟩ := Option.map_eq_some_iff.1 h
    exact ⟨Nat.le_refl _, Nat.le_add_right _ _⟩
  | some r =>
    rw [hr] at h
    have hpos : record.pos = bytes s.passed + bytes r.text := by
      simp only [Record.ofChange?] at h
      split at h <;> cases h <;> rfl
    rw [hpos]
    exact ⟨Nat.le_add_right _ _, Nat.le_refl _⟩

theorem filter_tokens_eq_nil {mode : Mode}
    (h : ∀ l ∈ s.reading.lexemes, l.kind = .plainText → mode.Filler l.text) :
    s.tokens.filter (Token.isLeftOver mode) = [] := by
  refine List.filter_eq_nil_iff.2 fun t ht => ?_
  obtain ⟨l, hl, hne, hkind, hvalue⟩ := Lexeme.exists_of_mem_layout ht
  rw [Bool.not_eq_true]
  refine Token.isLeftOver_eq_false fun hplain => ?_
  rw [hvalue]
  exact ⟨hne, h l hl (hkind.symm.trans hplain)⟩

theorem LeftAlone.isLeftOver {c : Char} {n : Nat} (h : s.LeftAlone c) :
    Token.isLeftOver s.modes.top ⟨.plainText, [c], ⟨n, n + c.utf8Size⟩⟩ := by
  obtain ⟨r, hr⟩ := List.head?_eq_some_iff.1 h.head?
  have hfeed : c ≠ '\n' := by
    rintro rfl
    exact reading?_ne_none_of_lineFeed hr h.reading?_eq
  by_cases hm : s.modes.top = .blockLiteral
  · simp [Token.isLeftOver, hm, hfeed]
  · have hsolid : isBlank c = false := by
      rw [Bool.eq_false_iff]
      exact fun hblank => reading?_ne_none_of_blank hr hblank hm h.reading?_eq
    simp [Token.isLeftOver, hsolid]

theorem token?_record (hs : s.ahead ≠ []) :
    s.record.toList.filterMap Record.token? =
      s.tokens.filter (Token.isLeftOver s.modes.top) := by
  unfold Station.record
  cases hr : s.reading? with
  | none =>
    obtain ⟨c, h⟩ := leftAlone_of_reading? hs hr
    have htokens : s.tokens = [⟨.plainText, [c], ⟨bytes s.passed, bytes s.passed + c.utf8Size⟩⟩] := by
      rw [tokens, h.reading_eq]
      exact Lexeme.layout_cons_of_ne_nil (List.cons_ne_nil c [])
    rw [htokens, List.filter_cons_of_pos h.isLeftOver, h.head?]
    rfl
  | some r =>
    obtain ⟨rule, h⟩ := readBy_of_reading? hr
    have hfiller := h.forall_lexemes (F := fun kind v => kind = .plainText → s.modes.top.Filler v)
      (Rule.takes_filler_of_mem h.mem)
    rw [filter_tokens_eq_nil hfiller]
    simp only [Record.ofChange?]
    split <;> rfl

theorem records_of_ahead (hs : s.ahead ≠ []) :
    s.stations.filterMap record = s.record.toList ++ s.next.stations.filterMap record := by
  rw [stations_of_ahead hs, List.filterMap_cons]
  cases s.record <;> rfl

theorem replay_records (s : Station) :
    (s.stations.filterMap record).foldlM Record.replay? s.modes = some s.last.modes := by
  induction s using run_induction with
  | last s h => rw [stations_of_end h, last_of_end h]; rfl
  | round s h ih =>
    rw [records_of_ahead h, last_of_ahead h, List.foldlM_append, replay_record h]
    exact ih

theorem pairwise_pos_records (s : Station) :
    ((s.stations.filterMap record).map Record.pos).Pairwise (· ≤ ·) ∧
      ∀ n ∈ (s.stations.filterMap record).map Record.pos, bytes s.passed ≤ n := by
  induction s using run_induction with
  | last s h =>
    rw [stations_of_end h]
    exact ⟨List.Pairwise.nil, List.forall_mem_nil _⟩
  | round s h ih =>
    obtain ⟨hsorted, hbound⟩ := ih
    have hmono : bytes s.passed ≤ bytes s.next.passed := by
      rw [bytes_passed_next]
      exact Nat.le_add_right _ _
    have hlater : ∀ n ∈ (s.next.stations.filterMap record).map Record.pos, bytes s.passed ≤ n :=
      fun n hn => hmono.trans (hbound n hn)
    rw [records_of_ahead h]
    cases hr : s.record with
    | none => exact ⟨hsorted, hlater⟩
    | some r =>
      obtain ⟨hstart, hstop⟩ := pos_of_record hr
      have hfirst : ∀ n ∈ (s.next.stations.filterMap record).map Record.pos, r.pos ≤ n :=
        fun n hn => hstop.trans (hbound n hn)
      exact ⟨List.pairwise_cons.2 ⟨hfirst, hsorted⟩, List.forall_mem_cons.2 ⟨hstart, hlater⟩⟩

theorem token?_records (s : Station) :
    (s.stations.filterMap record).filterMap Record.token? =
      ((s.stations.flatMap fun s => s.tokens.map (Prod.mk s.modes.top)).filter
        fun x => x.2.isLeftOver x.1).map Prod.snd := by
  induction s using run_induction with
  | last s h => rw [stations_of_end h]; rfl
  | round s h ih =>
    have hhere : ((s.tokens.map (Prod.mk s.modes.top)).filter fun x => x.2.isLeftOver x.1).map
        Prod.snd = s.tokens.filter (Token.isLeftOver s.modes.top) := by
      rw [List.filter_map, List.map_map]
      exact List.map_id _
    rw [records_of_ahead h, stations_of_ahead h, List.filterMap_append, token?_record h, ih,
      List.flatMap_cons, List.filter_append, List.map_append, hhere]

end Station

theorem map_snd_tokensByMode (source : List Char) :
    (tokensByMode source).map Prod.snd = tokenize source := by
  rw [tokensByMode, tokenize_eq, List.map_flatMap]
  refine congrArg (List.flatMap · _) (funext fun s => ?_)
  rw [List.map_map]
  exact List.map_id _

/-- The log of a text is in order and can be replayed to the modes that reading it ends with. It has
a record for each character of plain text that no rule takes, and for no other text. -/
theorem trace_replays (source : List Char) :
    (trace source).foldlM Record.replay? {} = some (Lexer.ofText source).rest.lexer.modes ∧
    ((trace source).map Record.pos).Pairwise (· ≤ ·) ∧
    (tokensByMode source).map Prod.snd = tokenize source ∧
    (trace source).filterMap Record.token? =
      ((tokensByMode source).filter fun x => x.2.isLeftOver x.1).map Prod.snd := by
  rw [modes_rest_ofText, trace_eq]
  exact ⟨Station.replay_records { ahead := source },
    (Station.pairwise_pos_records { ahead := source }).1, map_snd_tokensByMode source,
    Station.token?_records { ahead := source }⟩

end Tony
