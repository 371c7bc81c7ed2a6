import Tony.Proofs.Boundary
import Tony.Proofs.Coverage

/-!
When the operations of a session fail, and what is left then. Main statement: they fail just inside
of characters, where a look at the lexer also fails past the end, and a failure changes nothing but
that draining hands out the pending tokens first. Reading never leads away from the boundaries.
-/

namespace Tony

open Text (IsBoundary InsideCharacter SliceError bytes)

namespace Lexer

variable {l : Lexer}

theorem stuck_rest_of_boundary (h : l.cursor.skew = 0) : l.rest.stuck = none := by
  have hl : l = l.station.lexer l.pending := eq_lexer h rfl rfl
  rw [hl, Station.rest_lexer]

theorem round_of_end (h : l.cursor.ahead = []) : l.round = .ok none := by
  rw [round, h]

theorem round_of_inside (hskew : l.cursor.skew ≠ 0) (hahead : l.cursor.ahead ≠ []) :
    l.round = .error .insideCharacter := by
  obtain ⟨c, r, hc⟩ := List.exists_cons_of_ne_nil hahead
  rw [round, hc]
  exact if_neg hskew

theorem next_error_iff :
    (∃ e, l.next = .error e) ↔
      l.pending = [] ∧ l.cursor.skew ≠ 0 ∧ l.cursor.ahead ≠ [] := by
  constructor
  · rintro ⟨e, he⟩
    cases hp : l.pending with
    | cons t ts =>
      rw [next_of_pending hp] at he
      cases he
    | nil =>
      refine ⟨rfl, fun hskew => ?_, fun hahead => ?_⟩
      · have hstuck := stuck_rest_of_boundary hskew
        rw [rest_of_next_error he] at hstuck
        cases hstuck
      · rw [next_of_end hp (round_of_end hahead)] at he
        cases he
  · rintro ⟨hp, hskew, hahead⟩
    exact ⟨_, next_of_error hp (round_of_inside hskew hahead)⟩

theorem round_of_next_error {e : SliceError} (h : l.next = .error e) : l.round = .error e := by
  obtain ⟨hp, hskew, hahead⟩ := next_error_iff.1 ⟨e, h⟩
  have hround := round_of_inside hskew hahead
  rw [next_of_error hp hround] at h
  rw [hround, Except.error.inj h]

theorem rest_of_inside (hskew : l.cursor.skew ≠ 0) (hahead : l.cursor.ahead ≠ []) :
    l.rest = ⟨l.pending, [], some .insideCharacter, { l with pending := [] }⟩ := by
  obtain ⟨cursor, modes, pending⟩ := l
  induction pending with
  | nil => exact rest_of_next_error (next_of_error rfl (round_of_inside hskew hahead))
  | cons t ts ih =>
    -- Handing out moves nothing, so the lexer is as far inside as before.
    rw [rest_of_pending rfl, ih hskew hahead]

theorem stuck_rest_of_end (hahead : l.cursor.ahead = []) : l.rest.stuck = none := by
  obtain ⟨cursor, modes, pending⟩ := l
  induction pending with
  | nil => rw [rest_of_next_none (next_of_end rfl (round_of_end hahead)) rfl]
  | cons t ts ih => rw [rest_of_pending rfl]; exact ih hahead

theorem kept_boundary : Kept fun l => l.cursor.skew = 0 where
  handOut := fun _ h => h
  round := by
    intro l r hr _
    obtain ⟨s, -, -, rfl⟩ := round_eq_some hr
    rfl

end Lexer

namespace Session

def Answer.isFailure : Answer → Bool
  | failed _ => true
  | tokens _ stuck => stuck.isSome
  | _ => false

def Op.Fails (source : List Char) (l : Lexer) : Op → Prop
  | next => l.pending = [] ∧ l.pos < bytes source ∧ InsideCharacter source l.pos
  | rest => l.pos < bytes source ∧ InsideCharacter source l.pos
  | peek | remaining => bytes source < l.pos ∨ InsideCharacter source l.pos
  | advance _ | save | restore => False

theorem Answer.isFailure_ofExcept {α : Type} {answer : α → Answer}
    (h : ∀ a, (answer a).isFailure = false) (x : Except SliceError α) :
    (Answer.ofExcept answer x).isFailure ↔ ∃ e, x = .error e := by
  cases x with
  | ok a => exact iff_of_false (Bool.eq_false_iff.1 (h a)) nofun
  | error e => exact iff_of_true rfl ⟨e, rfl⟩

theorem step_next_of_error {s : Session} {e : SliceError} (h : s.lexer.next = .error e) :
    s.step .next = (.failed e, s) := by
  rw [step, h]

theorem step_next_of_ok {s : Session} {y : Lexer.Yield} (h : s.lexer.next = .ok y) :
    s.step .next = (.token y.token, { s with lexer := y.lexer }) := by
  rw [step, h]

theorem isFailure_next_iff (s : Session) :
    (s.step .next).1.isFailure ↔ ∃ e, s.lexer.next = .error e := by
  cases hn : s.lexer.next with
  | ok y =>
    rw [step_next_of_ok hn]
    exact iff_of_false Bool.false_ne_true nofun
  | error e =>
    rw [step_next_of_error hn]
    exact iff_of_true rfl ⟨e, rfl⟩

theorem step_snd_of_isFailure {s : Session} {op : Op} (hop : op ≠ .rest)
    (h : (s.step op).1.isFailure) : (s.step op).2 = s := by
  cases op with
  | next =>
    obtain ⟨e, he⟩ := (isFailure_next_iff s).1 h
    rw [step_next_of_error he]
  | rest => exact absurd rfl hop
  | peek | remaining => rfl
  | advance n | save | restore => cases h

section Reads

variable {source : List Char} {s : Session} (h : s.lexer.text = source)

include h

theorem isBoundary_iff : IsBoundary source s.lexer.pos ↔ s.lexer.cursor.skew = 0 := by
  rw [← h]
  exact Text.Cursor.isBoundary_iff

theorem insideCharacter_iff :
    InsideCharacter source s.lexer.pos ↔ s.lexer.cursor.skew ≠ 0 ∧ s.lexer.cursor.ahead ≠ [] := by
  rw [← h]
  exact Text.Cursor.insideCharacter_iff

theorem unreadable_iff :
    bytes source < s.lexer.pos ∨ InsideCharacter source s.lexer.pos ↔
      s.lexer.cursor.skew ≠ 0 := by
  have hend : bytes source < s.lexer.pos ↔
      s.lexer.cursor.skew ≠ 0 ∧ s.lexer.cursor.ahead = [] := by
    rw [← h]
    exact Text.Cursor.lt_pos_iff
  rw [hend, insideCharacter_iff h, ← and_or_left]
  exact and_iff_left (Classical.em _)

theorem rest_of_insideCharacter (hin : InsideCharacter source s.lexer.pos) :
    s.lexer.rest =
      ⟨s.lexer.pending, [], some .insideCharacter, { s.lexer with pending := [] }⟩ := by
  obtain ⟨hskew, hahead⟩ := (insideCharacter_iff h).1 hin
  exact Lexer.rest_of_inside hskew hahead

theorem stuck_rest_iff :
    s.lexer.rest.stuck.isSome ↔ InsideCharacter source s.lexer.pos := by
  constructor
  · intro hstuck
    refine (insideCharacter_iff h).2 ⟨fun hskew => ?_, fun hahead => ?_⟩
    · rw [Lexer.stuck_rest_of_boundary hskew] at hstuck
      cases hstuck
    · rw [Lexer.stuck_rest_of_end hahead] at hstuck
      cases hstuck
  · intro hin
    rw [rest_of_insideCharacter h hin]
    rfl

theorem isFailure_iff (op : Op) : (s.step op).1.isFailure ↔ op.Fails source s.lexer := by
  have hlt : InsideCharacter source s.lexer.pos → s.lexer.pos < bytes source := (·.lt_bytes)
  cases op with
  | next =>
    rw [isFailure_next_iff, Lexer.next_error_iff, ← insideCharacter_iff h]
    exact and_congr_right fun _ => (and_iff_right_of_imp hlt).symm
  | rest => exact (stuck_rest_iff h).trans (and_iff_right_of_imp hlt).symm
  | peek =>
    rw [Op.Fails, unreadable_iff h, ← Text.Cursor.remaining_error_iff]
    refine (Answer.isFailure_ofExcept (fun _ => rfl) _).trans ?_
    show (∃ e, s.lexer.cursor.remaining.map List.head? = .error e) ↔ _
    cases s.lexer.cursor.remaining <;> simp [Except.map]
  | remaining =>
    rw [Op.Fails, unreadable_iff h, ← Text.Cursor.remaining_error_iff]
    exact Answer.isFailure_ofExcept (fun _ => rfl) _
  | advance n | save | restore => exact iff_of_false Bool.false_ne_true id

end Reads

namespace Reachable

variable {source : List Char} {s : Session}

theorem boundary_step (h : s.Reachable source) (hpos : IsBoundary source s.lexer.pos) {op : Op}
    (hop : op = .next ∨ op = .rest) :
    ¬ (s.step op).1.isFailure ∧ IsBoundary source (s.step op).2.lexer.pos := by
  have hsafe : ¬ op.Fails source s.lexer := by
    rcases hop with rfl | rfl
    · exact fun hfails => hpos.not_insideCharacter hfails.2.2
    · exact fun hfails => hpos.not_insideCharacter hfails.2
  have hskew := (isBoundary_iff h.reads.text_eq).1 hpos
  refine ⟨mt (isFailure_iff h.reads.text_eq op).1 hsafe, ?_⟩
  rw [isBoundary_iff (Reachable.step op h).reads.text_eq]
  rcases hop with rfl | rfl
  · cases hn : s.lexer.next with
    | ok y =>
      rw [step_next_of_ok hn]
      exact Lexer.kept_boundary.next hn hskew
    | error e =>
      rw [step_next_of_error hn]
      exact hskew
  · exact Lexer.kept_boundary.rest hskew

theorem boundary_run (h : s.Reachable source) (hpos : IsBoundary source s.lexer.pos) {ops : List Op}
    (hops : ∀ op ∈ ops, op = .next ∨ op = .rest) :
    ∀ x ∈ s.run ops, ¬ x.1.isFailure ∧ IsBoundary source x.2.pos := by
  induction ops generalizing s with
  | nil => exact List.forall_mem_nil _
  | cons op ops ih =>
    obtain ⟨hop, hlater⟩ := List.forall_mem_cons.1 hops
    have hhere := h.boundary_step hpos hop
    exact List.forall_mem_cons.2 ⟨hhere, ih (.step op h) hhere.2 hlater⟩

/-- An operation fails exactly where it has to, and then it leaves all as it was, but for the pending
tokens that draining hands out first; a call for a token fails in its first round. At a boundary
reading goes on from boundary to boundary. -/
theorem failures (h : s.Reachable source) :
    (∀ op, (s.step op).1.isFailure ↔ op.Fails source s.lexer) ∧
    (∀ op, op ≠ .rest → (s.step op).1.isFailure → (s.step op).2 = s) ∧
    (∀ e, s.lexer.next = .error e → s.lexer.round = .error e) ∧
    ((s.step .rest).1.isFailure →
      (∃ e, (s.step .rest).1 = .tokens s.lexer.pending (some e)) ∧
        (s.step .rest).2 = { s with lexer := { s.lexer with pending := [] } }) ∧
    (IsBoundary source s.lexer.pos → ∀ ops, (∀ op ∈ ops, op = .next ∨ op = .rest) →
      ∀ x ∈ s.run ops, ¬ x.1.isFailure ∧ IsBoundary source x.2.pos) := by
  have htext := h.reads.text_eq
  refine ⟨isFailure_iff htext, fun op hop => step_snd_of_isFailure hop,
    fun e => Lexer.round_of_next_error, fun hfail => ?_,
    fun hpos ops hops => h.boundary_run hpos hops⟩
  have hin := ((isFailure_iff htext .rest).1 hfail).2
  have hstep : s.step .rest =
      (.tokens s.lexer.pending (some .insideCharacter),
        { s with lexer := { s.lexer with pending := [] } }) := by
    rw [Session.step, rest_of_insideCharacter htext hin]
  rw [hstep]
  exact ⟨⟨_, rfl⟩, rfl⟩

theorem failures_inside :
    let source := [':', ' ', 'é']
    ∃ s : Session, s.Reachable source ∧ s.lexer.pending = [⟨.plainText, [' '], ⟨1, 2⟩⟩] ∧
      Op.rest.Fails source s.lexer ∧ Op.peek.Fails source s.lexer ∧ (s.step .peek).2 = s ∧
      (∃ e, (s.step .rest).1 = .tokens s.lexer.pending (some e)) ∧
      (s.step .rest).2 = { s with lexer := { s.lexer with pending := [] } } ∧
      ∀ x ∈ (Session.start source).run [.next, .rest],
        ¬ x.1.isFailure ∧ IsBoundary source x.2.pos := by
  intro source
  have hreach : Reachable source _ := .step (.advance 1) (.step .next .start)
  have hpos : (((Session.start source).step .next).2.step (.advance 1)).2.lexer.pos = 3 := by
    decide +kernel
  have hpending : (((Session.start source).step .next).2.step (.advance 1)).2.lexer.pending =
      [⟨.plainText, [' '], ⟨1, 2⟩⟩] := by
    decide +kernel
  have hin : InsideCharacter source
      (((Session.start source).step .next).2.step (.advance 1)).2.lexer.pos := by
    rw [hpos]
    exact ⟨[':', ' '], 'é', [], rfl, by decide, by decide⟩
  obtain ⟨hiff, hsame, -, hrest, -⟩ := failures hreach
  obtain ⟨htokens, hafter⟩ := hrest ((hiff .rest).2 ⟨hin.lt_bytes, hin⟩)
  have hpeek := hsame .peek (by decide) ((hiff .peek).2 (.inr hin))
  have hboundary : IsBoundary source (Session.start source).lexer.pos :=
    Text.isBoundary_bytes [] source
  obtain ⟨-, -, -, -, hreading⟩ := failures (Reachable.start : Reachable source _)
  have hrun := hreading hboundary [.next, .rest] (by simp)
  exact ⟨_, hreach, hpending, ⟨hin.lt_bytes, hin⟩, .inr hin, hpeek, htokens, hafter, hrun⟩

end Reachable
end Session
end Tony
