import Tony.Proofs.Landmark
import Tony.Proofs.Modes

/-!
Turns of a run. Where the modes are usual, a round goes on in them and takes some text, or it opens
or closes one thing, which has a token of its own. Only leaving a block takes nothing.
-/

namespace Tony

open Pattern

def Kind.Bracket : Kind → Form
  | .punctuation, s => s.head? = some '|'
  | .keyword, s => s.getLast? = some '(' ∨ s = [')']
  | .string, s => s = ['"']
  | _, _ => False

theorem Kind.Bracket.landmark {kind : Kind} {s : List Char} (h : kind.Bracket s) :
    kind.Landmark s := by
  cases kind
  case punctuation | keyword | string => exact h
  all_goals exact h.elim

namespace ModeStack

theorem eq_of_root {m : ModeStack} (h : m ∈ usual) (hm : m.top = .root) : m = {} := by
  revert m
  decide

theorem eq_of_tagArgs {m : ModeStack} (h : m ∈ usual) (hm : m.top = .tagArgs) :
    m = ⟨.tagArgs, [.root]⟩ := by
  revert m
  decide

theorem eq_of_doubleString {m : ModeStack} (h : m ∈ usual) (hm : m.top = .doubleString) :
    m = ⟨.doubleString, m.pop.top :: m.pop.below⟩ ∧
      (m.pop = {} ∨ m.pop = ⟨.tagArgs, [.root]⟩) := by
  revert m
  decide

end ModeStack

namespace Station

inductive Turn (s : Station) : Prop
  | still (modes : s.next.modes = s.modes) (text : s.reading.text ≠ [])
      (unbracketed : ∀ l ∈ s.reading.lexemes, ¬ l.kind.Bracket l.text)
  | openArguments {name : List Char} (here : s.modes = {})
      (there : s.next.modes = ⟨.tagArgs, [.root]⟩)
      (lexemes : s.reading.lexemes = [⟨.keyword, name ++ ['(']⟩])
  | closeArguments (here : s.modes = ⟨.tagArgs, [.root]⟩) (there : s.next.modes = {})
      (lexemes : s.reading.lexemes = [⟨.keyword, [')']⟩])
  | openQuotes (here : s.modes = {} ∨ s.modes = ⟨.tagArgs, [.root]⟩)
      (there : s.next.modes = ⟨.doubleString, s.modes.top :: s.modes.below⟩)
      (lexemes : s.reading.lexemes = [⟨.string, ['"']⟩])
  | closeQuotes (here : s.modes = ⟨.doubleString, s.next.modes.top :: s.next.modes.below⟩)
      (there : s.next.modes = {} ∨ s.next.modes = ⟨.tagArgs, [.root]⟩)
      (lexemes : s.reading.lexemes = [⟨.string, ['"']⟩])
  | openBlock {a mark b : List Char} (here : s.modes = {})
      (there : s.next.modes = ⟨.blockLiteral, [.root]⟩) (bar : mark.head? = some '|')
      (blanks : ∀ c ∈ b, c = ' ' ∨ c = '\t')
      (lexemes : s.reading.lexemes = [⟨.plainText, a⟩, ⟨.punctuation, mark⟩, ⟨.plainText, b⟩])
  | leaveBlock (here : s.modes = ⟨.blockLiteral, [.root]⟩)
      (there : s.next = ⟨{}, s.passed, s.ahead⟩) (lexemes : s.reading.lexemes = [⟨.plainText, []⟩])
      (line : Anchor.lineStart.holds s.passed) (unindented : beginsUnindented s.ahead.head?)

section Rules

variable {s : Station}

theorem ReadBy.modes_next {rule : Rule} (h : s.ReadBy rule) :
    s.next.modes = s.modes.change rule.change := by
  rw [← h.change]
  rfl

theorem turn_of_stay {rule : Rule} (h : s.ReadBy rule) (hchange : rule.change = .stay)
    (hparts : ∀ part ∈ rule.parts, ∀ v, ¬ part.1.Bracket v) : s.Turn := by
  have hmodes := h.modes_next
  rw [hchange] at hmodes
  exact .still hmodes (h.text_ne_nil (by rw [hchange]; decide))
    (h.forall_lexemes (F := fun kind v => ¬ kind.Bracket v) fun part hpart s n _ =>
      hparts part hpart (s.take n))

theorem turn_of_argumentsOpening (h : s.ReadBy Rule.argumentsOpening) (hm : s.modes = {}) :
    s.Turn := by
  obtain ⟨hls, u, _, -, rfl, htext⟩ :=
    h.lexemes_of_parts rfl (takes_tag.andThen (takes_literal "("))
  have hnext := h.modes_next
  rw [hm] at hnext
  rw [htext] at hls
  exact .openArguments hm hnext hls

theorem turn_of_argumentsClosing (h : s.ReadBy Rule.argumentsClosing)
    (hm : s.modes = ⟨.tagArgs, [.root]⟩) : s.Turn := by
  obtain ⟨hls, htext⟩ := h.lexemes_of_parts rfl (takes_literal ")")
  have hnext := h.modes_next
  rw [hm] at hnext
  rw [htext] at hls
  exact .closeArguments hm hnext hls

theorem turn_of_quoteOpening (h : s.ReadBy Rule.openingQuote)
    (hm : s.modes = {} ∨ s.modes = ⟨.tagArgs, [.root]⟩) : s.Turn := by
  obtain ⟨hls, htext⟩ := h.lexemes_of_parts rfl (takes_literal "\"")
  rw [htext] at hls
  exact .openQuotes hm h.modes_next hls

theorem turn_of_quoteClosing (h : s.ReadBy Rule.quoteClosing) (hm : s.modes ∈ ModeStack.usual)
    (htop : s.modes.top = .doubleString) : s.Turn := by
  obtain ⟨hls, htext⟩ := h.lexemes_of_parts rfl (takes_literal "\"")
  have hpop : s.next.modes = s.modes.pop := h.modes_next
  rw [htext] at hls
  obtain ⟨hhere, hthere⟩ := ModeStack.eq_of_doubleString hm htop
  rw [← hpop] at hhere hthere
  exact .closeQuotes hhere hthere hls

theorem turn_of_blockOpening (h : s.ReadBy Rule.blockOpening) (hm : s.modes = {}) : s.Turn := by
  obtain ⟨n, ms, hn, hms, hls⟩ := Rule.exists_of_lexemes?_cons h.lexemes
  obtain ⟨m, ns, hmark, hns, rfl⟩ := Rule.exists_of_lexemes?_cons hms
  obtain ⟨k, os, hblanks, hos, rfl⟩ := Rule.exists_of_lexemes?_cons hns
  obtain ⟨rfl, -⟩ := Prod.mk.inj (Option.some.inj hos)
  have hform := takes_blockMark _ m hmark
  have hbar : ((s.ahead.drop n).take m).head? = some '|' := by
    generalize (s.ahead.drop n).take m = mark at hform
    revert mark
    decide
  have hnext := h.modes_next
  rw [hm] at hnext
  exact .openBlock hm hnext hbar (takes_indent _ k hblanks) hls

theorem turn_of_blockLeaving (h : s.ReadBy Rule.blockLeaving)
    (hm : s.modes = ⟨.blockLiteral, [.root]⟩) : s.Turn := by
  obtain ⟨hls, htext⟩ := h.lexemes_of_parts rfl takes_nothing
  have hmodes := h.modes_next
  rw [hm] at hmodes
  have hpassed : s.next.passed = s.passed := by
    rw [next, htext]
    rfl
  have hahead : s.next.ahead = s.ahead := by
    rw [next, htext]
    rfl
  have hthere : s.next = ⟨{}, s.passed, s.ahead⟩ := by
    show Station.mk s.next.modes s.next.passed s.next.ahead = _
    rw [hmodes, hpassed, hahead]
    rfl
  rw [htext] at hls
  have hfollow := h.follow
  rw [hthere] at hfollow
  exact .leaveBlock hm hthere hls h.anchor hfollow

end Rules

theorem turn {s : Station} (hs : s.ahead ≠ []) (hm : s.modes ∈ ModeStack.usual) : s.Turn := by
  rcases telling_or_isQuiet hs with ⟨rule, htelling, h⟩ | hquiet
  · generalize htop : s.modes.top = mode at htelling
    cases htelling with
    | separator => exact turn_of_stay h rfl (List.forall_mem_singleton.2 fun _ => id)
    | mergeKey =>
      have hindent : ∀ v, ¬ Kind.plainText.Bracket v := fun _ => id
      have hkey : ∀ v, ¬ Kind.operator.Bracket v := fun _ => id
      exact turn_of_stay h rfl (List.forall_mem_cons.2 ⟨hindent, List.forall_mem_singleton.2 hkey⟩)
    | argumentsOpening => exact turn_of_argumentsOpening h (ModeStack.eq_of_root hm htop)
    | blockOpening => exact turn_of_blockOpening h (ModeStack.eq_of_root hm htop)
    | quoteOpening hmode =>
      rcases hmode with rfl | rfl
      · exact turn_of_quoteOpening h (.inl (ModeStack.eq_of_root hm htop))
      · exact turn_of_quoteOpening h (.inr (ModeStack.eq_of_tagArgs hm htop))
    | argumentsClosing => exact turn_of_argumentsClosing h (ModeStack.eq_of_tagArgs hm htop)
    | quoteClosing => exact turn_of_quoteClosing h hm htop
    | blockLeaving => exact turn_of_blockLeaving h (ModeStack.eq_of_blockLiteral hm htop)
  · have hmodes : s.next.modes = s.modes := congrArg s.modes.change hquiet.change
    exact .still hmodes hquiet.text_ne_nil fun l hl hbracket =>
      hquiet.no_landmark l hl hbracket.landmark

theorem text_ne_nil_of_lexemes {s : Station} {ls : List Lexeme} {l : Lexeme}
    (h : s.reading.lexemes = ls) (hl : l ∈ ls) (hne : l.text ≠ []) : s.reading.text ≠ [] := by
  rw [← h] at hl
  exact Reading.text_ne_nil_of_mem hl hne

theorem Turn.takes_or_leaves {s : Station} (h : s.Turn) :
    s.reading.text ≠ [] ∨
      s.modes = ⟨.blockLiteral, [.root]⟩ ∧ s.next = ⟨{}, s.passed, s.ahead⟩ := by
  cases h with
  | still _ text _ => exact .inl text
  | openArguments _ _ lexemes =>
    exact .inl (text_ne_nil_of_lexemes lexemes (List.mem_singleton_self _)
      (List.append_ne_nil_of_right_ne_nil _ (List.cons_ne_nil _ _)))
  | closeArguments _ _ lexemes | openQuotes _ _ lexemes | closeQuotes _ _ lexemes =>
    exact .inl (text_ne_nil_of_lexemes lexemes (List.mem_singleton_self _) (List.cons_ne_nil _ _))
  | @openBlock a mark b _ _ bar _ lexemes =>
    have hmark : mark ≠ [] := by
      rintro rfl
      cases bar
    have hmem := List.mem_cons_of_mem (⟨.plainText, a⟩ : Lexeme)
      (List.mem_cons_self (a := ⟨.punctuation, mark⟩) (l := [⟨.plainText, b⟩]))
    exact .inl (text_ne_nil_of_lexemes lexemes hmem hmark)
  | leaveBlock here there => exact .inr ⟨here, there⟩

end Station
end Tony
