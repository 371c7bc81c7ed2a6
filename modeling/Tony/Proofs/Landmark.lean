import Tony.Proofs.Reading

/-!
Landmarks among the lexemes: what stands on lines of its own, and what opens or closes something. All
rules that read a landmark or change the modes are named here, and the tables of the modes are gone
through once to see that the others do neither.
-/

namespace Tony

open Form (Run Segments QuotedBody)
open Pattern

/-- A merge key, a document separator, a block mark, a tag with arguments, the parenthesis at their
end, or a double quote. -/
def Kind.Landmark : Kind → Form
  | .operator, _ => True
  | .commentSpecial, s => ['-', '-', '-'] <+: s
  | .punctuation, s => s.head? = some '|'
  | .keyword, s => s.getLast? = some '(' ∨ s = [')']
  | .string, s => s = ['"']
  | _, _ => False

namespace Rule

def separator : Rule :=
  { taking .commentSpecial Pattern.separator with anchor := .lineStart, follow := endsLine }

def mergeKey : Rule where
  parts := [(.plainText, indent), (.operator, literal "<<:")]
  anchor := .afterIndent

def blockOpening : Rule where
  parts := [(.plainText, indent), (.punctuation, blockMark), (.plainText, indent)]
  anchor := .afterIndent
  follow := endsLine
  change := .push .blockLiteral

def argumentsOpening : Rule :=
  { taking .keyword (tag.andThen (literal "(")) with change := .push .tagArgs }

def argumentsClosing : Rule :=
  { taking .keyword (literal ")") with change := .pop }

def quoteClosing : Rule :=
  { taking .string (literal "\"") with change := .pop }

def blockLeaving : Rule :=
  { taking .plainText nothing with
    anchor := .lineStart
    follow := beginsUnindented
    change := .pop }

inductive Telling : Mode → Rule → Prop
  | separator : Telling .root separator
  | mergeKey : Telling .root mergeKey
  | argumentsOpening : Telling .root argumentsOpening
  | blockOpening : Telling .root blockOpening
  | quoteOpening {mode : Mode} (hm : mode = .root ∨ mode = .tagArgs) : Telling mode openingQuote
  | argumentsClosing : Telling .tagArgs argumentsClosing
  | quoteClosing : Telling .doubleString quoteClosing
  | blockLeaving : Telling .blockLiteral blockLeaving

structure Quiet (rule : Rule) : Prop where
  change : rule.change = .stay
  parts : ∀ part ∈ rule.parts, part.2.Takes fun s => ¬ part.1.Landmark s

theorem quiet_of_takes {rule : Rule} {kind : Kind} {p : Pattern} {F : Form}
    (hparts : rule.parts = [(kind, p)]) (hchange : rule.change = .stay) (hp : p.Takes F)
    (hF : ∀ s, F s → ¬ kind.Landmark s) : rule.Quiet where
  change := hchange
  parts := by
    rw [hparts, List.forall_mem_singleton]
    exact hp.mono hF

theorem quiet_of_kind {rule : Rule} {kind : Kind} {p : Pattern} (hparts : rule.parts = [(kind, p)])
    (hchange : rule.change = .stay) (hkind : ∀ s, ¬ kind.Landmark s) : rule.Quiet where
  change := hchange
  parts := by
    rw [hparts, List.forall_mem_singleton]
    exact fun s n _ => hkind (s.take n)

theorem takes_one_no_bar {w : String} (hw : '|' ∉ w.toList) :
    (one (isOneOf w)).Takes fun s => ¬ Kind.punctuation.Landmark s := by
  refine Takes.mono (takes_one _) ?_
  rintro _ ⟨c, hc, rfl⟩ hbar
  obtain rfl : c = '|' := Option.some.inj hbar
  exact hw (List.contains_iff_mem.1 hc)

theorem quiet_specialComment : (taking .commentSpecial (comment.passing hasMarker)).Quiet := by
  refine quiet_of_takes rfl rfl (takes_comment.passing hasMarker) ?_
  rintro _ ⟨⟨r, rfl, -⟩, -⟩ hdashes
  exact absurd (List.cons_prefix_cons.1 hdashes).1 (by decide)

theorem quiet_tag : Quiet { taking .keyword tag with follow := endsTag } := by
  refine @quiet_of_takes _ .keyword tag _ rfl rfl takes_tag ?_
  rintro _ ⟨name, hname, rfl⟩ (hlast | hparen)
  · obtain ⟨c, hc, hletter⟩ := hname.exists_getLast?
    rw [List.getLast?_cons, hc] at hlast
    obtain rfl : c = '(' := Option.some.inj hlast
    cases hletter
  · exact absurd (List.cons.inj hparen).1 (by decide)

theorem quiet_quoted : (taking .string quoted).Quiet := by
  refine quiet_of_takes rfl rfl takes_quoted ?_
  rintro _ ⟨body, -, rfl⟩ hquote
  exact absurd (List.cons.inj hquote).1 (by decide)

theorem quiet_of_mem_numbers : ∀ rule ∈ numbers, rule.Quiet := by
  simp only [numbers, List.forall_mem_cons]
  exact ⟨quiet_of_kind rfl rfl fun _ => id, quiet_of_kind rfl rfl fun _ => id,
    quiet_of_kind rfl rfl fun _ => id, quiet_of_kind rfl rfl fun _ => id, List.forall_mem_nil _⟩

theorem telling_or_quiet_of_mem_root : ∀ rule ∈ root, Telling .root rule ∨ rule.Quiet := by
  have hnumbers : ∀ rule ∈ numbers, Telling .root rule ∨ rule.Quiet :=
    fun rule hrule => .inr (quiet_of_mem_numbers rule hrule)
  have hbracket : (taking .punctuation (one (isOneOf "[]\x7b\x7d"))).Quiet :=
    quiet_of_takes rfl rfl (takes_one_no_bar (by decide)) fun _ => id
  have hmark : Quiet { parts := [(.punctuation, one (isOneOf ":,-")), (.plainText, blanks)] } := by
    refine ⟨rfl, ?_⟩
    simp only [List.forall_mem_cons]
    exact ⟨takes_one_no_bar (by decide), fun _ _ _ => id, List.forall_mem_nil _⟩
  simp only [Rule.root, List.forall_mem_append, List.forall_mem_cons]
  exact ⟨⟨⟨.inl .separator, .inr quiet_specialComment, .inr (quiet_of_kind rfl rfl fun _ => id),
    .inl .mergeKey, .inr quiet_tag, .inl .argumentsOpening, .inr (quiet_of_kind rfl rfl fun _ => id),
    .inr (quiet_of_kind rfl rfl fun _ => id), .inl .blockOpening, .inl (.quoteOpening (.inl rfl)),
    .inr quiet_quoted, List.forall_mem_nil _⟩, hnumbers⟩,
    .inr (quiet_of_kind rfl rfl fun _ => id), .inr hbracket, .inr hmark,
    .inr (quiet_of_kind rfl rfl fun _ => id), .inr (quiet_of_kind rfl rfl fun _ => id),
    List.forall_mem_nil _⟩

theorem telling_or_quiet_of_mem_tagArgs :
    ∀ rule ∈ tagArgs, Telling .tagArgs rule ∨ rule.Quiet := by
  have hnumbers : ∀ rule ∈ numbers, Telling .tagArgs rule ∨ rule.Quiet :=
    fun rule hrule => .inr (quiet_of_mem_numbers rule hrule)
  have hcomma : (taking .punctuation (literal ",")).Quiet := by
    refine quiet_of_takes rfl rfl (takes_literal ",") ?_
    rintro _ rfl hbar
    exact absurd (Option.some.inj hbar) (by decide)
  simp only [Rule.tagArgs, List.forall_mem_append, List.forall_mem_cons]
  exact ⟨⟨⟨.inl (.quoteOpening (.inr rfl)), .inr quiet_quoted, List.forall_mem_nil _⟩, hnumbers⟩,
    .inr (quiet_of_kind rfl rfl fun _ => id), .inr (quiet_of_kind rfl rfl fun _ => id), .inr hcomma,
    .inl .argumentsClosing, .inr (quiet_of_kind rfl rfl fun _ => id), List.forall_mem_nil _⟩

theorem telling_or_quiet_of_mem_doubleString :
    ∀ rule ∈ doubleString, Telling .doubleString rule ∨ rule.Quiet := by
  have hrun : (taking .string (run1 fun c => !isOneOf "\\\"$" c)).Quiet := by
    refine quiet_of_takes rfl rfl (takes_run1 _) ?_
    rintro _ ⟨-, hall⟩ rfl
    exact absurd (hall '"' (List.mem_cons_self ..)) (by decide)
  simp only [Rule.doubleString, List.forall_mem_cons]
  exact ⟨.inr (quiet_of_kind rfl rfl fun _ => id), .inr (quiet_of_kind rfl rfl fun _ => id),
    .inl .quoteClosing, .inr hrun, List.forall_mem_nil _⟩

theorem telling_or_quiet_of_mem_blockLiteral :
    ∀ rule ∈ blockLiteral, Telling .blockLiteral rule ∨ rule.Quiet := by
  have hline : Quiet { taking .string indentedLine with anchor := .lineStart } := by
    refine @quiet_of_takes _ .string indentedLine _ rfl rfl takes_indentedLine ?_
    rintro _ ⟨c, r, hc, rfl, -⟩ hquote
    obtain rfl : c = '"' := (List.cons.inj hquote).1
    exact absurd hc (by decide)
  simp only [Rule.blockLiteral, List.forall_mem_cons]
  exact ⟨.inr hline, .inr (quiet_of_kind rfl rfl fun _ => id), .inl .blockLeaving,
    List.forall_mem_nil _⟩

theorem telling_or_quiet_of_mem {mode : Mode} :
    ∀ rule ∈ mode.rules, Telling mode rule ∨ rule.Quiet := by
  cases mode with
  | root => exact telling_or_quiet_of_mem_root
  | tagArgs => exact telling_or_quiet_of_mem_tagArgs
  | doubleString => exact telling_or_quiet_of_mem_doubleString
  | blockLiteral => exact telling_or_quiet_of_mem_blockLiteral

end Rule

namespace Station

structure IsQuiet (s : Station) : Prop where
  change : s.reading.change = .stay
  text_ne_nil : s.reading.text ≠ []
  no_landmark : ∀ l ∈ s.reading.lexemes, ¬ l.kind.Landmark l.text

theorem LeftAlone.isQuiet {s : Station} {c : Char} (h : s.LeftAlone c) : s.IsQuiet := by
  refine ⟨?_, ?_, ?_⟩
  · rw [h.reading_eq]
  · rw [h.reading_eq]
    exact List.cons_ne_nil c []
  · rw [h.reading_eq, List.forall_mem_singleton]
    exact id

theorem ReadBy.isQuiet {s : Station} {rule : Rule} (h : s.ReadBy rule) (hq : rule.Quiet) :
    s.IsQuiet where
  change := h.change.trans hq.change
  text_ne_nil := h.text_ne_nil (by rw [hq.change]; decide)
  no_landmark := h.forall_lexemes (F := fun kind s => ¬ kind.Landmark s) hq.parts

theorem telling_or_isQuiet {s : Station} (hs : s.ahead ≠ []) :
    (∃ rule, Rule.Telling s.modes.top rule ∧ s.ReadBy rule) ∨ s.IsQuiet := by
  rcases readBy_or_leftAlone hs with ⟨rule, h⟩ | ⟨c, h⟩
  · rcases Rule.telling_or_quiet_of_mem rule h.mem with ht | hq
    · exact .inl ⟨rule, ht, h⟩
    · exact .inr (h.isQuiet hq)
  · exact .inr h.isQuiet

end Station
end Tony
