import Tony.Proofs.BlockReading
import Tony.Proofs.LineMark
import Tony.Proofs.Numeral
import Tony.Proofs.Tag

/-!
Where the rules have a gap. Main statement: for each mode there are a few places where no rule
reads anything, and at these the lexer hands out one character as plain text and goes on in the
same modes.
-/

namespace Tony

open Form (TagName IsArgumentLetter Quoted Reference)
open Pattern
open Text (bytes)
open Unicode (isBlank)

def OpensSeparator (u s : List Char) : Prop :=
  (∀ c ∈ u.getLast?, c = '\n') ∧
    ∃ w v, s = '-' :: '-' :: '-' :: w ++ v ∧ (∀ c ∈ w, c = ' ' ∨ c = '\t') ∧
      ∀ c ∈ v.head?, c = '\r' ∨ c = '\n'

/-- The gaps in the rules of a mode: between the text `u` and the text `r` no rule reads the
character. -/
inductive Mode.Gap (u : List Char) : Mode → Char → List Char → Prop
  | tag {name rest r : List Char} (text : r = name ++ rest) (longest : TagName.Longest r name)
      (stop : name = [] ∨
        ∃ d ∈ rest.head?, isBlank d = false ∧ d ∉ [':', '[', '{', ',', '(']) : Gap u .root '!' r
  | mark {c : Char} {r : List Char} (here : c = ':' ∨ c = ',')
      (next : ∀ d ∈ r.head?, isBlank d = false) : Gap u .root c r
  | dash {r : List Char} (next : ∀ d ∈ r.head?, isBlank d = false ∧ d.isDigit = false)
      (separator : ¬ OpensSeparator u ('-' :: r)) : Gap u .root '-' r
  | reference {mode : Mode} {c : Char} {r : List Char}
      (here : mode = .root ∧ (c = '$' ∨ c = '.') ∨ mode = .doubleString ∧ c = '$')
      (absent : (Reference c).Absent (c :: r)) : Gap u mode c r
  | quote {mode : Mode} {r : List Char} (here : mode = .root ∨ mode = .tagArgs)
      (absent : Quoted.Absent ('\'' :: r)) : Gap u mode '\'' r
  | argument {c : Char} {r : List Char} (blank : isBlank c = false) (letter : ¬ IsArgumentLetter c)
      (mark : c ∉ ['"', '\'', ',', ')']) : Gap u .tagArgs c r
  | escape {r : List Char} (next : ∀ d ∈ r.head?, d ∉ ['\\', '"', 'n', 'r', 't', 'b', 'f']) :
      Gap u .doubleString '\\' r
  | block {c : Char} {r : List Char} (feed : c ≠ '\n') (ret : c = '\r' → r.head? ≠ some '\n')
      (inside : c = '\r' ∨ ∃ d ∈ u.getLast?, d ≠ '\n') : Gap u .blockLiteral c r

namespace Pattern

theorem run1_eq_none_iff {q : Char → Bool} {s : List Char} :
    run1 q s = none ↔ ∀ c ∈ s.head?, q c = false := by
  cases s with
  | nil => exact ⟨fun _ => nofun, fun _ => rfl⟩
  | cons c s =>
    refine ⟨fun h d hd => ?_, fun h => run1_eq_none (h c rfl)⟩
    obtain rfl := Option.some.inj hd
    by_contra hq
    rw [run1_cons (eq_true_of_ne_false hq)] at h
    cases h

theorem escaped_eq_none_iff {r : List Char} :
    escaped ('\\' :: r) = none ↔ ∀ d ∈ r.head?, d ∉ ['\\', '"', 'n', 'r', 't', 'b', 'f'] := by
  cases r with
  | nil => exact iff_of_true rfl nofun
  | cons d r =>
    have hletters : isOneOf "\\\"nrtbf" d ↔ d ∈ ['\\', '"', 'n', 'r', 't', 'b', 'f'] :=
      List.contains_iff_mem
    have hescaped : escaped ('\\' :: d :: r) =
        ((if isOneOf "\\\"nrtbf" d then some 1 else none).bind fun n => some (n + 0)).map
          fun n => 1 + n := rfl
    rw [hescaped]
    by_cases hd : isOneOf "\\\"nrtbf" d
    · rw [if_pos hd]
      exact iff_of_false nofun fun h => h d rfl (hletters.1 hd)
    · rw [if_neg hd]
      refine iff_of_true rfl fun e he => ?_
      obtain rfl := Option.some.inj he
      exact mt hletters.2 hd

end Pattern

namespace Rule

variable {rule : Rule} {depth : Nat} {passed s : List Char}

def spacedMark : Rule where
  parts := [(.punctuation, one (isOneOf ":,-")), (.plainText, blanks)]

theorem read?_spacedMark_eq_none_iff {c : Char} {r : List Char} (hc : isOneOf ":,-" c) :
    spacedMark.read? depth passed (c :: r) = none ↔ ∀ d ∈ r.head?, isBlank d = false := by
  have hmark : one (isOneOf ":,-") ([c] ++ r) = some 1 := if_pos hc
  rw [← run1_eq_none_iff]
  change _ ↔ blanks r = none
  cases hblanks : blanks r with
  | none =>
    have hnone : lexemes? spacedMark.parts ([c] ++ r) = none := by
      show lexemes? [(.punctuation, one (isOneOf ":,-")), (.plainText, blanks)] ([c] ++ r) = none
      rw [lexemes?, hmark]
      show (lexemes? [(.plainText, blanks)] r).map _ = none
      rw [lexemes?_eq_none hblanks]
      rfl
    exact ⟨fun _ => rfl, fun _ => read?_eq_none hnone depth passed⟩
  | some n =>
    have hrest : lexemes? [(.plainText, blanks)] r = some ([⟨.plainText, r.take n⟩], r.drop n) := by
      rw [lexemes?, hblanks]
      rfl
    have hlexemes : lexemes? spacedMark.parts ([c] ++ r) =
        some ([⟨.punctuation, [c]⟩, ⟨.plainText, r.take n⟩], r.drop n) :=
      lexemes?_cons_of_append hmark hrest
    exact iff_of_false (fun h => absurd rfl (read?_eq_none_iff.1 h _ _ rfl hlexemes rfl))
      (Option.some_ne_none n)

theorem read?_separator_eq_none_iff :
    separator.read? depth passed s = none ↔ ¬ OpensSeparator passed.reverse s := by
  constructor
  · rintro h ⟨hline, w, v, rfl, hw, hv⟩
    have hfollow : separator.follow v.head? := by
      cases v with
      | nil => rfl
      | cons c v => exact isLineEnd_iff.2 (hv c rfl)
    rw [read?_of_append separator depth passed rfl (Anchor.holds_lineStart_iff.2 hline)
      (separator_append hw hv) hfollow (List.cons_ne_nil _ _)] at h
    cases h
  · intro h
    rw [read?_eq_none_iff]
    intro ls rest ha hl hf _
    obtain ⟨n, ms, hn, hms, rfl⟩ := exists_of_lexemes?_cons hl
    obtain ⟨-, hrest⟩ := Prod.mk.inj (Option.some.inj hms)
    obtain ⟨w, hw, htake⟩ := takes_separator s n hn
    refine h ⟨Anchor.holds_lineStart_iff.1 ha, w, rest, ?_, hw, Station.stop_of_endsLine hf⟩
    rw [← htake, ← hrest, List.take_append_drop]

end Rule

namespace Station

variable {s : Station} {c : Char} {r : List Char}

theorem reading?_ne_none_of_mem {rule : Rule} {reading : Reading}
    (hmem : rule ∈ s.modes.top.rules)
    (hread : rule.read? s.modes.depth s.passed s.ahead = some reading) : s.reading? ≠ none := by
  intro h
  rw [List.findSome?_eq_none_iff.1 h rule hmem] at hread
  cases hread

theorem reading?_ne_none_of_literal {mode : Mode} {rule : Rule} {kind : Kind} {w : String}
    (hm : s.modes.top = mode) (hmem : rule ∈ mode.rules) (hparts : rule.parts = [(kind, literal w)])
    (hanchor : rule.anchor = .anywhere) (hfollow : rule.follow r.head?) (hw : w.toList = [c])
    (hs : s.ahead = c :: r) : s.reading? ≠ none := by
  have hp : literal w ([c] ++ r) = some [c].length := by
    unfold literal
    rw [hw]
    exact if_pos (List.isPrefixOf_iff_prefix.2 (List.prefix_append [c] r))
  have hread := Rule.read?_of_append rule s.modes.depth s.passed hparts (by rw [hanchor]; rfl) hp
    hfollow (List.cons_ne_nil c [])
  have hahead : s.ahead = [c] ++ r := hs
  rw [← hahead] at hread
  rw [← hm] at hmem
  exact reading?_ne_none_of_mem hmem hread

section Root

variable (hm : s.modes.top = .root)

include hm

theorem reading?_eq_none_iff_of_bang (hs : s.ahead = '!' :: r) :
    s.reading? = none ↔ Mode.Gap s.passed.reverse .root '!' r := by
  obtain ⟨name, rest, rfl, hlongest, hname⟩ := exists_tagName r
  rw [reading?_of_bang_eq_none_iff hm hs hname]
  refine ⟨fun h => .tag rfl hlongest h, fun h => ?_⟩
  cases h with
  | tag text longest stop =>
    obtain rfl := hlongest.eq longest
    obtain rfl := List.append_cancel_left text
    exact stop
  | mark here _ => rcases here with h | h <;> cases h
  | reference here _ => rcases here with ⟨-, h | h⟩ | ⟨h, -⟩ <;> cases h

theorem reading?_eq_none_iff_of_mark (hc : c = ':' ∨ c = ',') (hs : s.ahead = c :: r) :
    s.reading? = none ↔ ∀ d ∈ r.head?, isBlank d = false := by
  have hrow : s.modes.top.candidates c = [Rule.spacedMark] := by
    rcases hc with rfl | rfl <;> rw [hm] <;> rfl
  have hmark : isOneOf ":,-" c := by rcases hc with rfl | rfl <;> rfl
  rw [reading?_eq_candidates hs, hrow, List.findSome?_singleton, hs,
    Rule.read?_spacedMark_eq_none_iff hmark]

theorem reading?_eq_none_iff_of_dash (hs : s.ahead = '-' :: r) :
    s.reading? = none ↔
      (∀ d ∈ r.head?, isBlank d = false ∧ d.isDigit = false) ∧
        ¬ OpensSeparator s.passed.reverse ('-' :: r) := by
  have hrow : Mode.root.candidates '-' =
      [Rule.separator] ++ (Rule.numbers ++ [Rule.spacedMark]) := rfl
  rw [reading?_eq_candidates hs, hm, hrow, List.findSome?_append, List.findSome?_append,
    Option.or_eq_none_iff, Option.or_eq_none_iff, List.findSome?_singleton,
    List.findSome?_singleton, hs, Rule.read?_separator_eq_none_iff, Rule.numbers_eq_none_iff,
    Form.numberHead_minus_iff, Rule.read?_spacedMark_eq_none_iff rfl]
  constructor
  · rintro ⟨hseparator, hdigit, hblank⟩
    exact ⟨fun d hd => ⟨hblank d hd, Bool.eq_false_iff.2 fun h => hdigit ⟨d, hd, h⟩⟩, hseparator⟩
  · rintro ⟨hnext, hseparator⟩
    refine ⟨hseparator, ?_, fun d hd => (hnext d hd).1⟩
    rintro ⟨d, hd, hdigit⟩
    rw [(hnext d hd).2] at hdigit
    cases hdigit

theorem reading?_eq_none_iff_of_root (hs : s.ahead = c :: r) :
    s.reading? = none ↔ Mode.Gap s.passed.reverse .root c r := by
  constructor
  · intro h
    -- Blanks, letters of names and brackets are read whatever is behind them. The marks are left.
    have hblank : isBlank c = false := by
      by_contra hblank
      exact reading?_ne_none_of_blank hs (eq_true_of_ne_false hblank) (by rw [hm]; decide) h
    have hmark : c ∈ ['[', ']', '{', '}', ':', ',', '!', '$', '.', '#', '"', '\'', '-'] := by
      by_contra hmark
      have hname : Rule.taking .name (run1 isNameLetter) ∈ s.modes.top.rules := by
        rw [hm]
        simp [Mode.rules, Rule.root]
      exact reading?_ne_none_of_run1 hname hs (isNameLetter_iff.2 ⟨hblank, hmark⟩) h
    have hbracket : ¬ isOneOf "[]\x7b\x7d" c := by
      intro hbracket
      have hmem : Rule.taking .punctuation (one (isOneOf "[]\x7b\x7d")) ∈ s.modes.top.rules := by
        rw [hm]
        simp [Mode.rules, Rule.root]
      refine reading?_ne_none_of_taking (n := 1) hmem ?_ ?_ h
      · rw [hs]
        exact if_pos hbracket
      · rw [hs]
        exact List.cons_ne_nil _ _
    simp only [List.mem_cons, List.not_mem_nil, or_false] at hmark
    rcases hmark with rfl | rfl | rfl | rfl | rfl | rfl | rfl | rfl | rfl | rfl | rfl | rfl | rfl
    · exact absurd rfl hbracket
    · exact absurd rfl hbracket
    · exact absurd rfl hbracket
    · exact absurd rfl hbracket
    · exact .mark (.inl rfl) ((reading?_eq_none_iff_of_mark hm (.inl rfl) hs).1 h)
    · exact .mark (.inr rfl) ((reading?_eq_none_iff_of_mark hm (.inr rfl) hs).1 h)
    · exact (reading?_eq_none_iff_of_bang hm hs).1 h
    · have habsent := (reading?_eq_none_iff_of_reference hs (.inl ⟨hm, .inl rfl⟩)).1 h
      exact .reference (.inl ⟨rfl, .inl rfl⟩) habsent
    · have habsent := (reading?_eq_none_iff_of_reference hs (.inl ⟨hm, .inr rfl⟩)).1 h
      exact .reference (.inl ⟨rfl, .inr rfl⟩) habsent
    · rw [reading?_of_comment hm hs] at h
      cases h
    · have hmem : Rule.openingQuote ∈ Mode.root.rules := by simp [Mode.rules, Rule.root]
      exact absurd h (reading?_ne_none_of_literal hm hmem rfl rfl rfl rfl hs)
    · exact .quote (.inl rfl) ((reading?_eq_none_iff_of_quote hs (.inl hm)).1 h)
    · obtain ⟨hnext, hseparator⟩ := (reading?_eq_none_iff_of_dash hm hs).1 h
      exact .dash hnext hseparator
  · intro h
    cases h with
    | tag text longest stop =>
      exact (reading?_eq_none_iff_of_bang hm hs).2 (.tag text longest stop)
    | mark here next => exact (reading?_eq_none_iff_of_mark hm here hs).2 next
    | dash next separator => exact (reading?_eq_none_iff_of_dash hm hs).2 ⟨next, separator⟩
    | reference here absent =>
      refine (reading?_eq_none_iff_of_reference hs ?_).2 absent
      rw [hm]
      exact here
    | quote _ absent => exact (reading?_eq_none_iff_of_quote hs (.inl hm)).2 absent

end Root

theorem reading?_eq_none_iff_of_tagArgs (hm : s.modes.top = .tagArgs) (hs : s.ahead = c :: r) :
    s.reading? = none ↔ Mode.Gap s.passed.reverse .tagArgs c r := by
  constructor
  · intro h
    have hblank : isBlank c = false := by
      by_contra hblank
      exact reading?_ne_none_of_blank hs (eq_true_of_ne_false hblank) (by rw [hm]; decide) h
    have hletter : ¬ IsArgumentLetter c := by
      intro hletter
      have hname : Rule.taking .name (run1 isArgumentLetter) ∈ s.modes.top.rules := by
        rw [hm]
        simp [Mode.rules, Rule.tagArgs]
      exact reading?_ne_none_of_run1 hname hs (isArgumentLetter_iff.2 hletter) h
    by_cases hmark : c ∈ ['"', '\'', ',', ')']
    · simp only [List.mem_cons, List.not_mem_nil, or_false] at hmark
      rcases hmark with rfl | rfl | rfl | rfl
      · have hmem : Rule.openingQuote ∈ Mode.tagArgs.rules := by simp [Mode.rules, Rule.tagArgs]
        exact absurd h (reading?_ne_none_of_literal hm hmem rfl rfl rfl rfl hs)
      · exact .quote (.inr rfl) ((reading?_eq_none_iff_of_quote hs (.inr hm)).1 h)
      · have hmem : Rule.taking .punctuation (literal ",") ∈ Mode.tagArgs.rules := by
          simp [Mode.rules, Rule.tagArgs]
        exact absurd h (reading?_ne_none_of_literal hm hmem rfl rfl rfl rfl hs)
      · have hmem : Rule.argumentsClosing ∈ Mode.tagArgs.rules := by
          simp [Mode.rules, Rule.tagArgs, Rule.argumentsClosing]
        exact absurd h (reading?_ne_none_of_literal hm hmem rfl rfl rfl rfl hs)
    · exact .argument hblank hletter hmark
  · intro h
    cases h with
    | reference here _ => rcases here with ⟨h, -⟩ | ⟨h, -⟩ <;> cases h
    | quote _ absent => exact (reading?_eq_none_iff_of_quote hs (.inr hm)).2 absent
    | argument blank letter mark =>
      have hletter : isArgumentLetter c = false :=
        Bool.eq_false_iff.2 (mt isArgumentLetter_iff.1 letter)
      have hnumber : isNumberHead c = false := by
        refine Bool.eq_false_iff.2 fun h => letter ?_
        rcases Bool.or_eq_true_iff.1 h with h | h
        · rw [of_decide_eq_true h]
          exact .inr (by decide)
        · rw [isDigit_eq] at h
          exact .inl (by rw [Char.isAlphanum, h, Bool.or_true])
      have hword : isOneOf "tfn" c = false := by
        refine Bool.eq_false_iff.2 fun h => letter ?_
        have hmem : c ∈ ['t', 'f', 'n'] := List.contains_iff_mem.1 h
        simp only [List.mem_cons, List.not_mem_nil, or_false] at hmem
        rcases hmem with rfl | rfl | rfl <;> exact .inl rfl
      simp only [List.mem_cons, List.not_mem_nil, or_false, not_or] at mark
      obtain ⟨hquote, hsingle, hcomma, hparen⟩ := mark
      refine reading?_eq_none_of_heads hs ?_
      rw [hm]
      simp only [Mode.heads, List.forall_mem_cons]
      exact ⟨decide_eq_false hquote, decide_eq_false hsingle, hnumber, hnumber, hnumber, hnumber,
        hword, hletter, decide_eq_false hcomma, decide_eq_false hparen, blank,
        List.forall_mem_nil _⟩

theorem reading?_eq_none_iff_of_doubleString (hm : s.modes.top = .doubleString)
    (hs : s.ahead = c :: r) :
    s.reading? = none ↔ Mode.Gap s.passed.reverse .doubleString c r := by
  have hescape : c = '\\' → (s.reading? = none ↔ escaped (c :: r) = none) := by
    rintro rfl
    have hrow : s.modes.top.candidates '\\' = [Rule.taking .stringEscape escaped] := by
      rw [hm]
      rfl
    refine reading?_eq_none_iff_of_taking hs hrow takes_escaped ?_
    rintro ⟨c, -, h⟩
    cases h
  constructor
  · intro h
    have hmark : isOneOf "\\\"$" c := by
      by_contra hmark
      rw [reading?_of_plain hm hs (Bool.eq_false_iff.2 hmark)] at h
      cases h
    have hmark : c ∈ ['\\', '"', '$'] := List.contains_iff_mem.1 hmark
    simp only [List.mem_cons, List.not_mem_nil, or_false] at hmark
    rcases hmark with rfl | rfl | rfl
    · exact .escape (escaped_eq_none_iff.1 ((hescape rfl).1 h))
    · have hmem : Rule.quoteClosing ∈ Mode.doubleString.rules := by
        simp [Mode.rules, Rule.doubleString, Rule.quoteClosing]
      exact absurd h (reading?_ne_none_of_literal hm hmem rfl rfl rfl rfl hs)
    · have habsent := (reading?_eq_none_iff_of_reference hs (.inr ⟨hm, rfl⟩)).1 h
      exact .reference (.inr ⟨rfl, rfl⟩) habsent
  · intro h
    cases h with
    | reference here absent =>
      refine (reading?_eq_none_iff_of_reference hs ?_).2 absent
      rw [hm]
      exact here
    | quote here _ => rcases here with h | h <;> cases h
    | escape next => exact (hescape rfl).2 (escaped_eq_none_iff.2 next)

theorem reading?_eq_none_iff_of_blockLiteral (hm : s.modes.top = .blockLiteral)
    (hdepth : 1 < s.modes.depth) (hs : s.ahead = c :: r) :
    s.reading? = none ↔ Mode.Gap s.passed.reverse .blockLiteral c r := by
  constructor
  · intro h
    have hne : s.ahead ≠ [] := by
      rw [hs]
      exact List.cons_ne_nil c r
    cases blockTurn hm hne hdepth with
    | leaving _ reading | line _ _ _ _ _ reading | lineBreak _ _ reading =>
      rw [reading] at h
      cases h
    | stray ahead feed ret inside _ =>
      obtain ⟨rfl, rfl⟩ := List.cons.inj (hs.symm.trans ahead)
      refine .block feed ret (inside.imp_right fun hline => ?_)
      by_contra hnone
      refine hline (Anchor.holds_lineStart_iff.2 fun d hd => ?_)
      by_contra hne
      exact hnone ⟨d, hd, hne⟩
  · intro h
    cases h with
    | reference here _ => rcases here with ⟨h, -⟩ | ⟨h, -⟩ <;> cases h
    | quote here _ => rcases here with h | h <;> cases h
    | block feed ret inside =>
      refine reading?_of_stray hm hs feed ret (inside.imp_right ?_)
      rintro ⟨d, hd, hne⟩ hline
      exact hne (Anchor.holds_lineStart_iff.1 hline d hd)

end Station

namespace Lexer

/-- Where no rule reads anything, and what becomes of the character there. -/
theorem Reached.fallThrough {source u r : List Char} {l : Lexer} {c : Char} (h : l.Reached source)
    (hp : l.pending = []) (hsource : source = u ++ c :: r) (hpos : l.pos = bytes u) :
    (l.reading? = none ↔ l.mode.Gap u c r) ∧
      (l.mode.Gap u c r → l.Gives .plainText [c] l.modes) := by
  have htext : l.cursor.text = u ++ c :: r := by
    rw [← hsource]
    exact h.text_eq
  obtain ⟨hskew, rfl, hahead⟩ := Text.Cursor.cut_of_pos htext hpos
  have husual := h.modes_mem_usual
  obtain ⟨s, hs, hl⟩ : ∃ s : Station, s.ahead = c :: r ∧ l = s.lexer [] :=
    ⟨l.station, hahead, eq_lexer hskew rfl hp⟩
  subst hl
  have hiff : s.reading? = none ↔ s.modes.top.Gap s.passed.reverse c r := by
    cases hm : s.modes.top with
    | root => exact Station.reading?_eq_none_iff_of_root hm hs
    | tagArgs => exact Station.reading?_eq_none_iff_of_tagArgs hm hs
    | doubleString => exact Station.reading?_eq_none_iff_of_doubleString hm hs
    | blockLiteral =>
      have hdepth : 1 < s.modes.depth := ModeStack.one_lt_depth_of_blockLiteral husual hm
      exact Station.reading?_eq_none_iff_of_blockLiteral hm hdepth hs
  exact ⟨hiff, fun hgap => Station.gives_of_none hs (hiff.2 hgap)⟩

theorem Reached.fallThrough_dashes :
    let source := ['-', '-', '-', 'x']
    (ofText source).Reached source ∧ (ofText source).pending = [] ∧
      (ofText source).pos = bytes [] ∧ (ofText source).reading? = none ∧
      (ofText source).Gives .plainText ['-'] {} := by
  intro source
  have hreached : (ofText source).Reached source := .session .start
  obtain ⟨hiff, hgives⟩ := fallThrough hreached (u := []) rfl rfl rfl
  have hgap : Mode.root.Gap [] '-' ['-', '-', 'x'] := by
    refine .dash (fun d hd => ?_) ?_
    · obtain rfl := Option.some.inj hd
      exact ⟨rfl, rfl⟩
    · rintro ⟨-, w, v, htext, hw, hv⟩
      cases w with
      | nil =>
        obtain rfl : ['x'] = v := (List.cons.inj (List.cons.inj (List.cons.inj htext).2).2).2
        exact absurd (hv 'x' rfl) (by decide)
      | cons c w =>
        obtain ⟨rfl, -⟩ :=
          List.cons.inj (List.cons.inj (List.cons.inj (List.cons.inj htext).2).2).2
        exact absurd (hw 'x' (List.mem_cons_self ..)) (by decide)
  exact ⟨hreached, rfl, rfl, hiff.2 hgap, hgives hgap⟩

end Lexer
end Tony
