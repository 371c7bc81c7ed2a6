import Tony.Proofs.Beginning
import Tony.Proofs.Reading

/-!
How tokens are spelled. Main statement: the value of every token of a text is spelled as tokens of
its kind are. For comments this rests on the order of the rules, and for all else on what the
patterns of single rules take.
-/

namespace Tony

open Form (Run Segments QuotedBody)
open Pattern
open Unicode (isBlank)

namespace Form

def IsTagLetter (c : Char) : Prop :=
  c.isAlphanum ∨ c ∈ ['_', '.', '/', '+', '=', '~', '@', '$', '%', '^', '&', '-']

def IsArgumentLetter (c : Char) : Prop :=
  c.isAlphanum ∨ c ∈ ['_', '.', ':', '/', '+', '=', '~', '@', '$', '%', '^', '&', '*', '-']

def IsNameLetter (c : Char) : Prop :=
  isBlank c = false ∧ c ∉ ['[', ']', '{', '}', ':', ',', '!', '$', '.', '#', '"', '\'', '-']

def IsHexDigit (c : Char) : Prop :=
  c.isDigit ∨ ('a' ≤ c ∧ c ≤ 'f') ∨ ('A' ≤ c ∧ c ≤ 'F')

def Marked : Form := fun s =>
  ∃ w ∈ ["TODO", "FIXME", "XXX", "NOTE"], w.toList <:+: s

def Comment : Form := fun s =>
  s.head? = some '#' ∧ '\n' ∉ s

def Sign : Form := fun s =>
  s = [] ∨ s = ['-']

def marks : List (List Char) :=
  [['['], [']'], ['{'], ['}'], [':'], [','], ['-'], ['|'], ['|', '+'], ['|', '-']]

end Form

open Form

/-- The texts that tokens of a kind can have. -/
def Kind.Spelling : Kind → Form
  | .comment, s => Comment s ∧ ¬ Marked s
  | .commentSpecial, s =>
    (∃ w, (∀ c ∈ w, c = ' ' ∨ c = '\t') ∧ s = '-' :: '-' :: '-' :: w) ∨ Comment s ∧ Marked s
  | .operator, s => s = ['<', '<', ':']
  | .keyword, s =>
    s = [')'] ∨ ∃ name, Segments IsTagLetter name ∧ (s = '!' :: name ∨ s = '!' :: name ++ ['('])
  | .keywordConstant, s => s ∈ ["true".toList, "false".toList, "null".toList]
  | .variableName, s =>
    ∃ sigil name, (sigil = '$' ∨ sigil = '.') ∧ Run (· ≠ ']') name ∧
      s = sigil :: '[' :: name ++ [']']
  | .punctuation, s => s ∈ marks
  | .string, s =>
    s = ['"'] ∨ (∃ body, QuotedBody body ∧ s = '\'' :: body ++ ['\'']) ∨
      Run (· ∉ ['\\', '"', '$']) s ∨ ((∃ c ∈ s.head?, isBlank c) ∧ ∀ c ∈ s, c ≠ '\r' ∧ c ≠ '\n')
  | .stringEscape, s => ∃ c ∈ ['\\', '"', 'n', 'r', 't', 'b', 'f'], s = ['\\', c]
  | .numberHex, s =>
    ∃ sign x digits, Sign sign ∧ (x = 'x' ∨ x = 'X') ∧ Run IsHexDigit digits ∧
      s = sign ++ '0' :: x :: digits
  | .numberOctal, s =>
    ∃ sign x digits, Sign sign ∧ (x = 'o' ∨ x = 'O') ∧ Run (fun c => '0' ≤ c ∧ c ≤ '7') digits ∧
      s = sign ++ '0' :: x :: digits
  | .numberFloat, s =>
    ∃ sign whole part, Sign sign ∧ Run (Char.isDigit ·) whole ∧ Run (Char.isDigit ·) part ∧
      s = sign ++ whole ++ '.' :: part
  | .numberInteger, s =>
    ∃ sign digits, Sign sign ∧ Run (Char.isDigit ·) digits ∧ s = sign ++ digits
  | .name, s => Run IsNameLetter s ∨ Run IsArgumentLetter s
  | .plainText, s => Run (isBlank ·) s ∨ ∃ c, s = [c]

section Letters

variable {c : Char}

theorem isDigit_eq (c : Char) : isDigit c = c.isDigit := by
  simp only [isDigit, Char.isDigit, Char.le_def]

theorem isPlainLetter_eq (c : Char) : isPlainLetter c = (c.isAlphanum || c = '_') := by
  have hletter : c.isAlphanum = (c.isUpper || c.isLower || c.isDigit) := rfl
  have hupper : c.isUpper = decide (c.val ≥ 'A'.val ∧ c.val ≤ 'Z'.val) := rfl
  have hlower : c.isLower = (decide (c.val ≥ 'a'.val) && decide (c.val ≤ 'z'.val)) := rfl
  rw [hletter, hupper, hlower]
  simp only [isPlainLetter, isDigit_eq]
  grind [Char.le_def]

theorem isTagLetter_iff : isTagLetter c ↔ IsTagLetter c := by
  simp only [isTagLetter, isPlainLetter_eq, isOneOf, Bool.or_eq_true, decide_eq_true_eq,
    List.contains_iff_mem, IsTagLetter]
  simp [or_assoc]

theorem isArgumentLetter_iff : isArgumentLetter c ↔ IsArgumentLetter c := by
  simp only [isArgumentLetter, isPlainLetter_eq, isOneOf, Bool.or_eq_true, decide_eq_true_eq,
    List.contains_iff_mem, IsArgumentLetter]
  simp [or_assoc]

theorem isNameLetter_iff : isNameLetter c ↔ IsNameLetter c := by
  have hmarks : "[]\x7b\x7d:,!$.#\"'-".toList =
      ['[', ']', '{', '}', ':', ',', '!', '$', '.', '#', '"', '\'', '-'] := rfl
  rw [isNameLetter, isOneOf, hmarks, Bool.and_eq_true, Bool.not_eq_true', Bool.not_eq_true',
    ← Bool.not_eq_true (List.contains _ _), List.contains_iff_mem, IsNameLetter]

theorem isHexDigit_iff : isHexDigit c ↔ IsHexDigit c := by
  simp [isHexDigit, isDigit_eq, or_assoc, IsHexDigit]

theorem isOctalDigit_iff : isOctalDigit c ↔ '0' ≤ c ∧ c ≤ '7' := by
  simp [isOctalDigit]

end Letters

theorem occursIn_iff {w s : List Char} : occursIn w s ↔ w <:+: s := by
  induction s with
  | nil => rw [occursIn, List.isEmpty_iff, List.infix_nil]
  | cons c s ih =>
    rw [occursIn, Bool.or_eq_true, List.isPrefixOf_iff_prefix, ih, List.infix_cons_iff]

theorem hasMarker_iff {s : List Char} : hasMarker s ↔ Marked s := by
  rw [hasMarker, List.any_eq_true]
  exact exists_congr fun w => and_congr_right fun _ => occursIn_iff

namespace Rule

/-- What the parts of the rule take is spelled as tokens of their kinds are. A part that may take
nothing gives no token then. -/
def Spells (rule : Rule) : Prop :=
  ∀ part ∈ rule.parts, part.2.Takes fun s => s = [] ∨ part.1.Spelling s

theorem spells_taking {kind : Kind} {p : Pattern} {F : Form} (h : p.Takes F)
    (hF : ∀ s, F s → kind.Spelling s) : (taking kind p).Spells := by
  intro part hpart
  rw [List.mem_singleton.1 hpart]
  exact h.mono fun s hs => .inr (hF s hs)

theorem spells_openingQuote : openingQuote.Spells :=
  spells_taking (takes_literal "\"") fun _ hs => .inl hs

theorem spells_quoted : (taking .string quoted).Spells :=
  spells_taking takes_quoted fun _ hs => .inr (.inl hs)

theorem spells_constantWord : constantWord.Spells :=
  spells_taking takes_constant fun _ hs => hs

theorem spells_reference {sigil : String} {c : Char} (hsigil : sigil.toList = [c])
    (hc : c = '$' ∨ c = '.') : (taking .variableName (reference sigil)).Spells := by
  refine spells_taking (takes_reference sigil) ?_
  rintro s ⟨name, hname, rfl⟩
  exact ⟨c, name, hc, hname, by rw [hsigil]; rfl⟩

theorem spells_blanks : (taking .plainText blanks).Spells :=
  spells_taking (takes_run1 isBlank) fun _ hs => .inl hs

theorem spells_of_mem_numbers : ∀ rule ∈ numbers, rule.Spells := by
  simp only [numbers, List.forall_mem_cons]
  refine ⟨spells_taking (takes_basedNumber "xX" isHexDigit) ?_,
    spells_taking (takes_basedNumber "oO" isOctalDigit) ?_, spells_taking takes_floatNumber ?_,
    spells_taking takes_integerNumber ?_, List.forall_mem_nil _⟩
  · rintro _ ⟨sign, x, digits, hsign, hx, hdigits, rfl⟩
    have hx : x = 'x' ∨ x = 'X' := by simpa [isOneOf] using hx
    exact ⟨sign, x, digits, hsign, hx, hdigits.mono fun _ => isHexDigit_iff.1, rfl⟩
  · rintro _ ⟨sign, x, digits, hsign, hx, hdigits, rfl⟩
    have hx : x = 'o' ∨ x = 'O' := by simpa [isOneOf] using hx
    exact ⟨sign, x, digits, hsign, hx, hdigits.mono fun _ => isOctalDigit_iff.1, rfl⟩
  · rintro _ ⟨sign, whole, part, hsign, hwhole, hpart, rfl⟩
    simp only [isDigit_eq] at hwhole hpart
    exact ⟨sign, whole, part, hsign, hwhole, hpart, rfl⟩
  · rintro _ ⟨sign, digits, hsign, hdigits, rfl⟩
    simp only [isDigit_eq] at hdigits
    exact ⟨sign, digits, hsign, hdigits, rfl⟩

theorem takes_indent_spelling :
    indent.Takes fun s => s = [] ∨ Kind.plainText.Spelling s := by
  refine Takes.mono takes_indent fun s hs => ?_
  by_cases hnil : s = []
  · exact .inl hnil
  · exact .inr (.inl ⟨hnil, fun c hc => isBlank_of_indent (hs c hc)⟩)

theorem spells_separator {anchor : Anchor} {follow : Option Char → Bool} :
    Spells { taking .commentSpecial Pattern.separator with anchor, follow } := by
  exact @spells_taking .commentSpecial _ _ takes_separator fun _ hs => .inl hs

theorem spells_specialComment : (taking .commentSpecial (comment.passing hasMarker)).Spells := by
  refine spells_taking (takes_comment.passing hasMarker) ?_
  rintro _ ⟨⟨r, rfl, hr⟩, hmarker⟩
  exact .inr ⟨⟨rfl, by simp [hr]⟩, hasMarker_iff.1 hmarker⟩

theorem spells_tag {follow : Option Char → Bool} : Spells { taking .keyword tag with follow } := by
  refine @spells_taking .keyword _ _ takes_tag ?_
  rintro _ ⟨name, hname, rfl⟩
  exact .inr ⟨name, hname.mono fun _ => isTagLetter_iff.1, .inl rfl⟩

theorem spells_tagOpening {change : ModeChange} :
    Spells { taking .keyword (tag.andThen (literal "(")) with change } := by
  refine @spells_taking .keyword _ _ (takes_tag.andThen (takes_literal "(")) ?_
  rintro _ ⟨_, _, ⟨name, hname, rfl⟩, rfl, rfl⟩
  exact .inr ⟨name, hname.mono fun _ => isTagLetter_iff.1, .inr rfl⟩

theorem spells_mergeKey {anchor : Anchor} :
    Spells { parts := [(.plainText, indent), (.operator, literal "<<:")], anchor } := by
  simp only [Spells, List.forall_mem_cons]
  exact ⟨takes_indent_spelling, (takes_literal "<<:").mono fun _ hs => .inr hs,
    List.forall_mem_nil _⟩

theorem spells_blockMark {anchor : Anchor} {follow : Option Char → Bool} {change : ModeChange} :
    Spells
      { parts := [(.plainText, indent), (.punctuation, blockMark), (.plainText, indent)]
        anchor, follow, change } := by
  simp only [Spells, List.forall_mem_cons]
  have hmarks : ∀ s ∈ [['|'], ['|', '+'], ['|', '-']], s ∈ marks := by decide
  exact ⟨takes_indent_spelling, takes_blockMark.mono fun s hs => .inr (hmarks s hs),
    takes_indent_spelling, List.forall_mem_nil _⟩

theorem takes_one_marks {w : String} (hw : w.toList.all fun c => [c] ∈ marks) :
    (one (isOneOf w)).Takes (· ∈ marks) := by
  refine Takes.mono (takes_one _) ?_
  rintro _ ⟨c, hc, rfl⟩
  exact of_decide_eq_true (List.all_eq_true.1 hw c (List.contains_iff_mem.1 hc))

theorem spells_mark :
    Spells { parts := [(.punctuation, one (isOneOf ":,-")), (.plainText, blanks)] } := by
  simp only [Spells, List.forall_mem_cons]
  have hmark : (one (isOneOf ":,-")).Takes (· ∈ marks) := takes_one_marks (by decide)
  exact ⟨hmark.mono fun _ hs => .inr hs, (takes_run1 isBlank).mono fun _ hs => .inr (.inl hs),
    List.forall_mem_nil _⟩

theorem spells_of_mem_root : ∀ rule ∈ root, rule.Spells ∨ rule = taking .comment comment := by
  have hnumbers : ∀ rule ∈ numbers, rule.Spells ∨ rule = taking .comment comment :=
    fun rule hrule => .inl (spells_of_mem_numbers rule hrule)
  have hbracket : (taking .punctuation (one (isOneOf "[]\x7b\x7d"))).Spells :=
    spells_taking (takes_one_marks (by decide)) fun _ hs => hs
  have hname : (taking .name (run1 isNameLetter)).Spells :=
    spells_taking (takes_run1 isNameLetter) fun _ hs => .inl (hs.mono fun _ => isNameLetter_iff.1)
  simp only [Rule.root, List.forall_mem_append, List.forall_mem_cons]
  exact ⟨⟨⟨.inl spells_separator, .inl spells_specialComment, .inr trivial, .inl spells_mergeKey,
    .inl spells_tag, .inl spells_tagOpening, .inl (spells_reference rfl (.inl rfl)),
    .inl (spells_reference rfl (.inr rfl)), .inl spells_blockMark, .inl spells_openingQuote,
    .inl spells_quoted, List.forall_mem_nil _⟩, hnumbers⟩, .inl spells_constantWord, .inl hbracket,
    .inl spells_mark, .inl spells_blanks, .inl hname, List.forall_mem_nil _⟩

theorem spells_of_mem_tagArgs : ∀ rule ∈ tagArgs, rule.Spells := by
  have hname : (taking .name (run1 isArgumentLetter)).Spells :=
    spells_taking (takes_run1 isArgumentLetter) fun _ hs =>
      .inr (hs.mono fun _ => isArgumentLetter_iff.1)
  have hcomma : (taking .punctuation (literal ",")).Spells := by
    refine spells_taking (takes_literal ",") ?_
    rintro _ rfl
    show [','] ∈ marks
    decide
  have hclosing : Spells { taking .keyword (literal ")") with change := .pop } :=
    @spells_taking .keyword _ _ (takes_literal ")") fun _ hs => .inl hs
  simp only [Rule.tagArgs, List.forall_mem_append, List.forall_mem_cons]
  exact ⟨⟨⟨spells_openingQuote, spells_quoted, List.forall_mem_nil _⟩, spells_of_mem_numbers⟩,
    spells_constantWord, hname, hcomma, hclosing, spells_blanks, List.forall_mem_nil _⟩

theorem spells_of_mem_doubleString : ∀ rule ∈ doubleString, rule.Spells := by
  have hescaped : (taking .stringEscape escaped).Spells :=
    spells_taking takes_escaped fun _ hs => hs
  have hclosing : Spells { taking .string (literal "\"") with change := .pop } :=
    @spells_taking .string _ _ (takes_literal "\"") fun _ hs => .inl hs
  have hrun : (taking .string (run1 fun c => !isOneOf "\\\"$" c)).Spells := by
    refine spells_taking (takes_run1 _) fun s hs => .inr (.inr (.inl (hs.mono fun c hc hmem => ?_)))
    have hone : isOneOf "\\\"$" c = true := List.contains_iff_mem.2 hmem
    rw [hone] at hc
    cases hc
  simp only [Rule.doubleString, List.forall_mem_cons]
  exact ⟨hescaped, spells_reference rfl (.inl rfl), hclosing, hrun, List.forall_mem_nil _⟩

theorem spells_of_mem_blockLiteral : ∀ rule ∈ blockLiteral, rule.Spells := by
  have hline : Spells { taking .string indentedLine with anchor := .lineStart } := by
    refine @spells_taking .string _ _ takes_indentedLine ?_
    rintro _ ⟨c, r, hc, rfl, hr⟩
    refine .inr (.inr (.inr ⟨⟨c, rfl, hc⟩, fun d hd => not_or.1 fun hend => ?_⟩))
    have hfalse := hr d hd
    rw [isLineEnd_iff.2 hend] at hfalse
    cases hfalse
  have hbreak : (taking .plainText lineBreak).Spells :=
    spells_taking takes_lineBreak fun _ hs => .inl (blank_of_lineBreak hs)
  have hleave : Spells
      { taking .plainText nothing with
        anchor := .lineStart
        follow := beginsUnindented
        change := .pop } := by
    simp only [Spells, Rule.taking, List.forall_mem_cons]
    exact ⟨takes_nothing.mono fun _ hs => .inl hs, List.forall_mem_nil _⟩
  simp only [Rule.blockLiteral, List.forall_mem_cons]
  exact ⟨hline, hbreak, hleave, List.forall_mem_nil _⟩

theorem spells_of_mem {mode : Mode} :
    ∀ rule ∈ mode.rules, rule.Spells ∨ mode = .root ∧ rule = taking .comment comment := by
  intro rule h
  cases mode with
  | root => exact (spells_of_mem_root rule h).imp_right fun hcomment => ⟨rfl, hcomment⟩
  | tagArgs => exact .inl (spells_of_mem_tagArgs rule h)
  | doubleString => exact .inl (spells_of_mem_doubleString rule h)
  | blockLiteral => exact .inl (spells_of_mem_blockLiteral rule h)

end Rule

namespace Station

theorem spelling_of_comment {s : Station} (hm : s.modes.top = .root)
    (h : s.ReadBy (Rule.taking .comment comment)) :
    ∀ l ∈ s.reading.lexemes, l.kind.Spelling l.text := by
  obtain ⟨n, ms, hn, hms, hls⟩ := Rule.exists_of_lexemes?_cons h.lexemes
  have hhash : s.ahead.head? = some '#' := by
    by_contra hne
    rw [comment_eq_none hne] at hn
    cases hn
  obtain ⟨r, hr⟩ := List.head?_eq_some_iff.1 hhash
  have hreading := reading_of_comment hm hr
  have hkind : commentKind ('#' :: r.takeWhile (· ≠ '\n')) = .comment := by
    rw [hreading] at hls
    exact congrArg Lexeme.kind (List.cons.inj hls).1
  have hmarker : ¬ Marked ('#' :: r.takeWhile (· ≠ '\n')) := by
    intro hmarked
    rw [commentKind, if_pos (hasMarker_iff.2 hmarked)] at hkind
    cases hkind
  have hline : '\n' ∉ '#' :: r.takeWhile (· ≠ '\n') := by
    intro hmem
    rcases List.mem_cons.1 hmem with h | h
    · exact absurd h (by decide)
    · exact absurd (List.all_eq_true.1 List.all_takeWhile _ h) (by decide)
  rw [hreading, List.forall_mem_singleton, hkind]
  exact ⟨⟨rfl, hline⟩, hmarker⟩

theorem spelling_of_mem_lexemes {s : Station} (hs : s.ahead ≠ []) :
    ∀ l ∈ s.reading.lexemes, l.text = [] ∨ l.kind.Spelling l.text := by
  rcases readBy_or_leftAlone hs with ⟨rule, h⟩ | ⟨c, h⟩
  · rcases Rule.spells_of_mem rule h.mem with hspells | ⟨hm, rfl⟩
    · exact h.forall_lexemes (F := fun kind s => s = [] ∨ kind.Spelling s) hspells
    · exact fun l hl => .inr (spelling_of_comment hm h l hl)
  · rw [h.reading_eq, List.forall_mem_singleton]
    exact .inr (.inr ⟨c, rfl⟩)

end Station

/-- Every token of a text is spelled as tokens of its kind are. -/
theorem spelling_of_mem_tokenize (source : List Char) :
    ∀ t ∈ tokenize source, t.kind.Spelling t.value := by
  intro t ht
  rw [tokenize_eq] at ht
  obtain ⟨s, hs, ht⟩ := List.mem_flatMap.1 ht
  have hahead := Station.ahead_ne_nil_of_mem_stations hs
  obtain ⟨l, hl, hne, hkind, hvalue⟩ := Lexeme.exists_of_mem_layout ht
  rw [hkind, hvalue]
  exact (Station.spelling_of_mem_lexemes hahead l hl).resolve_left hne

theorem spelling_of_mem_tokenize_quoted :
    let source := ['!', 'a', ':', 'b', '(', '\'', '\\', '\'', '\n', '\'', ')']
    ⟨.string, ['\'', '\\', '\'', '\n', '\''], ⟨5, 10⟩⟩ ∈ tokenize source ∧
      Kind.string.Spelling ['\'', '\\', '\'', '\n', '\''] := by
  intro source
  have hmem : ⟨.string, ['\'', '\\', '\'', '\n', '\''], ⟨5, 10⟩⟩ ∈ tokenize source := by
    rw [tokenize_eq]
    decide +kernel
  exact ⟨hmem, spelling_of_mem_tokenize source _ hmem⟩

end Tony
