import Tony.Proofs.Landmark
import Tony.Proofs.Longest

/-!
The first character of a text tells which rules can read it. Main statement: a round reads what the
first of these candidates reads, and for most characters there are one or two of them.
-/

namespace Tony

open Form (Quoted Reference)
open Pattern
open Text (bytes)
open Unicode (isBlank)

namespace Pattern

def BeginsIn (p : Pattern) (q : Char → Bool) : Prop :=
  ∀ (c : Char) (r : List Char), q c = false → p (c :: r) = none

section BeginsIn

variable {p p' : Pattern} {q q' : Char → Bool}

theorem beginsIn_literal {w : String} {c : Char} (hw : w.toList.head? = some c) :
    (literal w).BeginsIn fun d => d = c := by
  intro d r hd
  exact literal_eq_none hw fun h => of_decide_eq_false hd (Option.some.inj h)

theorem beginsIn_one (q : Char → Bool) : (one q).BeginsIn q := by
  intro c r hc
  exact if_neg (by rw [hc]; decide)

theorem beginsIn_run1 (q : Char → Bool) : (run1 q).BeginsIn q :=
  fun _ _ hc => run1_eq_none hc

theorem BeginsIn.andThen (hp : p.BeginsIn q) : (p.andThen p').BeginsIn q :=
  fun c r hc => andThen_eq_none (hp c r hc)

theorem BeginsIn.passing (hp : p.BeginsIn q) (test : List Char → Bool) :
    (p.passing test).BeginsIn q :=
  fun c r hc => passing_eq_none (hp c r hc) test

theorem beginsIn_firstOf {ps : List Pattern} (h : ∀ p ∈ ps, p.BeginsIn q) :
    (firstOf ps).BeginsIn q := by
  intro c r hc
  exact List.findSome?_eq_none_iff.2 fun p hp => h p hp c r hc

theorem BeginsIn.mono (hp : p.BeginsIn q) (hqq : ∀ c, q c → q' c) : p.BeginsIn q' := by
  intro c r hc
  refine hp c r (Bool.eq_false_iff.2 fun h => ?_)
  rw [hqq c h] at hc
  cases hc

theorem BeginsIn.optional (hp : ∀ c r, q c = false → p (c :: r) = some 0) (hp' : p'.BeginsIn q') :
    (p.andThen p').BeginsIn fun c => q c || q' c := by
  intro c r hc
  obtain ⟨hq, hq'⟩ := Bool.or_eq_false_iff.1 hc
  have hnone : p' ((c :: r).drop 0) = none := hp' c r hq'
  unfold Pattern.andThen
  rw [hp c r hq, Option.bind_some, hnone]
  rfl

theorem minus_eq_zero (c : Char) (r : List Char) (hc : decide (c = '-') = false) :
    minus (c :: r) = some 0 := by
  unfold minus Pattern.maybe
  rw [beginsIn_literal (w := "-") rfl c r hc]
  rfl

theorem indent_eq_zero (c : Char) (r : List Char) (hc : isIndent c = false) :
    indent (c :: r) = some 0 := by
  unfold indent run
  rw [List.takeWhile_cons, hc]
  rfl

theorem beginsIn_quoted : quoted.BeginsIn fun c => c = '\'' := by
  intro c r hc
  exact if_neg (of_decide_eq_false hc)

end BeginsIn

def isNumberHead (c : Char) : Bool :=
  c = '-' || isDigit c

end Pattern

namespace Rule

def BeginsIn (rule : Rule) (q : Char → Bool) : Prop :=
  ∀ (c : Char) (r : List Char), q c = false → lexemes? rule.parts (c :: r) = none

variable {rule : Rule} {kind : Kind} {p : Pattern} {parts : List (Kind × Pattern)}
  {q : Char → Bool}

theorem beginsIn_of_parts (hparts : rule.parts = (kind, p) :: parts) (hp : p.BeginsIn q) :
    rule.BeginsIn q := by
  intro c r hc
  rw [hparts]
  exact lexemes?_eq_none (hp c r hc)

theorem beginsIn_of_indent {kind' : Kind}
    (hparts : rule.parts = (kind', indent) :: (kind, p) :: parts) (hp : p.BeginsIn q) :
    rule.BeginsIn fun c => isIndent c || q c := by
  intro c r hc
  obtain ⟨hindent, hq⟩ := Bool.or_eq_false_iff.1 hc
  have hnone : lexemes? ((kind, p) :: parts) ((c :: r).drop 0) = none :=
    lexemes?_eq_none (hp c r hq)
  rw [hparts, lexemes?, indent_eq_zero c r hindent, Option.bind_some, hnone]
  rfl

end Rule

namespace Mode

/-- For each rule of a mode, the characters that the texts which it reads begin with. -/
def heads : Mode → List (Char → Bool)
  | root =>
    [fun c => c = '-', fun c => c = '#', fun c => c = '#', fun c => isIndent c || c = '<',
      fun c => c = '!', fun c => c = '!', fun c => c = '$', fun c => c = '.',
      fun c => isIndent c || c = '|', fun c => c = '"', fun c => c = '\'', isNumberHead,
      isNumberHead, isNumberHead, isNumberHead, isOneOf "tfn", isOneOf "[]\x7b\x7d",
      isOneOf ":,-", isBlank, isNameLetter]
  | tagArgs =>
    [fun c => c = '"', fun c => c = '\'', isNumberHead, isNumberHead, isNumberHead, isNumberHead,
      isOneOf "tfn", isArgumentLetter, fun c => c = ',', fun c => c = ')', isBlank]
  | doubleString =>
    [fun c => c = '\\', fun c => c = '$', fun c => c = '"', fun c => !isOneOf "\\\"$" c]
  | blockLiteral => [fun c => isBlank c && !isLineEnd c, isLineEnd, fun _ => true]

def table (m : Mode) : List (Rule × (Char → Bool)) :=
  m.rules.zip m.heads

theorem map_fst_table (m : Mode) : m.table.map Prod.fst = m.rules := by
  cases m <;> rfl

theorem beginsIn_numbers :
    ∀ x ∈ Rule.numbers.zip (List.replicate 4 isNumberHead), x.1.BeginsIn x.2 := by
  have hzero : (literal "0").BeginsIn isDigit := by
    refine (beginsIn_literal rfl).mono fun c hc => ?_
    rw [of_decide_eq_true hc]
    rfl
  have hdigits := beginsIn_run1 isDigit
  show ∀ x ∈ [_, _, _, _], _
  simp only [List.forall_mem_cons]
  exact ⟨Rule.beginsIn_of_parts rfl (.optional minus_eq_zero hzero.andThen),
    Rule.beginsIn_of_parts rfl (.optional minus_eq_zero hzero.andThen),
    Rule.beginsIn_of_parts rfl (.optional minus_eq_zero hdigits.andThen),
    Rule.beginsIn_of_parts rfl (.optional minus_eq_zero hdigits.andThen), List.forall_mem_nil _⟩

theorem beginsIn_constant : Rule.constantWord.BeginsIn (isOneOf "tfn") := by
  have hword : ∀ w : String, ∀ c, w.toList.head? = some c → isOneOf "tfn" c →
      (literal w).BeginsIn (isOneOf "tfn") := by
    intro w c hw hc
    refine (beginsIn_literal hw).mono fun d hd => ?_
    rw [of_decide_eq_true hd]
    exact hc
  refine Rule.beginsIn_of_parts rfl (beginsIn_firstOf ?_)
  simp only [List.forall_mem_cons]
  exact ⟨hword _ 't' rfl rfl, hword _ 'f' rfl rfl, hword _ 'n' rfl rfl, List.forall_mem_nil _⟩

theorem beginsIn_table (m : Mode) : ∀ x ∈ m.table, x.1.BeginsIn x.2 := by
  have hnumbers := beginsIn_numbers
  have hhash : comment.BeginsIn fun c => c = '#' := (beginsIn_literal rfl).andThen
  have htag : tag.BeginsIn fun c => c = '!' := (beginsIn_literal rfl).andThen
  have hquote : Rule.openingQuote.BeginsIn fun c => c = '"' :=
    Rule.beginsIn_of_parts rfl (beginsIn_literal rfl)
  have hquoted : (Rule.taking .string quoted).BeginsIn fun c => c = '\'' :=
    Rule.beginsIn_of_parts rfl beginsIn_quoted
  have hdollar : (Rule.taking .variableName (reference "$")).BeginsIn fun c => c = '$' :=
    Rule.beginsIn_of_parts rfl (beginsIn_literal rfl).andThen
  have hblanks : (Rule.taking .plainText blanks).BeginsIn isBlank :=
    Rule.beginsIn_of_parts rfl (beginsIn_run1 _)
  cases m with
  | root =>
    show ∀ x ∈ [_, _, _, _, _, _, _, _, _, _, _] ++
      Rule.numbers.zip (List.replicate 4 isNumberHead) ++ [_, _, _, _, _], _
    simp only [List.forall_mem_append, List.forall_mem_cons]
    exact ⟨⟨⟨Rule.beginsIn_of_parts rfl (beginsIn_literal rfl).andThen,
      Rule.beginsIn_of_parts rfl (hhash.passing _), Rule.beginsIn_of_parts rfl hhash,
      Rule.beginsIn_of_indent rfl (beginsIn_literal rfl), Rule.beginsIn_of_parts rfl htag,
      Rule.beginsIn_of_parts rfl htag.andThen, hdollar,
      Rule.beginsIn_of_parts rfl (beginsIn_literal rfl).andThen,
      Rule.beginsIn_of_indent rfl (beginsIn_literal rfl).andThen, hquote, hquoted,
      List.forall_mem_nil _⟩, hnumbers⟩, beginsIn_constant,
      Rule.beginsIn_of_parts rfl (beginsIn_one _), Rule.beginsIn_of_parts rfl (beginsIn_one _),
      hblanks, Rule.beginsIn_of_parts rfl (beginsIn_run1 _), List.forall_mem_nil _⟩
  | tagArgs =>
    show ∀ x ∈ [_, _] ++ Rule.numbers.zip (List.replicate 4 isNumberHead) ++ [_, _, _, _, _], _
    simp only [List.forall_mem_append, List.forall_mem_cons]
    exact ⟨⟨⟨hquote, hquoted, List.forall_mem_nil _⟩, hnumbers⟩, beginsIn_constant,
      Rule.beginsIn_of_parts rfl (beginsIn_run1 _),
      Rule.beginsIn_of_parts rfl (beginsIn_literal rfl),
      Rule.beginsIn_of_parts rfl (beginsIn_literal rfl), hblanks, List.forall_mem_nil _⟩
  | doubleString =>
    show ∀ x ∈ [_, _, _, _], _
    simp only [List.forall_mem_cons]
    exact ⟨Rule.beginsIn_of_parts rfl (beginsIn_literal rfl).andThen, hdollar,
      Rule.beginsIn_of_parts rfl (beginsIn_literal rfl),
      Rule.beginsIn_of_parts rfl (beginsIn_run1 _), List.forall_mem_nil _⟩
  | blockLiteral =>
    have hbreak : (Rule.taking .plainText lineBreak).BeginsIn isLineEnd := fun c r hc =>
      Rule.lexemes?_eq_none (lineBreak_eq_none hc)
    have hleave : Rule.blockLeaving.BeginsIn fun _ => true := nofun
    show ∀ x ∈ [_, _, _], _
    simp only [List.forall_mem_cons]
    exact ⟨Rule.beginsIn_of_parts rfl (beginsIn_run1 _).andThen, hbreak, hleave,
      List.forall_mem_nil _⟩

def candidates (m : Mode) (c : Char) : List Rule :=
  (m.table.filter fun x => x.2 c).map Prod.fst

theorem candidates_eq_nil {m : Mode} {c : Char} (h : ∀ q ∈ m.heads, q c = false) :
    m.candidates c = [] := by
  have hnone : m.table.filter (fun x => x.2 c) = [] := by
    refine List.filter_eq_nil_iff.2 fun x hx => ?_
    rw [h x.2 (List.of_mem_zip hx).2]
    exact Bool.false_ne_true
  rw [candidates, hnone]
  rfl

theorem findSome?_candidates (m : Mode) (c : Char) (r : List Char) (depth : Nat)
    (passed : List Char) :
    m.rules.findSome? (fun rule => rule.read? depth passed (c :: r)) =
      (m.candidates c).findSome? fun rule => rule.read? depth passed (c :: r) := by
  have htable := m.beginsIn_table
  rw [← m.map_fst_table, candidates]
  generalize m.table = table at htable ⊢
  induction table with
  | nil => rfl
  | cons x xs ih =>
    obtain ⟨hx, hxs⟩ := List.forall_mem_cons.1 htable
    rw [List.map_cons, List.findSome?_cons, ih hxs]
    by_cases hc : x.2 c
    · rw [List.filter_cons, if_pos hc, List.map_cons, List.findSome?_cons]
    · have hnone := hx c r (Bool.eq_false_iff.2 hc)
      rw [List.filter_cons, if_neg hc, Rule.read?_eq_none hnone]

end Mode

namespace Station

variable {s : Station} {c : Char} {r : List Char}

theorem reading?_eq_candidates (hs : s.ahead = c :: r) :
    s.reading? =
      (s.modes.top.candidates c).findSome? fun rule =>
        rule.read? s.modes.depth s.passed s.ahead := by
  rw [reading?, hs, Mode.findSome?_candidates]

theorem reading?_eq_none_of_heads (hs : s.ahead = c :: r)
    (h : ∀ q ∈ s.modes.top.heads, q c = false) : s.reading? = none := by
  rw [reading?_eq_candidates hs, Mode.candidates_eq_nil h]
  rfl

theorem reading?_eq_none_iff_of_taking {kind : Kind} {p : Pattern} {F : Form}
    (hs : s.ahead = c :: r) (hrow : s.modes.top.candidates c = [Rule.taking kind p])
    (hp : p.Takes F) (hF : ¬ F []) : s.reading? = none ↔ p (c :: r) = none := by
  rw [reading?_eq_candidates hs, hrow, List.findSome?_singleton, hs]
  cases hn : p (c :: r) with
  | none => exact iff_of_true (Rule.read?_eq_none (Rule.lexemes?_eq_none hn) _ _) rfl
  | some n =>
    have hne : (c :: r).take n ≠ [] := fun h => hF (h ▸ hp _ _ hn)
    rw [Rule.read?_taking hn hne]
    exact iff_of_false nofun nofun

theorem reading?_eq_none_iff_of_reference (hs : s.ahead = c :: r)
    (here : s.modes.top = .root ∧ (c = '$' ∨ c = '.') ∨ s.modes.top = .doubleString ∧ c = '$') :
    s.reading? = none ↔ (Reference c).Absent (c :: r) := by
  obtain ⟨sigil, hsigil, hrow⟩ : ∃ sigil : String, sigil.toList = [c] ∧
      s.modes.top.candidates c = [Rule.taking .variableName (reference sigil)] := by
    rcases here with ⟨hm, rfl | rfl⟩ | ⟨hm, rfl⟩
    · exact ⟨"$", rfl, by rw [hm]; rfl⟩
    · exact ⟨".", rfl, by rw [hm]; rfl⟩
    · exact ⟨"$", rfl, by rw [hm]; rfl⟩
  have hfinds := finds_reference hsigil
  have hempty : ¬ Reference c [] := by
    rintro ⟨name, -, h⟩
    cases h
  rw [reading?_eq_none_iff_of_taking hs hrow hfinds.takes hempty, hfinds.eq_none_iff]

theorem reading?_eq_none_iff_of_quote (hs : s.ahead = '\'' :: r)
    (hm : s.modes.top = .root ∨ s.modes.top = .tagArgs) :
    s.reading? = none ↔ Quoted.Absent ('\'' :: r) := by
  have hrow : s.modes.top.candidates '\'' = [Rule.taking .string quoted] := by
    rcases hm with hm | hm <;> rw [hm] <;> rfl
  have hempty : ¬ Quoted [] := by
    rintro ⟨body, -, h⟩
    cases h
  rw [reading?_eq_none_iff_of_taking hs hrow finds_quoted.takes hempty, finds_quoted.eq_none_iff]

end Station
end Tony
