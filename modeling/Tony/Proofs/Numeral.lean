import Tony.Proofs.Candidates
import Tony.Proofs.Neighbours
import Tony.Proofs.NextToken

/-!
Numbers. Main statement: in documents and among arguments the next token is a number just where an
optional minus and a digit are ahead. It has the first of the four forms that is there, and of this
form the longest text.
-/

namespace Tony

open Form (Run Sign)
open Pattern

/-- The first of some kinds that a text begins with a spelling of, and the longest such spelling. -/
inductive FirstSpelled (s : List Char) : List Kind → Kind → List Char → Prop
  | here {kind : Kind} {kinds : List Kind} {w : List Char}
      (longest : Form.Longest kind.Spelling s w) : FirstSpelled s (kind :: kinds) kind w
  | later {other kind : Kind} {kinds : List Kind} {w : List Char}
      (absent : Form.Absent other.Spelling s) (rest : FirstSpelled s kinds kind w) :
      FirstSpelled s (other :: kinds) kind w

def Numeral (s : List Char) : Kind → List Char → Prop :=
  FirstSpelled s [.numberHex, .numberOctal, .numberFloat, .numberInteger]

def Form.NumberHead : Form := fun s =>
  ∃ sign c r, Sign sign ∧ c.isDigit ∧ s = sign ++ c :: r

open Form (NumberHead)

theorem FirstSpelled.unique {s : List Char} {kinds : List Kind} {kind kind' : Kind}
    {w w' : List Char} (h : FirstSpelled s kinds kind w) (h' : FirstSpelled s kinds kind' w') :
    kind = kind' ∧ w = w' := by
  induction h with
  | here longest =>
    cases h' with
    | here longest' => exact ⟨rfl, longest.eq longest'⟩
    | later absent' _ => exact absurd absent' longest.not_absent
  | later absent _ ih =>
    cases h' with
    | here longest' => exact absurd absent longest'.not_absent
    | later _ rest' => exact ih rest'

theorem FirstSpelled.mem_and_longest {s : List Char} {kinds : List Kind} {kind : Kind}
    {w : List Char} (h : FirstSpelled s kinds kind w) :
    kind ∈ kinds ∧ Form.Longest kind.Spelling s w := by
  induction h with
  | here longest => exact ⟨List.mem_cons_self .., longest⟩
  | later _ _ ih => exact ⟨List.mem_cons_of_mem _ ih.1, ih.2⟩

theorem exists_firstSpelled {parts : List (Kind × Pattern)} {s : List Char}
    (h : ∀ x ∈ parts, x.2.Finds x.1.Spelling ∧ ¬ x.1.Spelling [])
    (hs : ∃ x ∈ parts, ¬ Form.Absent x.1.Spelling s) :
    ∃ kind w, FirstSpelled s (parts.map Prod.fst) kind w ∧ w ≠ [] ∧ ∀ depth passed,
      (parts.map fun x => Rule.taking x.1 x.2).findSome? (fun rule => rule.read? depth passed s) =
        some ⟨[⟨kind, w⟩], .stay⟩ := by
  induction parts with
  | nil =>
    obtain ⟨x, hx, -⟩ := hs
    cases hx
  | cons x parts ih =>
    obtain ⟨⟨hfinds, hnil⟩, hparts⟩ := List.forall_mem_cons.1 h
    cases hx : x.2 s with
    | some n =>
      have hlongest := hfinds.longest hx
      have hne : s.take n ≠ [] := fun hempty => hnil (hempty ▸ hlongest.form)
      refine ⟨x.1, s.take n, .here hlongest, hne, fun depth passed => ?_⟩
      rw [List.map_cons, List.findSome?_cons, Rule.read?_taking hx hne]
    | none =>
      have habsent := hfinds.eq_none_iff.1 hx
      obtain ⟨y, hy, hpresent⟩ := hs
      have hlater : y ∈ parts := (List.mem_cons.1 hy).resolve_left fun h => hpresent (h ▸ habsent)
      obtain ⟨kind, w, hfirst, hne, hread⟩ := ih hparts ⟨y, hlater, hpresent⟩
      refine ⟨kind, w, .later habsent hfirst, hne, fun depth passed => ?_⟩
      rw [List.map_cons, List.findSome?_cons, Rule.read?_eq_none (Rule.lexemes?_eq_none hx)]
      exact hread depth passed

namespace Pattern

def numberForms : List (Kind × Pattern) :=
  [(.numberHex, hexNumber), (.numberOctal, octalNumber), (.numberFloat, floatNumber),
    (.numberInteger, integerNumber)]

theorem map_taking_numberForms :
    (numberForms.map fun x => Rule.taking x.1 x.2) = Rule.numbers := rfl

theorem run_congr {p q : Char → Prop} (h : ∀ c, p c ↔ q c) (s : List Char) : Run p s ↔ Run q s :=
  ⟨fun hs => hs.mono fun c => (h c).1, fun hs => hs.mono fun c => (h c).2⟩

theorem finds_numberForms :
    ∀ x ∈ numberForms, x.2.Finds x.1.Spelling ∧ ¬ x.1.Spelling [] := by
  have hdigit : ∀ s, Run (isDigit ·) s ↔ Run (Char.isDigit ·) s :=
    run_congr fun c => by rw [isDigit_eq]
  have hhex := run_congr (fun c => isHexDigit_iff (c := c))
  have hoctal := run_congr (fun c => isOctalDigit_iff (c := c))
  have hx : ∀ c, isOneOf "xX" c ↔ c = 'x' ∨ c = 'X' := fun c => by simp [isOneOf]
  have ho : ∀ c, isOneOf "oO" c ↔ c = 'o' ∨ c = 'O' := fun c => by simp [isOneOf]
  simp only [numberForms, List.forall_mem_cons]
  refine ⟨⟨finds_basedNumber.congr fun s => ?_, ?_⟩, ⟨finds_basedNumber.congr fun s => ?_, ?_⟩,
    ⟨finds_floatNumber.congr fun s => ?_, ?_⟩, ⟨finds_integerNumber.congr fun s => ?_, ?_⟩,
    List.forall_mem_nil _⟩
  · simp only [hx, hhex, Kind.Spelling]
  · rintro ⟨sign, x, digits, -, -, -, h⟩
    simp at h
  · simp only [ho, hoctal, Kind.Spelling]
  · rintro ⟨sign, x, digits, -, -, -, h⟩
    simp at h
  · simp only [hdigit, Kind.Spelling]
  · rintro ⟨sign, whole, part, -, -, -, h⟩
    simp at h
  · simp only [hdigit, Kind.Spelling]
  · rintro ⟨sign, digits, -, hdigits, h⟩
    exact hdigits.1 (List.append_eq_nil_iff.1 h.symm).2

theorem numberHead_of_spelling {kind : Kind} {s : List Char} (hkind : kind.isNumber)
    (hs : kind.Spelling s) (r : List Char) : NumberHead (s ++ r) := by
  have hrun : ∀ {w}, Run (Char.isDigit ·) w → ∃ c v, c.isDigit ∧ w = c :: v := by
    intro w hw
    obtain ⟨c, v, rfl⟩ := List.exists_cons_of_ne_nil hw.1
    exact ⟨c, v, hw.2 c (List.mem_cons_self ..), rfl⟩
  cases kind
  case numberHex | numberOctal =>
    obtain ⟨sign, x, digits, hsign, -, -, rfl⟩ := hs
    exact ⟨sign, '0', x :: digits ++ r, hsign, rfl, List.append_assoc ..⟩
  case numberFloat =>
    obtain ⟨sign, whole, part, hsign, hwhole, -, rfl⟩ := hs
    obtain ⟨c, v, hc, rfl⟩ := hrun hwhole
    exact ⟨sign, c, v ++ '.' :: part ++ r, hsign, hc, by simp⟩
  case numberInteger =>
    obtain ⟨sign, digits, hsign, hdigits, rfl⟩ := hs
    obtain ⟨c, v, hc, rfl⟩ := hrun hdigits
    exact ⟨sign, c, v ++ r, hsign, hc, List.append_assoc ..⟩
  all_goals cases hkind

theorem not_absent_of_numberHead {s : List Char} (h : NumberHead s) :
    ∃ x ∈ numberForms, ¬ Form.Absent x.1.Spelling s := by
  obtain ⟨sign, c, r, hsign, hc, rfl⟩ := h
  refine ⟨(.numberInteger, integerNumber), by simp [numberForms], fun habsent => ?_⟩
  have hspelling : Kind.Spelling .numberInteger (sign ++ [c]) :=
    ⟨sign, [c], hsign, .cons hc (List.forall_mem_nil _), rfl⟩
  exact habsent _ hspelling ⟨r, by simp⟩

theorem mem_digits {c : Char} (h : c.isDigit) :
    c ∈ ['0', '1', '2', '3', '4', '5', '6', '7', '8', '9'] := by
  have hall : ∀ n < 58, 48 ≤ n →
      Char.ofNat n ∈ ['0', '1', '2', '3', '4', '5', '6', '7', '8', '9'] := by decide
  have hbounds : 48 ≤ c.toNat ∧ c.toNat ≤ 57 := by
    simpa [Char.isDigit, UInt32.le_iff_toNat_le] using h
  have hmem := hall c.toNat (Nat.lt_succ_of_le hbounds.2) hbounds.1
  rwa [Char.ofNat_toNat] at hmem

end Pattern

theorem Numeral.isNumber {s : List Char} {kind : Kind} {w : List Char} (h : Numeral s kind w) :
    kind.isNumber := by
  have hall : ∀ k ∈ [Kind.numberHex, .numberOctal, .numberFloat, .numberInteger], k.isNumber := by
    decide
  exact hall kind h.mem_and_longest.1

theorem Numeral.numberHead {s : List Char} {kind : Kind} {w : List Char} (h : Numeral s kind w) :
    NumberHead s := by
  obtain ⟨r, rfl⟩ := h.mem_and_longest.2.beginning
  exact numberHead_of_spelling h.isNumber h.mem_and_longest.2.form r

theorem Form.numberHead_minus_iff {r : List Char} :
    NumberHead ('-' :: r) ↔ ∃ d ∈ r.head?, d.isDigit := by
  constructor
  · rintro ⟨sign, c, v, rfl | rfl, hc, hs⟩
    · obtain rfl := (List.cons.inj hs).1
      cases hc
    · obtain rfl := (List.cons.inj hs).2
      exact ⟨c, rfl, hc⟩
  · rintro ⟨d, hd, hdigit⟩
    obtain ⟨v, rfl⟩ := List.head?_eq_some_iff.1 hd
    exact ⟨['-'], d, v, .inr rfl, hdigit, rfl⟩

theorem Rule.numbers_eq_none_iff {depth : Nat} {passed s : List Char} :
    Rule.numbers.findSome? (fun rule => rule.read? depth passed s) = none ↔ ¬ NumberHead s := by
  constructor
  · intro h hhead
    obtain ⟨kind, w, -, -, hread⟩ :=
      exists_firstSpelled finds_numberForms (not_absent_of_numberHead hhead)
    rw [← map_taking_numberForms, hread] at h
    cases h
  · intro h
    have hnone : ∀ x ∈ numberForms, x.2 s = none := by
      intro x hx
      have hnumber : ∀ x ∈ numberForms, x.1.isNumber := by
        simp only [numberForms, List.forall_mem_cons]
        exact ⟨rfl, rfl, rfl, rfl, List.forall_mem_nil _⟩
      refine (finds_numberForms x hx).1.eq_none_iff.2 ?_
      rintro v hv ⟨r, rfl⟩
      exact h (numberHead_of_spelling (hnumber x hx) hv r)
    rw [← map_taking_numberForms]
    refine Rule.findSome?_read?_eq_none (fun rule hrule => ?_) _ _
    obtain ⟨x, hx, rfl⟩ := List.mem_map.1 hrule
    exact Rule.lexemes?_eq_none (hnone x hx)

namespace Mode

variable {m : Mode} (hm : m = .root ∨ m = .tagArgs)

include hm

theorem candidates_digit {c : Char} (hc : c.isDigit) :
    ∃ after, m.candidates c = Rule.numbers ++ after := by
  have hall : ∀ c ∈ ['0', '1', '2', '3', '4', '5', '6', '7', '8', '9'],
      ∃ after, m.candidates c = Rule.numbers ++ after := by
    simp only [List.forall_mem_cons]
    rcases hm with rfl | rfl
    · exact ⟨⟨_, rfl⟩, ⟨_, rfl⟩, ⟨_, rfl⟩, ⟨_, rfl⟩, ⟨_, rfl⟩, ⟨_, rfl⟩, ⟨_, rfl⟩, ⟨_, rfl⟩,
        ⟨_, rfl⟩, ⟨_, rfl⟩, List.forall_mem_nil _⟩
    · exact ⟨⟨_, rfl⟩, ⟨_, rfl⟩, ⟨_, rfl⟩, ⟨_, rfl⟩, ⟨_, rfl⟩, ⟨_, rfl⟩, ⟨_, rfl⟩, ⟨_, rfl⟩,
        ⟨_, rfl⟩, ⟨_, rfl⟩, List.forall_mem_nil _⟩
  exact hall c (mem_digits hc)

theorem candidates_minus :
    ∃ before after, m.candidates '-' = before ++ (Rule.numbers ++ after) ∧
      ∀ rule ∈ before, rule = Rule.separator := by
  rcases hm with rfl | rfl
  · exact ⟨[Rule.separator], _, rfl, List.forall_mem_singleton.2 rfl⟩
  · exact ⟨[], _, rfl, List.forall_mem_nil _⟩

end Mode

namespace Station

variable {s : Station} {r : List Char}

theorem reading?_of_numberHead (hm : s.modes.top = .root ∨ s.modes.top = .tagArgs)
    (h : NumberHead s.ahead) :
    ∃ kind w, Numeral s.ahead kind w ∧ w ≠ [] ∧ s.reading? = some ⟨[⟨kind, w⟩], .stay⟩ := by
  obtain ⟨kind, w, hfirst, hne, hread⟩ :=
    exists_firstSpelled finds_numberForms (not_absent_of_numberHead h)
  refine ⟨kind, w, hfirst, hne, ?_⟩
  have hnumbers := hread s.modes.depth s.passed
  rw [map_taking_numberForms] at hnumbers
  obtain ⟨sign, c, r, rfl | rfl, hc, hs⟩ := h
  · obtain ⟨after, hcandidates⟩ := Mode.candidates_digit hm hc
    rw [reading?_eq_candidates hs, hcandidates, List.findSome?_append, hnumbers, Option.some_or]
  · obtain ⟨before, after, hcandidates, hbefore⟩ := Mode.candidates_minus hm
    have hdashes : Pattern.separator s.ahead = none := by
      refine andThen_eq_none ?_
      rw [Option.eq_none_iff_forall_ne_some]
      intro n hn
      obtain ⟨-, v, hv⟩ := literal_eq_some hn
      rw [hs] at hv
      obtain ⟨rfl, -⟩ := List.cons.inj (List.cons.inj hv).2
      cases hc
    have hnone :
        before.findSome? (fun rule => rule.read? s.modes.depth s.passed s.ahead) = none := by
      refine Rule.findSome?_read?_eq_none (fun rule hrule => ?_) _ _
      rw [hbefore rule hrule]
      exact Rule.lexemes?_eq_none hdashes
    rw [reading?_eq_candidates hs, hcandidates, List.findSome?_append, hnone, Option.none_or,
      List.findSome?_append, hnumbers, Option.some_or]

theorem isNumber_of_mem_tokens {t : Token} (hs : s.ahead ≠ []) (ht : t ∈ s.tokens)
    (hnumber : t.kind.isNumber) : s.modes.top = .root ∨ s.modes.top = .tagArgs := by
  obtain ⟨l, hl, -, hkind, -⟩ := Lexeme.exists_of_mem_layout ht
  rw [hkind] at hnumber
  rcases readBy_or_leftAlone hs with ⟨rule, h⟩ | ⟨c, h⟩
  · have hmem : l.kind ∈ rule.parts.map Prod.fst := by
      rw [← h.kinds_eq]
      exact List.mem_map_of_mem hl
    have hrules : ∀ m : Mode, m ≠ .root → m ≠ .tagArgs → ∀ rule ∈ m.rules,
        ∀ kind ∈ rule.parts.map Prod.fst, kind.isNumber = false := by
      intro m hroot hargs
      cases m with
      | root => exact absurd rfl hroot
      | tagArgs => exact absurd rfl hargs
      | doubleString => decide
      | blockLiteral => decide
    by_contra hmode
    obtain ⟨hroot, hargs⟩ := not_or.1 hmode
    rw [hrules _ hroot hargs rule h.mem _ hmem] at hnumber
    cases hnumber
  · rw [h.reading_eq] at hl
    obtain rfl := List.mem_singleton.1 hl
    cases hnumber

end Station

theorem next_of_numeral {l : Lexer} {r : List Char} (hp : l.pending = [])
    (hr : l.remaining = .ok r) :
    (l.mode = .root ∨ l.mode = .tagArgs →
      ((∃ y t, l.next = .ok y ∧ y.token = some t ∧ t.kind.isNumber) ↔ NumberHead r) ∧
      (NumberHead r → ∃ kind w, Numeral r kind w) ∧
      ∀ kind w, Numeral r kind w → l.Gives kind w l.modes) ∧
    (l.mode ≠ .root → l.mode ≠ .tagArgs →
      ∀ round, l.round = .ok (some round) → ∀ t ∈ round.lexer.pending, ¬ t.kind.isNumber) := by
  obtain ⟨s, rfl, rfl, -⟩ := Lexer.exists_station_of_remaining hp hr
  constructor
  · intro hm
    have hread : NumberHead s.ahead →
        ∃ kind w, Numeral s.ahead kind w ∧ (s.lexer []).Gives kind w s.modes := by
      intro hhead
      obtain ⟨kind, w, hnumeral, hne, hreading⟩ := Station.reading?_of_numberHead hm hhead
      exact ⟨kind, w, hnumeral, Station.gives_of_reading? hreading hne⟩
    refine ⟨⟨?_, fun hhead => ?_⟩, fun hhead => ?_, fun kind w hnumeral => ?_⟩
    · rintro ⟨y, t, hy, ht, hnumber⟩
      have hblock : s.modes.top ≠ .blockLiteral := by
        intro h
        rcases hm with hm | hm <;> cases hm.symm.trans h
      obtain ⟨hspelling, v, hv⟩ := Station.next_value hblock hy ht
      rw [← hv]
      exact numberHead_of_spelling hnumber hspelling v
    · obtain ⟨kind, w, hnumeral, y, rest, hy, ht, -⟩ := hread hhead
      exact ⟨y, _, hy, ht, hnumeral.isNumber⟩
    · obtain ⟨kind, w, hnumeral, -⟩ := hread hhead
      exact ⟨kind, w, hnumeral⟩
    · obtain ⟨kind', w', hnumeral', hgives⟩ := hread hnumeral.numberHead
      obtain ⟨rfl, rfl⟩ := hnumeral.unique hnumeral'
      exact hgives
  · intro hroot hargs round hround t ht hnumber
    obtain ⟨s', hs, hl, rfl⟩ := Lexer.round_eq_some hround
    have hmodes : s'.modes = s.modes := (congrArg Lexer.modes hl).symm
    rcases Station.isNumber_of_mem_tokens hs ht hnumber with h | h
    · exact hroot (by rw [← h, hmodes]; rfl)
    · exact hargs (by rw [← h, hmodes]; rfl)

theorem next_of_numeral_zero :
    let l := Lexer.ofText ['-', '0', 'x']
    l.pending = [] ∧ l.remaining = .ok ['-', '0', 'x'] ∧ l.mode = .root ∧
      Numeral ['-', '0', 'x'] .numberInteger ['-', '0'] ∧
      l.Gives .numberInteger ['-', '0'] l.modes := by
  intro l
  obtain ⟨-, hexists, hgives⟩ := (next_of_numeral (l := l) rfl rfl).1 (.inl rfl)
  obtain ⟨kind, w, hnumeral⟩ := hexists ⟨['-'], '0', ['x'], .inr rfl, rfl, rfl⟩
  obtain ⟨y, rest, hy, ht, -⟩ := hgives kind w hnumeral
  have hnext : l.next = .ok ⟨some ⟨.numberInteger, ['-', '0'], ⟨0, 2⟩⟩, _, _⟩ :=
    Station.next_of_tokens (s := ⟨{}, [], ['-', '0', 'x']⟩) (List.cons_ne_nil _ _) rfl
  rw [hnext] at hy
  obtain rfl := Except.ok.inj hy
  obtain ⟨rfl, rfl, -⟩ := Token.mk.inj (Option.some.inj ht)
  exact ⟨rfl, rfl, rfl, hnumeral, hgives _ _ hnumeral⟩

end Tony
