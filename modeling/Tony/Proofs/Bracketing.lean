import Mathlib.Algebra.Ring.Parity
import Mathlib.Data.List.Chain
import Tony.Proofs.Boundary
import Tony.Proofs.Coverage
import Tony.Proofs.Turn

/-!
What the tokens of a text tell about its modes. Main statement: arguments are never opened twice, and
the modes that a run ends in can be found from the tokens that open or close something. That a block
is left shows in the token after it, which begins a line.
-/

namespace Tony

open Text (bytes)
open Unicode (isBlank)

namespace Token

def opensArguments (t : Token) : Bool :=
  t.kind = .keyword && t.value.getLast? = some '('

def closesArguments (t : Token) : Bool :=
  t.kind = .keyword && t.value = [')']

def isQuote (t : Token) : Bool :=
  t.kind = .string && t.value = ['"']

def opensBlock (t : Token) : Bool :=
  t.kind = .punctuation && t.value.head? = some '|'

theorem opensArguments_iff {t : Token} :
    t.opensArguments ↔ t.kind = .keyword ∧ t.value.getLast? = some '(' := by
  simp [opensArguments]

theorem closesArguments_iff {t : Token} :
    t.closesArguments ↔ t.kind = .keyword ∧ t.value = [')'] := by
  simp [closesArguments]

theorem isQuote_iff {t : Token} : t.isQuote ↔ t.kind = .string ∧ t.value = ['"'] := by
  simp [isQuote]

theorem opensBlock_iff {t : Token} :
    t.opensBlock ↔ t.kind = .punctuation ∧ t.value.head? = some '|' := by
  simp [opensBlock]

def parentheses (ts : List Token) : List Token :=
  ts.filter fun t => t.opensArguments || t.closesArguments

def BeginsLine (source : List Char) (t : Token) : Prop :=
  (∃ u v, source = u ++ '\n' :: v ∧ t.span.start = bytes (u ++ ['\n'])) ∧
    ∃ c ∈ t.value.head?, isBlank c = false

/-- A block has been opened and no line after it begins without a blank. -/
def BlockOpen (source : List Char) (ts : List Token) : Prop :=
  ∃ us t vs, ts = us ++ t :: vs ∧ t.opensBlock ∧ ∀ v ∈ vs, ¬ v.BeginsLine source

def BlockOpenFrom (source : List Char) (m : ModeStack) (ts : List Token) : Prop :=
  BlockOpen source ts ∨ m.top = .blockLiteral ∧ ∀ t ∈ ts, ¬ t.BeginsLine source

variable {source : List Char} {t : Token} {ts us : List Token}

theorem countP_parentheses {p : Token → Bool}
    (h : ∀ t, p t = true → (t.opensArguments || t.closesArguments) = true) :
    (parentheses ts).countP p = ts.countP p := by
  rw [parentheses, List.countP_filter]
  refine List.countP_congr fun t _ => ?_
  rw [Bool.and_eq_true_iff]
  exact ⟨And.left, fun hp => ⟨hp, h t hp⟩⟩

theorem not_blockOpen_nil : ¬ BlockOpen source [] := by
  rintro ⟨us, t, vs, h, -⟩
  exact absurd h.symm (List.append_ne_nil_of_right_ne_nil us (List.cons_ne_nil t vs))

theorem blockOpen_cons :
    BlockOpen source (t :: ts) ↔
      (t.opensBlock ∧ ∀ v ∈ ts, ¬ v.BeginsLine source) ∨ BlockOpen source ts := by
  constructor
  · rintro ⟨us, u, vs, h, hu, hvs⟩
    cases us with
    | nil =>
      obtain ⟨rfl, rfl⟩ := List.cons.inj h
      exact .inl ⟨hu, hvs⟩
    | cons w us =>
      obtain ⟨rfl, rfl⟩ := List.cons.inj h
      exact .inr ⟨us, u, vs, rfl, hu, hvs⟩
  · rintro (⟨ht, hts⟩ | ⟨us, u, vs, rfl, hu, hvs⟩)
    · exact ⟨[], t, ts, rfl, ht, hts⟩
    · exact ⟨t :: us, u, vs, rfl, hu, hvs⟩

theorem blockOpen_append (h : ∀ u ∈ us, u.opensBlock = false) :
    BlockOpen source (us ++ ts) ↔ BlockOpen source ts := by
  induction us with
  | nil => exact Iff.rfl
  | cons u us ih =>
    obtain ⟨hu, hus⟩ := List.forall_mem_cons.1 h
    rw [List.cons_append, blockOpen_cons, ih hus, hu]
    simp

end Token

namespace ModeStack

def inArguments (m : ModeStack) : Bool :=
  .tagArgs ∈ m.top :: m.below

def inQuotes (m : ModeStack) : Bool :=
  m.top = .doubleString

theorem inQuotes_of_outside {m : ModeStack} (h : m = {} ∨ m = ⟨.tagArgs, [.root]⟩) :
    m.inQuotes = false := by
  rcases h with rfl | rfl
  · rfl
  · rfl

theorem eq_root_iff : ∀ m ∈ usual,
    (m = {} ↔ .tagArgs ∉ m.top :: m.below ∧ m.top ≠ .doubleString ∧ m.top ≠ .blockLiteral) := by
  decide

theorem inArguments_quotes (m : ModeStack) :
    inArguments ⟨.doubleString, m.top :: m.below⟩ = m.inArguments := by
  simp [inArguments]

end ModeStack

namespace Station

variable {s : Station}

theorem tokens_of_lexemes {kind : Kind} {v : List Char} (h : s.reading.lexemes = [⟨kind, v⟩])
    (hv : v ≠ []) : s.tokens = [⟨kind, v, ⟨bytes s.passed, bytes s.passed + bytes v⟩⟩] := by
  rw [tokens, h]
  exact Lexeme.layout_cons_of_ne_nil hv

theorem forall_tokens {F : Kind → Form} (h : ∀ l ∈ s.reading.lexemes, F l.kind l.text) :
    ∀ t ∈ s.tokens, F t.kind t.value := by
  intro t ht
  obtain ⟨l, hl, -, hkind, hvalue⟩ := Lexeme.exists_of_mem_layout ht
  rw [hkind, hvalue]
  exact h l hl

theorem not_bracket_of_mem {t : Token} {kind : Kind}
    (h : ∀ l ∈ s.reading.lexemes, ¬ l.kind.Bracket l.text) (ht : t ∈ s.tokens)
    (hkind : t.kind = kind) : ¬ kind.Bracket t.value := by
  have hbracket := forall_tokens (F := fun kind v => ¬ kind.Bracket v) h t ht
  rwa [hkind] at hbracket

theorem parentheses_eq_nil {ts : List Token}
    (h : ∀ t ∈ ts, t.kind = .keyword → ¬ Kind.keyword.Bracket t.value) :
    Token.parentheses ts = [] := by
  refine List.filter_eq_nil_iff.2 fun t ht hparen => ?_
  rcases Bool.or_eq_true_iff.1 hparen with hparen | hparen
  · obtain ⟨hkind, hvalue⟩ := Token.opensArguments_iff.1 hparen
    exact h t ht hkind (.inl hvalue)
  · obtain ⟨hkind, hvalue⟩ := Token.closesArguments_iff.1 hparen
    exact h t ht hkind (.inr hvalue)

theorem Turn.arguments (h : s.Turn) :
    (s.next.modes.inArguments = s.modes.inArguments ∧ Token.parentheses s.tokens = []) ∨
      ∃ t, s.tokens = [t] ∧ s.next.modes.inArguments = !s.modes.inArguments ∧
        t.opensArguments = !s.modes.inArguments ∧ t.closesArguments = s.modes.inArguments := by
  cases h with
  | still modes text unbracketed =>
    left
    exact ⟨by rw [modes], parentheses_eq_nil fun t => not_bracket_of_mem unbracketed⟩
  | @openArguments name here there lexemes =>
    right
    have hopens : ∀ span, Token.opensArguments ⟨.keyword, name ++ ['('], span⟩ = true := by
      intro span
      simp [Token.opensArguments]
    have hcloses : ∀ span, Token.closesArguments ⟨.keyword, name ++ ['('], span⟩ = false := by
      intro span
      simp [Token.closesArguments, List.append_eq_singleton_iff]
    rw [here, there]
    exact ⟨_, tokens_of_lexemes lexemes (by simp), rfl, hopens _, hcloses _⟩
  | closeArguments here there lexemes =>
    right
    rw [here, there]
    exact ⟨_, tokens_of_lexemes lexemes (List.cons_ne_nil _ _), rfl, rfl, rfl⟩
  | openQuotes here there lexemes =>
    left
    rw [there, tokens_of_lexemes lexemes (List.cons_ne_nil _ _)]
    exact ⟨ModeStack.inArguments_quotes s.modes, rfl⟩
  | closeQuotes here there lexemes =>
    left
    rw [here, tokens_of_lexemes lexemes (List.cons_ne_nil _ _)]
    exact ⟨(ModeStack.inArguments_quotes s.next.modes).symm, rfl⟩
  | openBlock here there bar blanks lexemes =>
    left
    refine ⟨by rw [here, there]; rfl, parentheses_eq_nil fun t ht hkind => ?_⟩
    have hkinds := forall_tokens (s := s) (F := fun kind _ => kind ≠ .keyword)
      (by rw [lexemes]; simp)
    exact absurd hkind (hkinds t ht)
  | leaveBlock here there lexemes line unindented =>
    left
    rw [here, there, tokens, lexemes]
    exact ⟨rfl, rfl⟩

theorem parentheses_stations (hm : s.modes ∈ ModeStack.usual) :
    (∀ t ∈ (Token.parentheses (s.stations.flatMap tokens)).head?,
      t.opensArguments = !s.modes.inArguments) ∧
    (Token.parentheses (s.stations.flatMap tokens)).IsChain
      (fun t u => t.opensArguments ≠ u.opensArguments) ∧
    (Token.parentheses (s.stations.flatMap tokens)).countP Token.opensArguments +
        s.modes.inArguments.toNat =
      (Token.parentheses (s.stations.flatMap tokens)).countP Token.closesArguments +
        s.last.modes.inArguments.toNat := by
  induction s using run_induction with
  | last s h =>
    rw [stations_of_end h, last_of_end h]
    exact ⟨nofun, List.IsChain.nil, rfl⟩
  | round s h ih =>
    obtain ⟨hhead, hchain, hcount⟩ := ih (modes_next_mem_usual hm)
    rw [stations_of_ahead h, last_of_ahead h, List.flatMap_cons, Token.parentheses,
      List.filter_append, ← Token.parentheses, ← Token.parentheses]
    rcases (turn h hm).arguments with ⟨hflag, hnil⟩ | ⟨t, htokens, hflag, hopens, hcloses⟩
    · rw [hnil, List.nil_append, ← hflag]
      exact ⟨hhead, hchain, hcount⟩
    · have hparen : Token.parentheses [t] = [t] := by
        simp [Token.parentheses, hopens, hcloses]
      rw [htokens, hparen, List.singleton_append]
      refine ⟨?_, List.isChain_cons.2 ⟨?_, hchain⟩, ?_⟩
      · intro u hu
        obtain rfl := Option.some.inj hu
        exact hopens
      · intro u hu
        rw [hopens, hhead u hu, hflag]
        simp
      · rw [List.countP_cons, List.countP_cons, hopens, hcloses]
        rw [hflag] at hcount
        cases hb : s.modes.inArguments <;> simp [hb] at hcount ⊢ <;> omega

theorem Turn.quotes (h : s.Turn) :
    (s.next.modes.inQuotes = s.modes.inQuotes ∧ s.tokens.countP Token.isQuote = 0) ∨
      (s.next.modes.inQuotes = !s.modes.inQuotes ∧ s.tokens.countP Token.isQuote = 1) := by
  cases h with
  | still modes text unbracketed =>
    left
    refine ⟨by rw [modes], List.countP_eq_zero.2 fun t ht hquote => ?_⟩
    obtain ⟨hkind, hvalue⟩ := Token.isQuote_iff.1 hquote
    exact not_bracket_of_mem unbracketed ht hkind hvalue
  | openArguments here there lexemes =>
    left
    rw [here, there, tokens_of_lexemes lexemes (by simp)]
    exact ⟨rfl, rfl⟩
  | closeArguments here there lexemes =>
    left
    rw [here, there, tokens_of_lexemes lexemes (List.cons_ne_nil _ _)]
    exact ⟨rfl, rfl⟩
  | openQuotes here there lexemes =>
    right
    rw [there, ModeStack.inQuotes_of_outside here, tokens_of_lexemes lexemes (List.cons_ne_nil _ _)]
    exact ⟨rfl, rfl⟩
  | closeQuotes here there lexemes =>
    right
    rw [here, ModeStack.inQuotes_of_outside there, tokens_of_lexemes lexemes (List.cons_ne_nil _ _)]
    exact ⟨rfl, rfl⟩
  | openBlock here there bar blanks lexemes =>
    left
    refine ⟨by rw [here, there]; rfl, List.countP_eq_zero.2 fun t ht hquote => ?_⟩
    have hkinds := forall_tokens (s := s) (F := fun kind _ => kind ≠ .string)
      (by rw [lexemes]; simp)
    exact hkinds t ht (Token.isQuote_iff.1 hquote).1
  | leaveBlock here there lexemes line unindented =>
    left
    rw [here, there, tokens, lexemes]
    exact ⟨rfl, rfl⟩

theorem quotes_stations (hm : s.modes ∈ ModeStack.usual) :
    ((s.stations.flatMap tokens).countP Token.isQuote + s.modes.inQuotes.toNat) % 2 =
      s.last.modes.inQuotes.toNat := by
  induction s using run_induction with
  | last s h =>
    rw [stations_of_end h, last_of_end h]
    cases s.modes.inQuotes <;> rfl
  | round s h ih =>
    have hrest := ih (modes_next_mem_usual hm)
    rw [stations_of_ahead h, last_of_ahead h, List.flatMap_cons, List.countP_append, ← hrest]
    rcases (turn h hm).quotes with ⟨hflag, hcount⟩ | ⟨hflag, hcount⟩
    · rw [hflag, hcount, Nat.zero_add]
    · rw [hflag, hcount]
      cases s.modes.inQuotes <;> simp <;> omega

theorem lexemes_of_blockLiteral (hs : s.ahead ≠ []) (hm : s.modes.top = .blockLiteral) :
    ∃ kind, s.reading.lexemes = [⟨kind, s.reading.text⟩] := by
  rcases readBy_or_leftAlone hs with ⟨rule, h⟩ | ⟨c, h⟩
  · have hparts : ∀ rule ∈ Rule.blockLiteral, ∃ kind p, rule.parts = [(kind, p)] := by
      simp only [Rule.blockLiteral, List.forall_mem_cons]
      exact ⟨⟨_, _, rfl⟩, ⟨_, _, rfl⟩, ⟨_, _, rfl⟩, List.forall_mem_nil _⟩
    have hmem := h.mem
    rw [hm] at hmem
    obtain ⟨kind, p, hp⟩ := hparts rule hmem
    exact ⟨kind, (h.lexemes_of_parts (F := fun _ => True) hp fun _ _ _ => trivial).1⟩
  · exact ⟨.plainText, by rw [Reading.text, h.reading_eq]; rfl⟩

theorem not_beginsLine_of_blockLiteral (hs : s.ahead ≠ [])
    (hm : s.modes = ⟨.blockLiteral, [.root]⟩) (htext : s.reading.text ≠ []) :
    ∀ t ∈ s.tokens, ¬ t.BeginsLine (s.passed.reverse ++ s.ahead) := by
  have htop : s.modes.top = .blockLiteral := by rw [hm]
  have hdepth : 1 < s.modes.depth := by rw [hm]; decide
  obtain ⟨kind, hls⟩ := lexemes_of_blockLiteral hs htop
  rintro t ht ⟨⟨u, v, hsource, hstart⟩, c, hc, hblank⟩
  rw [tokens_of_lexemes hls htext, List.mem_singleton] at ht
  subst ht
  have hplace : s.passed.reverse = u ++ ['\n'] := by
    have hsource : s.passed.reverse ++ s.ahead = u ++ ['\n'] ++ v := by rw [hsource]; simp
    exact (Text.cut_unique hsource (by rw [Text.bytes_reverse]; exact hstart)).1
  have hline : Anchor.lineStart.holds s.passed := by
    rw [← List.reverse_reverse s.passed, hplace, List.reverse_append]
    rfl
  have hahead : s.ahead.head? = some c := by
    rw [← s.text_append_ahead, List.head?_append_of_ne_nil _ htext]
    exact hc
  obtain ⟨r, hr⟩ := List.head?_eq_some_iff.1 hahead
  have hleave := reading?_of_unindented htop hdepth hline hr hblank
  apply htext
  rw [reading, hleave]
  rfl

theorem exists_beginsLine (hs : s.ahead ≠ []) (hpassed : s.passed ≠ [])
    (hline : Anchor.lineStart.holds s.passed) (hahead : beginsUnindented s.ahead.head?) :
    ∃ t ∈ s.stations.flatMap tokens, t.BeginsLine (s.passed.reverse ++ s.ahead) := by
  have htiles := s.tiles_stations
  have hvalues := s.flatMap_value_stations
  cases hts : s.stations.flatMap tokens with
  | nil =>
    rw [hts] at hvalues
    exact absurd hvalues.symm hs
  | cons t ts =>
    rw [hts] at htiles hvalues
    have hmem : t ∈ s.stations.flatMap tokens := by
      rw [hts]
      exact List.mem_cons_self ..
    obtain ⟨x, -, ht⟩ := List.mem_flatMap.1 hmem
    obtain ⟨l, -, hne, -, hvalue⟩ := Lexeme.exists_of_mem_layout ht
    rw [← hvalue] at hne
    obtain ⟨c, p, hp⟩ := List.exists_cons_of_ne_nil hpassed
    rw [hp] at hline
    obtain rfl : c = '\n' := of_decide_eq_true hline
    refine ⟨t, List.mem_cons_self .., ⟨p.reverse, s.ahead, by rw [hp]; simp, ?_⟩, ?_⟩
    · rw [htiles.1, hp, ← List.reverse_cons, Text.bytes_reverse]
    · obtain ⟨d, w, hw⟩ := List.exists_cons_of_ne_nil hne
      rw [← hvalues, List.flatMap_cons, hw] at hahead
      have hblank : (!isBlank d) = true := hahead
      exact ⟨d, by rw [hw]; rfl, by simpa using hblank⟩

theorem opensBlock_eq_false {t : Token} (h : t.kind ≠ .punctuation) : t.opensBlock = false :=
  Bool.eq_false_iff.2 fun hopens => h (Token.opensBlock_iff.1 hopens).1

theorem blockOpenFrom_append {source : List Char} {m m' : ModeStack} {us ts : List Token}
    (htop : m'.top = .blockLiteral ↔ m.top = .blockLiteral) (hus : ∀ u ∈ us, u.opensBlock = false)
    (hline : m.top = .blockLiteral → ∀ u ∈ us, ¬ u.BeginsLine source) :
    Token.BlockOpenFrom source m (us ++ ts) ↔ Token.BlockOpenFrom source m' ts := by
  unfold Token.BlockOpenFrom
  rw [Token.blockOpen_append hus, htop, List.forall_mem_append]
  constructor
  · rintro (h | ⟨hm, -, hts⟩)
    · exact .inl h
    · exact .inr ⟨hm, hts⟩
  · rintro (h | ⟨hm, hts⟩)
    · exact .inl h
    · exact .inr ⟨hm, hline hm, hts⟩

theorem blockOpenFrom_outside {source : List Char} {ts : List Token}
    (here : s.modes.top ≠ .blockLiteral) (there : s.next.modes.top ≠ .blockLiteral)
    (hkinds : ∀ l ∈ s.reading.lexemes, l.kind ≠ .punctuation) :
    Token.BlockOpenFrom source s.modes (s.tokens ++ ts) ↔
      Token.BlockOpenFrom source s.next.modes ts := by
  have htokens := forall_tokens (F := fun kind _ => kind ≠ .punctuation) hkinds
  exact blockOpenFrom_append (iff_of_false there here)
    (fun t ht => opensBlock_eq_false (htokens t ht)) fun htop => absurd htop here

theorem tokens_of_openBlock {a mark b : List Char} (bar : mark.head? = some '|')
    (blanks : ∀ c ∈ b, c = ' ' ∨ c = '\t')
    (lexemes : s.reading.lexemes = [⟨.plainText, a⟩, ⟨.punctuation, mark⟩, ⟨.plainText, b⟩]) :
    ∃ us t vs, s.tokens = us ++ t :: vs ∧ (∀ u ∈ us, u.opensBlock = false) ∧ t.opensBlock ∧
      ∀ v ∈ vs, v.opensBlock = false ∧ ∀ source, ¬ v.BeginsLine source := by
  have hmark : mark ≠ [] := by
    rintro rfl
    cases bar
  have hplain : ∀ n c, ∀ t ∈ Lexeme.layout n [⟨.plainText, c⟩],
      t.kind = .plainText ∧ t.value = c := by
    intro n c t ht
    obtain ⟨l, hl, -, hkind, hvalue⟩ := Lexeme.exists_of_mem_layout ht
    rw [List.mem_singleton.1 hl] at hkind hvalue
    exact ⟨hkind, hvalue⟩
  have htokens := Lexeme.layout_append (bytes s.passed) [⟨.plainText, a⟩]
    [⟨.punctuation, mark⟩, ⟨.plainText, b⟩]
  rw [Lexeme.layout_cons_of_ne_nil (l := ⟨.punctuation, mark⟩) hmark] at htokens
  refine ⟨_, _, _, by rw [tokens, lexemes]; exact htokens, fun u hu => ?_, ?_, fun v hv => ?_⟩
  · exact opensBlock_eq_false (by rw [(hplain _ _ u hu).1]; decide)
  · exact Token.opensBlock_iff.2 ⟨rfl, bar⟩
  · obtain ⟨hkind, hvalue⟩ := hplain _ _ v hv
    refine ⟨opensBlock_eq_false (by rw [hkind]; decide), ?_⟩
    rintro source ⟨-, c, hc, hblank⟩
    rw [hvalue] at hc
    rcases blanks c (List.mem_of_mem_head? hc) with rfl | rfl
    · exact absurd hblank (by decide)
    · exact absurd hblank (by decide)

theorem blockOpenFrom_of_openBlock {source : List Char} {t : Token} {us vs ts : List Token}
    (hus : ∀ u ∈ us, u.opensBlock = false) (ht : t.opensBlock)
    (hvs : ∀ v ∈ vs, v.opensBlock = false ∧ ∀ source, ¬ v.BeginsLine source) :
    Token.BlockOpenFrom source {} (us ++ t :: vs ++ ts) ↔
      Token.BlockOpenFrom source ⟨.blockLiteral, [.root]⟩ ts := by
  unfold Token.BlockOpenFrom
  rw [List.append_assoc, Token.blockOpen_append hus, List.cons_append, Token.blockOpen_cons,
    Token.blockOpen_append fun v hv => (hvs v hv).1, List.forall_mem_append]
  constructor
  · rintro ((⟨-, -, hts⟩ | hopen) | ⟨htop, -⟩)
    · exact .inr ⟨rfl, hts⟩
    · exact .inl hopen
    · cases htop
  · rintro (hopen | ⟨-, hts⟩)
    · exact .inl (.inr hopen)
    · exact .inl (.inl ⟨ht, fun v hv => (hvs v hv).2 source, hts⟩)

/-- What a round changes about an open block can be seen from its tokens, or from the one after. -/
theorem Turn.block (h : s.Turn) (hs : s.ahead ≠ []) (hm : s.modes ∈ ModeStack.usual)
    (hplace : s.modes.top = .blockLiteral → s.passed ≠ []) :
    Token.BlockOpenFrom (s.passed.reverse ++ s.ahead) s.modes
        (s.tokens ++ s.next.stations.flatMap tokens) ↔
      Token.BlockOpenFrom (s.passed.reverse ++ s.ahead) s.next.modes
        (s.next.stations.flatMap tokens) := by
  cases h with
  | still modes text unbracketed =>
    refine blockOpenFrom_append (by rw [modes]) (fun t ht => ?_) fun htop => ?_
    · refine Bool.eq_false_iff.2 fun hopens => ?_
      obtain ⟨hkind, hvalue⟩ := Token.opensBlock_iff.1 hopens
      exact not_bracket_of_mem unbracketed ht hkind hvalue
    · exact not_beginsLine_of_blockLiteral hs (ModeStack.eq_of_blockLiteral hm htop) text
  | openArguments here there lexemes =>
    exact blockOpenFrom_outside (by rw [here]; decide) (by rw [there]; decide)
      (by rw [lexemes]; simp)
  | closeArguments here there lexemes =>
    exact blockOpenFrom_outside (by rw [here]; decide) (by rw [there]; decide)
      (by rw [lexemes]; simp)
  | openQuotes here there lexemes =>
    refine blockOpenFrom_outside ?_ (by rw [there]; simp) (by rw [lexemes]; simp)
    rcases here with here | here <;> rw [here] <;> decide
  | closeQuotes here there lexemes =>
    refine blockOpenFrom_outside (by rw [here]; simp) ?_ (by rw [lexemes]; simp)
    rcases there with there | there <;> rw [there] <;> decide
  | openBlock here there bar blanks lexemes =>
    obtain ⟨us, t, vs, htokens, hus, ht, hvs⟩ := tokens_of_openBlock bar blanks lexemes
    rw [here, there, htokens]
    exact blockOpenFrom_of_openBlock hus ht hvs
  | leaveBlock here there lexemes line unindented =>
    have htop : s.modes.top = .blockLiteral := by rw [here]
    have htokens : s.tokens = [] := by rw [tokens, lexemes]; rfl
    obtain ⟨t, ht, hline⟩ := exists_beginsLine (s := s.next) (by rw [there]; exact hs)
      (by rw [there]; exact hplace htop) (by rw [there]; exact line)
      (by rw [there]; exact unindented)
    rw [passed_append_ahead_next] at hline
    have hnext : s.next.modes.top ≠ .blockLiteral := by rw [there]; simp
    rw [htokens, List.nil_append]
    constructor
    · rintro (hopen | ⟨-, hnone⟩)
      · exact .inl hopen
      · exact absurd hline (hnone t ht)
    · rintro (hopen | ⟨hblock, -⟩)
      · exact .inl hopen
      · exact absurd hblock hnext

theorem Turn.passed_next_ne_nil (h : s.Turn) (htop : s.next.modes.top = .blockLiteral) :
    s.next.passed ≠ [] := by
  rcases h.takes_or_leaves with htext | ⟨-, hnext⟩
  · exact List.append_ne_nil_of_left_ne_nil (mt List.reverse_eq_nil_iff.1 htext) _
  · rw [hnext] at htop
    cases htop

theorem blockOpenFrom_stations (hm : s.modes ∈ ModeStack.usual)
    (hplace : s.modes.top = .blockLiteral → s.passed ≠ []) :
    s.last.modes.top = .blockLiteral ↔
      Token.BlockOpenFrom (s.passed.reverse ++ s.ahead) s.modes (s.stations.flatMap tokens) := by
  induction s using run_induction with
  | last s h =>
    rw [stations_of_end h, last_of_end h]
    constructor
    · exact fun htop => .inr ⟨htop, nofun⟩
    · rintro (hopen | ⟨htop, -⟩)
      · exact absurd hopen Token.not_blockOpen_nil
      · exact htop
  | round s h ih =>
    have hturn := turn h hm
    have hrest := ih (modes_next_mem_usual hm) hturn.passed_next_ne_nil
    rw [passed_append_ahead_next] at hrest
    rw [stations_of_ahead h, last_of_ahead h, List.flatMap_cons, hturn.block h hm hplace, hrest]

end Station

/-- The tokens of a text determine the modes that its run ends in. -/
theorem modes_of_tokens (source : List Char) :
    ((∀ t ∈ (Token.parentheses (tokenize source)).head?, t.opensArguments) ∧
      (Token.parentheses (tokenize source)).IsChain
        fun t u => t.opensArguments ≠ u.opensArguments) ∧
    (.tagArgs ∈ (Lexer.ofText source).rest.lexer.modes.top ::
        (Lexer.ofText source).rest.lexer.modes.below ↔
      (tokenize source).countP Token.opensArguments =
        (tokenize source).countP Token.closesArguments + 1) ∧
    ((Lexer.ofText source).rest.lexer.modes.top = .doubleString ↔
      Odd ((tokenize source).countP Token.isQuote)) ∧
    ((Lexer.ofText source).rest.lexer.modes.top = .blockLiteral ↔
      Token.BlockOpen source (tokenize source)) ∧
    ((Lexer.ofText source).rest.lexer.modes = {} ↔
      (tokenize source).countP Token.opensArguments ≠
          (tokenize source).countP Token.closesArguments + 1 ∧
        ¬ Odd ((tokenize source).countP Token.isQuote) ∧
        ¬ Token.BlockOpen source (tokenize source)) := by
  have hstart : ({} : ModeStack) ∈ ModeStack.usual := List.mem_cons_self ..
  obtain ⟨hhead, hchain, hcount⟩ := Station.parentheses_stations (s := { ahead := source }) hstart
  have hquotes := Station.quotes_stations (s := { ahead := source }) hstart
  have hblock := Station.blockOpenFrom_stations (s := { ahead := source }) hstart nofun
  have husual := Station.modes_last_mem_usual (s := { ahead := source }) hstart
  rw [← tokenize_eq] at hhead hchain hcount hquotes hblock
  rw [modes_rest_ofText]
  generalize (Station.last { ahead := source }).modes = m at hcount hquotes hblock husual ⊢
  rw [Token.countP_parentheses fun t h => by rw [h]; rfl,
    Token.countP_parentheses fun t h => by rw [h, Bool.or_true]] at hcount
  have hargs : .tagArgs ∈ m.top :: m.below ↔
      (tokenize source).countP Token.opensArguments =
        (tokenize source).countP Token.closesArguments + 1 := by
    by_cases hm : .tagArgs ∈ m.top :: m.below
    · rw [show m.inArguments = true from decide_eq_true hm] at hcount
      exact iff_of_true hm hcount
    · rw [show m.inArguments = false from decide_eq_false hm] at hcount
      refine iff_of_false hm fun hmore => ?_
      have hequal := hmore.symm.trans hcount
      exact absurd hequal (Nat.succ_ne_self _)
  have hodd : m.top = .doubleString ↔ Odd ((tokenize source).countP Token.isQuote) := by
    rw [Nat.odd_iff]
    by_cases hm : m.top = .doubleString
    · rw [show m.inQuotes = true from decide_eq_true hm] at hquotes
      exact iff_of_true hm hquotes
    · rw [show m.inQuotes = false from decide_eq_false hm] at hquotes
      refine iff_of_false hm fun hmore => ?_
      exact absurd (hmore.symm.trans hquotes) (by decide)
  have hopen : m.top = .blockLiteral ↔ Token.BlockOpen source (tokenize source) := by
    constructor
    · intro hm
      rcases hblock.1 hm with hopen | ⟨hroot, -⟩
      · exact hopen
      · cases hroot
    · exact fun hopen => hblock.2 (.inl hopen)
  refine ⟨⟨hhead, hchain⟩, hargs, hodd, hopen, ?_⟩
  rw [ModeStack.eq_root_iff m husual, hargs, Ne, Ne, hodd, hopen]

theorem modes_of_tokens_quoted :
    .tagArgs ∈ (Lexer.ofText ['!', 'a', '(', '"', '|']).rest.lexer.modes.top ::
        (Lexer.ofText ['!', 'a', '(', '"', '|']).rest.lexer.modes.below ∧
      (Lexer.ofText ['!', 'a', '(', '"', '|']).rest.lexer.modes.top = .doubleString := by
  obtain ⟨-, hargs, hquotes, -, -⟩ := modes_of_tokens ['!', 'a', '(', '"', '|']
  rw [tokenize_eq] at hargs hquotes
  exact ⟨hargs.2 (by decide +kernel), hquotes.2 (by decide +kernel)⟩

end Tony
