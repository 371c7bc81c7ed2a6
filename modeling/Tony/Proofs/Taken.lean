import Tony.Proofs.Pattern

/-!
What patterns take. A form is a property of texts, and a pattern takes texts of a form if all that it
ever takes has it. Forms are put together as the patterns are.
-/

namespace Tony

abbrev Form := List Char → Prop

namespace Form

def Run (q : Char → Prop) : Form := fun s =>
  s ≠ [] ∧ ∀ c ∈ s, q c

def Joined (F G : Form) : Form := fun s =>
  ∃ u v, F u ∧ G v ∧ s = u ++ v

inductive Segments (q : Char → Prop) : Form
  | single {s : List Char} (run : Run q s) : Segments q s
  | divided {s t : List Char} (run : Run q s) (rest : Segments q t) : Segments q (s ++ ':' :: t)

/-- What may stand between single quotes. A backslash and the character after it belong together. -/
inductive QuotedBody : Form
  | nil : QuotedBody []
  | plain {s : List Char} (c : Char) (hslash : c ≠ '\\') (hquote : c ≠ '\'') (rest : QuotedBody s) :
      QuotedBody (c :: s)
  | escaped {s : List Char} (c : Char) (hfeed : c ≠ '\n') (rest : QuotedBody s) :
      QuotedBody ('\\' :: c :: s)

theorem Run.mono {q r : Char → Prop} {s : List Char} (h : Run q s) (hqr : ∀ c, q c → r c) :
    Run r s :=
  ⟨h.1, fun c hc => hqr c (h.2 c hc)⟩

theorem Run.cons {q : Char → Prop} {s : List Char} {c : Char} (hc : q c) (h : ∀ d ∈ s, q d) :
    Run q (c :: s) :=
  ⟨List.cons_ne_nil c s, List.forall_mem_cons.2 ⟨hc, h⟩⟩

theorem Segments.cons {q : Char → Prop} {s : List Char} {c : Char} (hc : q c)
    (h : Segments q s) : Segments q (c :: s) := by
  cases h with
  | single run => exact .single (.cons hc run.2)
  | divided run rest => exact .divided (.cons hc run.2) rest

theorem Segments.mono {q r : Char → Prop} {s : List Char} (h : Segments q s)
    (hqr : ∀ c, q c → r c) : Segments r s := by
  induction h with
  | single run => exact .single (run.mono hqr)
  | divided run _ ih => exact .divided (run.mono hqr) ih

theorem Segments.exists_getLast? {q : Char → Prop} {s : List Char} (h : Segments q s) :
    ∃ c, s.getLast? = some c ∧ q c := by
  induction h with
  | single run => exact ⟨_, List.getLast?_eq_some_getLast run.1, run.2 _ (List.getLast_mem run.1)⟩
  | @divided s t run _ ih =>
    obtain ⟨c, hlast, hc⟩ := ih
    refine ⟨c, ?_, hc⟩
    rw [List.getLast?_append, List.getLast?_cons, hlast]
    rfl

end Form

namespace Pattern

open Form

def Takes (p : Pattern) (F : Form) : Prop :=
  ∀ (s : List Char) (n : Nat), p s = some n → F (s.take n)

section Combinators

variable {p r : Pattern} {F G : Form} {q : Char → Bool}

theorem Takes.mono (h : Takes p F) (hFG : ∀ s, F s → G s) : Takes p G :=
  fun s n hs => hFG _ (h s n hs)

theorem takes_one (q : Char → Bool) : Takes (one q) fun s => ∃ c, q c ∧ s = [c] := by
  intro s n h
  cases s with
  | nil => cases h
  | cons c s =>
    rw [one] at h
    split at h
    · rename_i hc
      obtain rfl := Option.some.inj h
      exact ⟨c, hc, rfl⟩
    · cases h

theorem takes_run (q : Char → Bool) : Takes (run q) fun s => ∀ c ∈ s, q c := by
  intro s n h
  obtain rfl := Option.some.inj h
  rw [take_length_takeWhile]
  intro c hc
  exact List.all_eq_true.1 List.all_takeWhile c hc

theorem takes_run1 (q : Char → Bool) : Takes (run1 q) (Run fun c => q c) := by
  intro s n h
  obtain ⟨rfl, hn⟩ := run1_eq_some h
  rw [take_length_takeWhile]
  refine ⟨fun hnil => hn ?_, fun c hc => List.all_eq_true.1 List.all_takeWhile c hc⟩
  rw [hnil]
  rfl

theorem takes_literal (w : String) : Takes (literal w) (· = w.toList) := by
  intro s n h
  obtain ⟨rfl, hw⟩ := literal_eq_some h
  exact (List.prefix_iff_eq_take.1 hw).symm

theorem takes_nothing : Takes nothing (· = []) := by
  intro s n h
  obtain rfl := Option.some.inj h
  rfl

theorem Takes.andThen (hp : Takes p F) (hr : Takes r G) : Takes (p.andThen r) (Joined F G) := by
  intro s n h
  obtain ⟨i, j, hi, hj, rfl⟩ := andThen_eq_some h
  exact ⟨s.take i, (s.drop i).take j, hp s i hi, hr _ j hj, List.take_add⟩

theorem Takes.maybe (hp : Takes p F) : Takes (maybe p) fun s => s = [] ∨ F s := by
  intro s n h
  obtain rfl := Option.some.inj h
  cases hs : p s with
  | none => exact .inl rfl
  | some m => exact .inr (hp s m hs)

theorem takes_firstOf {ps : List Pattern} (h : ∀ p ∈ ps, Takes p F) : Takes (firstOf ps) F := by
  intro s n hn
  obtain ⟨p, hp, hs⟩ := List.exists_of_findSome?_eq_some hn
  exact h p hp s n hs

theorem Takes.passing (hp : Takes p F) (test : List Char → Bool) :
    Takes (p.passing test) fun s => F s ∧ test s := by
  intro s n h
  obtain ⟨hs, ht⟩ := Option.filter_eq_some_iff.1 h
  exact ⟨hp s n hs, ht⟩

theorem StopsAt.takes {c : Char} (hp : StopsAt p c) : Takes p (c ∉ ·) := by
  intro s n h hmem
  obtain ⟨u, r, rfl, hu⟩ := List.eq_append_cons_of_mem (List.mem_of_mem_take hmem)
  rw [hp.append_cons] at h
  rw [List.take_append_of_le_length (hp.bounded u n h)] at hmem
  exact hu (List.mem_of_mem_take hmem)

end Combinators

theorem isIndent_iff {c : Char} : isIndent c ↔ c = ' ' ∨ c = '\t' := by
  simp [isIndent]

theorem isBlank_of_indent {c : Char} (h : c = ' ' ∨ c = '\t') : Unicode.isBlank c := by
  rcases h with rfl | rfl
  · decide
  · decide

theorem takes_indent : Takes indent fun s => ∀ c ∈ s, c = ' ' ∨ c = '\t' :=
  (takes_run isIndent).mono fun _ hs c hc => isIndent_iff.1 (hs c hc)

theorem takes_comment : Takes comment fun s => ∃ r, s = '#' :: r ∧ '\n' ∉ r := by
  have hparts := (takes_literal "#").andThen ((takes_run (· ≠ '\n')).andThen takes_nothing)
  refine Takes.mono hparts ?_
  rintro _ ⟨_, _, rfl, ⟨r, _, hr, rfl, rfl⟩, rfl⟩
  refine ⟨r, by rw [List.append_nil]; rfl, fun hmem => ?_⟩
  exact absurd (hr '\n' hmem) (by decide)

theorem takes_separator :
    Takes separator fun s =>
      ∃ w, (∀ c ∈ w, c = ' ' ∨ c = '\t') ∧ s = '-' :: '-' :: '-' :: w := by
  have hparts := (takes_literal "---").andThen (takes_indent.andThen takes_nothing)
  refine Takes.mono hparts ?_
  rintro _ ⟨_, _, rfl, ⟨w, _, hw, rfl, rfl⟩, rfl⟩
  exact ⟨w, hw, by rw [List.append_nil]; rfl⟩

theorem tagRest_add (n k : Nat) (s : List Char) : tagRest (n + k) s = tagRest n s + k := by
  induction s generalizing n with
  | nil => rfl
  | cons c s ih =>
    rw [tagRest, tagRest]
    split
    · rw [Nat.add_right_comm, ih]
    · rfl

theorem take_tagRest_cons (c : Char) (s : List Char) :
    (c :: s).take (tagRest 0 (c :: s)) =
      if isTagLetter c || (c = ':' && s.head?.any isTagLetter) then c :: s.take (tagRest 0 s)
      else [] := by
  rw [tagRest]
  split
  · rw [tagRest_add 0 1, List.take_succ_cons]
  · rfl

theorem segments_take_tagRest (s : List Char) :
    (∀ c, isTagLetter c → Segments (isTagLetter ·) (c :: s.take (tagRest 0 s))) ∧
      (s.head?.any isTagLetter → Segments (isTagLetter ·) (s.take (tagRest 0 s))) := by
  induction s with
  | nil =>
    refine ⟨fun c hc => ?_, nofun⟩
    exact .single (.cons hc (List.forall_mem_nil _))
  | cons d s ih =>
    obtain ⟨hletter, hcolon⟩ := ih
    rw [take_tagRest_cons]
    constructor
    · intro c hc
      have hsingle : Segments (isTagLetter ·) [c] := .single (.cons hc (List.forall_mem_nil _))
      split
      · rename_i hd
        rcases Bool.or_eq_true_iff.1 hd with hd | hd
        · exact (hletter d hd).cons hc
        · obtain ⟨hd, hs⟩ := Bool.and_eq_true_iff.1 hd
          obtain rfl := of_decide_eq_true hd
          exact .divided (.cons hc (List.forall_mem_nil _)) (hcolon hs)
      · exact hsingle
    · intro hd
      have hd : isTagLetter d = true := hd
      rw [if_pos (by rw [hd]; rfl)]
      exact hletter d hd

theorem takes_tagName : Takes tagName (Segments (isTagLetter ·)) := by
  intro s n h
  cases s with
  | nil => cases h
  | cons c s =>
    rw [tagName] at h
    split at h
    · rename_i hc
      obtain rfl := Option.some.inj h
      rw [tagRest_add 0 1, List.take_succ_cons]
      exact (segments_take_tagRest s).1 c hc
    · cases h

theorem takes_tag : Takes tag fun s => ∃ name, Segments (isTagLetter ·) name ∧ s = '!' :: name := by
  have hparts := (takes_literal "!").andThen (takes_tagName.andThen takes_nothing)
  refine Takes.mono hparts ?_
  rintro _ ⟨_, _, rfl, ⟨name, _, hname, rfl, rfl⟩, rfl⟩
  exact ⟨name, hname, by rw [List.append_nil]; rfl⟩

theorem takes_reference (sigil : String) :
    Takes (reference sigil) fun s =>
      ∃ name, Run (· ≠ ']') name ∧ s = sigil.toList ++ '[' :: name ++ [']'] := by
  have hparts := (takes_literal sigil).andThen ((takes_literal "[").andThen
    ((takes_run1 (· ≠ ']')).andThen ((takes_literal "]").andThen takes_nothing)))
  refine Takes.mono hparts ?_
  rintro _ ⟨_, _, rfl, ⟨_, _, rfl, ⟨name, _, hname, ⟨_, _, rfl, rfl, rfl⟩, rfl⟩, rfl⟩, rfl⟩
  refine ⟨name, hname.mono fun c hc => of_decide_eq_true hc, ?_⟩
  simp only [List.append_assoc, List.append_nil]
  rfl

theorem takes_quotedRest : Takes (quotedRest 0) (Joined QuotedBody (· = ['\''])) := by
  intro s n h
  induction s using quotedRest_induction generalizing n with
  | nil => cases h
  | backslash => cases h
  | lineFeed s => cases h
  | escaped c s hc ih =>
    rw [quotedRest, if_neg hc, quotedRest_add 0 2] at h
    obtain ⟨m, hm, rfl⟩ := Option.map_eq_some_iff.1 h
    obtain ⟨u, _, hu, rfl, hs⟩ := ih m hm
    refine ⟨'\\' :: c :: u, _, .escaped c hc hu, rfl, ?_⟩
    rw [List.take_succ_cons, List.take_succ_cons, hs]
    rfl
  | quote s =>
    rw [quotedRest_cons (by decide), if_pos rfl] at h
    obtain rfl := Option.some.inj h
    exact ⟨[], _, .nil, rfl, rfl⟩
  | other c s hc hquote ih =>
    rw [quotedRest_cons hc, if_neg hquote, quotedRest_add 0 1] at h
    obtain ⟨m, hm, rfl⟩ := Option.map_eq_some_iff.1 h
    obtain ⟨u, _, hu, rfl, hs⟩ := ih m hm
    refine ⟨c :: u, _, .plain c hc hquote hu, rfl, ?_⟩
    rw [List.take_succ_cons, hs]
    rfl

theorem takes_quoted :
    Takes quoted fun s => ∃ body, QuotedBody body ∧ s = '\'' :: body ++ ['\''] := by
  rw [quoted_eq_andThen]
  have hparts := (takes_one (· = '\'')).andThen takes_quotedRest
  refine Takes.mono hparts ?_
  rintro _ ⟨_, _, ⟨c, hc, rfl⟩, ⟨body, _, hbody, rfl, rfl⟩, rfl⟩
  obtain rfl := of_decide_eq_true hc
  exact ⟨body, hbody, rfl⟩

theorem takes_minus : Takes minus fun s => s = [] ∨ s = ['-'] :=
  (takes_literal "-").maybe

theorem takes_basedNumber (letters : String) (q : Char → Bool) :
    Takes (chain [minus, literal "0", one (isOneOf letters), run1 q]) fun s =>
      ∃ sign x digits, (sign = [] ∨ sign = ['-']) ∧ isOneOf letters x ∧ Run (q ·) digits ∧
        s = sign ++ '0' :: x :: digits := by
  have hparts := takes_minus.andThen ((takes_literal "0").andThen
    ((takes_one (isOneOf letters)).andThen ((takes_run1 q).andThen takes_nothing)))
  refine Takes.mono hparts ?_
  rintro _ ⟨sign, _, hsign, ⟨_, _, rfl, ⟨_, _, ⟨x, hx, rfl⟩, ⟨digits, _, hdigits, rfl, rfl⟩, rfl⟩,
    rfl⟩, rfl⟩
  refine ⟨sign, x, digits, hsign, hx, hdigits, ?_⟩
  rw [List.append_nil]
  rfl

theorem takes_floatNumber :
    Takes floatNumber fun s =>
      ∃ sign whole part, (sign = [] ∨ sign = ['-']) ∧ Run (isDigit ·) whole ∧
        Run (isDigit ·) part ∧ s = sign ++ whole ++ '.' :: part := by
  have hparts := takes_minus.andThen ((takes_run1 isDigit).andThen ((takes_literal ".").andThen
    ((takes_run1 isDigit).andThen takes_nothing)))
  refine Takes.mono hparts ?_
  rintro _ ⟨sign, _, hsign, ⟨whole, _, hwhole, ⟨_, _, rfl, ⟨part, _, hpart, rfl, rfl⟩, rfl⟩, rfl⟩,
    rfl⟩
  refine ⟨sign, whole, part, hsign, hwhole, hpart, ?_⟩
  rw [List.append_nil, List.append_assoc]
  rfl

theorem takes_integerNumber :
    Takes integerNumber fun s =>
      ∃ sign digits, (sign = [] ∨ sign = ['-']) ∧ Run (isDigit ·) digits ∧ s = sign ++ digits := by
  have hparts := takes_minus.andThen ((takes_run1 isDigit).andThen takes_nothing)
  refine Takes.mono hparts ?_
  rintro _ ⟨sign, _, hsign, ⟨digits, _, hdigits, rfl, rfl⟩, rfl⟩
  exact ⟨sign, digits, hsign, hdigits, by rw [List.append_nil]⟩

theorem takes_constant :
    Takes constant (· ∈ ["true".toList, "false".toList, "null".toList]) := by
  apply takes_firstOf
  simp only [List.forall_mem_cons]
  refine ⟨(takes_literal _).mono ?_, (takes_literal _).mono ?_, (takes_literal _).mono ?_, nofun⟩
  all_goals
    rintro _ rfl
    decide

theorem takes_blockMark : Takes blockMark (· ∈ [['|'], ['|', '+'], ['|', '-']]) := by
  have hparts := (takes_literal "|").andThen
    ((takes_one (isOneOf "+-")).maybe.andThen takes_nothing)
  refine Takes.mono hparts ?_
  rintro _ ⟨_, _, rfl, ⟨_, _, rfl | ⟨c, hc, rfl⟩, rfl, rfl⟩, rfl⟩
  · decide
  · obtain rfl | rfl : c = '+' ∨ c = '-' := by simpa [isOneOf] using hc
    · decide
    · decide

theorem takes_escaped :
    Takes escaped fun s => ∃ c ∈ ['\\', '"', 'n', 'r', 't', 'b', 'f'], s = ['\\', c] := by
  have hparts := (takes_literal "\\").andThen
    ((takes_one (isOneOf "\\\"nrtbf")).andThen takes_nothing)
  refine Takes.mono hparts ?_
  rintro _ ⟨_, _, rfl, ⟨_, _, ⟨c, hc, rfl⟩, rfl, rfl⟩, rfl⟩
  exact ⟨c, List.contains_iff_mem.1 hc, rfl⟩

theorem takes_indentedLine :
    Takes indentedLine fun s =>
      ∃ c r, Unicode.isBlank c ∧ s = c :: r ∧ ∀ d ∈ s, isLineEnd d = false := by
  have hparts := (takes_run1 fun c => Unicode.isBlank c && !isLineEnd c).andThen
    ((takes_run fun c => !isLineEnd c).andThen takes_nothing)
  refine Takes.mono hparts ?_
  rintro _ ⟨u, _, ⟨hne, hu⟩, ⟨v, _, hv, rfl, rfl⟩, rfl⟩
  obtain ⟨c, u, rfl⟩ := List.exists_cons_of_ne_nil hne
  have hblank := (Bool.and_eq_true_iff.1 (hu c (List.mem_cons_self ..))).1
  refine ⟨c, u ++ (v ++ []), hblank, rfl, ?_⟩
  intro d hd
  rw [List.append_nil] at hd
  rcases List.mem_append.1 hd with hd | hd
  · simpa using (Bool.and_eq_true_iff.1 (hu d hd)).2
  · simpa using hv d hd

theorem takes_lineBreak : Takes lineBreak (· ∈ [['\n'], ['\r', '\n']]) := by
  have hparts := (takes_literal "\r").maybe.andThen ((takes_literal "\n").andThen takes_nothing)
  refine Takes.mono hparts ?_
  rintro _ ⟨_, _, rfl | rfl, ⟨_, _, rfl, rfl, rfl⟩, rfl⟩
  · decide
  · decide

theorem blank_of_lineBreak {s : List Char} (h : s ∈ [['\n'], ['\r', '\n']]) :
    Run (Unicode.isBlank ·) s := by
  have hblank : ∀ s ∈ [['\n'], ['\r', '\n']], s ≠ [] ∧ ∀ c ∈ s, Unicode.isBlank c := by
    simp only [List.forall_mem_cons]
    exact ⟨⟨List.cons_ne_nil _ _, rfl, List.forall_mem_nil _⟩,
      ⟨List.cons_ne_nil _ _, rfl, rfl, List.forall_mem_nil _⟩, List.forall_mem_nil _⟩
  exact hblank s h

end Pattern
end Tony
