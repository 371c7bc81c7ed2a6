import Tony.Proofs.MarkReading
import Tony.Proofs.Passage

/-!
Texts in double quotes. Main statement: such a text is read in units, which are escapes, references
and single characters, and the first unit that is a quote closes it. All other units are handed out
on the way, the plain characters between two of the others as one.
-/

namespace Tony

open Pattern
open Text (bytes)

/-- What a text in double quotes is read in. -/
inductive StringUnit where
  | escape (c : Char)
  | reference (name : List Char)
  | single (c : Char)
  deriving DecidableEq, Repr

namespace StringUnit

def text : StringUnit → List Char
  | escape c => ['\\', c]
  | reference name => '$' :: '[' :: name ++ [']']
  | single c => [c]

def escapeLetters : List Char :=
  ['\\', '"', 'n', 'r', 't', 'b', 'f']

def escape? : List Char → Option StringUnit
  | '\\' :: c :: _ => if c ∈ escapeLetters then some (.escape c) else none
  | _ => none

def reference? : List Char → Option StringUnit
  | '$' :: '[' :: s =>
    let name := s.takeWhile (· ≠ ']')
    if name ≠ [] ∧ name.length < s.length then some (.reference name) else none
  | _ => none

/-- The unit that a text begins with: an escape or a reference, or else a single character. -/
def first (c : Char) (s : List Char) : StringUnit :=
  ((escape? (c :: s)).or (reference? (c :: s))).getD (.single c)

def ofText : List Char → List StringUnit
  | [] => []
  | c :: s => first c s :: ofText (s.drop ((first c s).text.length - 1))
termination_by s => s.length
decreasing_by
  rw [List.length_drop, List.length_cons]
  omega

def body (us : List StringUnit) : List StringUnit :=
  us.takeWhile (· ≠ .single '"')

def closing (us : List StringUnit) : List Lexeme :=
  if .single '"' ∈ us then [⟨.string, ['"']⟩] else []

def kind : StringUnit → Kind
  | escape _ => .stringEscape
  | reference _ => .variableName
  | single c => if c = '\\' ∨ c = '$' then .plainText else .string

def attach (u : StringUnit) : List Lexeme → List Lexeme
  | [] => [⟨u.kind, u.text⟩]
  | l :: ls =>
    if u.kind = .string ∧ l.kind = .string then ⟨.string, u.text ++ l.text⟩ :: ls
    else ⟨u.kind, u.text⟩ :: l :: ls

/-- The lexemes of units: one for each, but one for all plain characters that stand side by side. -/
def lexemes (us : List StringUnit) : List Lexeme :=
  us.foldr attach []

section Units

variable {u : StringUnit} {us : List StringUnit} {c : Char} {s : List Char}

theorem escape?_eq_some_iff :
    escape? s = some u ↔ ∃ c r, c ∈ escapeLetters ∧ s = '\\' :: c :: r ∧ u = .escape c := by
  constructor
  · intro h
    unfold escape? at h
    split at h
    · rename_i c r
      split at h
      · rename_i hc
        exact ⟨c, r, hc, rfl, (Option.some.inj h).symm⟩
      · cases h
    · cases h
  · rintro ⟨c, r, hc, rfl, rfl⟩
    exact if_pos hc

theorem exists_of_takeWhile_lt {q : Char → Bool} (h : (s.takeWhile q).length < s.length) :
    ∃ d r, s = s.takeWhile q ++ d :: r ∧ q d = false := by
  have hne : s.drop (s.takeWhile q).length ≠ [] :=
    mt List.drop_eq_nil_iff.1 (Nat.not_le_of_lt h)
  obtain ⟨d, r, hdrop⟩ := List.exists_cons_of_ne_nil hne
  refine ⟨d, r, ?_, stop_of_takeWhile d (by rw [hdrop]; rfl)⟩
  have happend := List.take_append_drop (s.takeWhile q).length s
  rw [hdrop, take_length_takeWhile] at happend
  exact happend.symm

theorem takeWhile_name {name r : List Char} (h : Form.Run (· ≠ ']') name) :
    (name ++ ']' :: r).takeWhile (· ≠ ']') = name := by
  rw [takeWhile_append_cons (decide_eq_false fun h => h rfl), List.takeWhile_eq_self_iff]
  exact fun c hc => decide_eq_true (h.2 c hc)

theorem reference?_eq_some_iff :
    reference? s = some u ↔ ∃ name r, Form.Run (· ≠ ']') name ∧
      s = '$' :: '[' :: (name ++ ']' :: r) ∧ u = .reference name := by
  constructor
  · intro h
    unfold reference? at h
    split at h
    · rename_i s
      dsimp only at h
      split at h
      · rename_i hname
        obtain ⟨d, r, hs, hd⟩ := exists_of_takeWhile_lt hname.2
        obtain rfl : d = ']' := by simpa using hd
        have hrun : Form.Run (· ≠ ']') (s.takeWhile (· ≠ ']')) :=
          ⟨hname.1, fun c hc => of_decide_eq_true (List.all_eq_true.1 List.all_takeWhile c hc)⟩
        exact ⟨_, r, hrun, congrArg (fun s => '$' :: '[' :: s) hs, (Option.some.inj h).symm⟩
      · cases h
    · cases h
  · rintro ⟨name, r, hname, rfl, rfl⟩
    simp only [reference?, takeWhile_name hname]
    exact if_pos ⟨hname.1, by simp⟩

theorem escaped_eq (s : List Char) : escaped s = (escape? s).map fun u => u.text.length := by
  cases he : escape? s with
  | some u =>
    obtain ⟨c, r, hc, rfl, rfl⟩ := escape?_eq_some_iff.1 he
    have hone : one (isOneOf "\\\"nrtbf") ([c] ++ r) = some 1 :=
      if_pos (List.contains_iff_mem.2 hc)
    have hletter := andThen_append_eq (q := nothing) hone rfl
    exact andThen_append_eq (p := literal "\\") (w := ['\\']) rfl hletter
  | none =>
    rw [Option.map_none, Option.eq_none_iff_forall_ne_some]
    intro n hn
    obtain ⟨c, hc, htake⟩ := takes_escaped s n hn
    have hs := List.take_append_drop n s
    rw [htake] at hs
    have hsome := escape?_eq_some_iff.2 ⟨c, _, hc, hs.symm, rfl⟩
    rw [he] at hsome
    cases hsome

theorem reference_eq (s : List Char) :
    Pattern.reference "$" s = (reference? s).map fun u => u.text.length := by
  cases hr : reference? s with
  | some u =>
    obtain ⟨name, r, hname, rfl, rfl⟩ := reference?_eq_some_iff.1 hr
    have hrun : run1 (· ≠ ']') (name ++ ']' :: r) = some name.length := by
      unfold run1
      rw [takeWhile_name hname]
      exact if_neg fun h => hname.1 (List.length_eq_zero_iff.1 h)
    have hend : (literal "]").andThen nothing ([']'] ++ r) = some 1 := rfl
    have hrest := andThen_append_eq hrun hend
    have hopen := andThen_append_eq (p := literal "[") (w := ['[']) rfl hrest
    have hall := andThen_append_eq (p := literal "$") (w := ['$']) rfl hopen
    refine Eq.trans hall ?_
    simp [text]
    omega
  | none =>
    rw [Option.map_none, Option.eq_none_iff_forall_ne_some]
    intro n hn
    obtain ⟨name, hname, htake⟩ := takes_reference "$" s n hn
    have hs := List.take_append_drop n s
    rw [htake] at hs
    have hsome := reference?_eq_some_iff.2 ⟨name, s.drop n, hname, by simpa using hs.symm, rfl⟩
    rw [hr] at hsome
    cases hsome

theorem text_ne_nil (u : StringUnit) : u.text ≠ [] := by
  cases u <;> exact List.cons_ne_nil _ _

theorem exists_append_of_or (h : (escape? s).or (reference? s) = some u) :
    ∃ r, s = u.text ++ r := by
  rcases Option.or_eq_some_iff.1 h with h | ⟨-, h⟩
  · obtain ⟨c, r, -, rfl, rfl⟩ := escape?_eq_some_iff.1 h
    exact ⟨r, rfl⟩
  · obtain ⟨name, r, -, rfl, rfl⟩ := reference?_eq_some_iff.1 h
    exact ⟨r, by simp [text]⟩

theorem ofText_of_or {r : List Char} (h : (escape? s).or (reference? s) = some u)
    (hs : s = u.text ++ r) : ofText s = u :: ofText r := by
  obtain ⟨c, w, htext⟩ := List.exists_cons_of_ne_nil u.text_ne_nil
  rw [htext, List.cons_append] at hs
  subst hs
  have hfirst : first c (w ++ r) = u := by rw [first, h]; rfl
  have hdrop : (w ++ r).drop (u.text.length - 1) = r := by
    rw [htext]
    exact List.drop_left
  rw [ofText, hfirst, hdrop]

theorem ofText_single (h : (escape? (c :: s)).or (reference? (c :: s)) = none) :
    ofText (c :: s) = single c :: ofText s := by
  have hfirst : first c s = single c := by rw [first, h]; rfl
  rw [ofText, hfirst]
  rfl

theorem or_eq_none_of_ne (hslash : c ≠ '\\') (hdollar : c ≠ '$') :
    (escape? (c :: s)).or (reference? (c :: s)) = none := by
  rw [Option.eq_none_iff_forall_ne_some]
  intro u h
  rcases Option.or_eq_some_iff.1 h with h | ⟨-, h⟩
  · obtain ⟨d, r, -, hs, -⟩ := escape?_eq_some_iff.1 h
    exact hslash (List.cons.inj hs).1
  · obtain ⟨name, r, -, hs, -⟩ := reference?_eq_some_iff.1 h
    exact hdollar (List.cons.inj hs).1

theorem ofText_run {w : List Char} (hw : ∀ c ∈ w, isOneOf "\\\"$" c = false) :
    ofText (w ++ s) = w.map single ++ ofText s := by
  induction w with
  | nil => rfl
  | cons c w ih =>
    obtain ⟨hc, hw⟩ := List.forall_mem_cons.1 hw
    have hslash : c ≠ '\\' := by rintro rfl; cases hc
    have hdollar : c ≠ '$' := by rintro rfl; cases hc
    rw [List.cons_append, ofText_single (or_eq_none_of_ne hslash hdollar), ih hw]
    rfl

theorem kind_ne_of_or (h : (escape? s).or (reference? s) = some u) : u.kind ≠ .string := by
  rcases Option.or_eq_some_iff.1 h with h | ⟨-, h⟩
  · obtain ⟨d, r, -, -, rfl⟩ := escape?_eq_some_iff.1 h
    exact fun h => nomatch h
  · obtain ⟨name, r, -, -, rfl⟩ := reference?_eq_some_iff.1 h
    exact fun h => nomatch h

theorem kind_of_plain (hc : isOneOf "\\\"$" c = false) : (single c).kind = .string := by
  refine if_neg ?_
  rintro (rfl | rfl) <;> cases hc

theorem body_append {vs : List StringUnit} (h : single '"' ∉ us) :
    body (us ++ vs) = us ++ body vs := by
  refine List.takeWhile_append_of_pos fun u hu => decide_eq_true ?_
  rintro rfl
  exact h hu

theorem closing_append {vs : List StringUnit} (h : single '"' ∉ us) :
    closing (us ++ vs) = closing vs := by
  simp only [closing, List.mem_append, h, false_or]

theorem quote_closes (s : List Char) :
    single '"' ∈ ofText ('"' :: s) ∧ body (ofText ('"' :: s)) = [] ∧
      closing (ofText ('"' :: s)) = [⟨.string, ['"']⟩] := by
  have hunits : ofText ('"' :: s) = single '"' :: ofText s :=
    ofText_single (or_eq_none_of_ne (by decide) (by decide))
  have hmem : single '"' ∈ ofText ('"' :: s) := by
    rw [hunits]
    exact List.mem_cons_self ..
  exact ⟨hmem, by rw [hunits]; rfl, if_pos hmem⟩

theorem kind_of_mem_head?_body (hs : ∀ c ∈ s.head?, isOneOf "\\\"$" c) :
    ∀ u ∈ (body (ofText s)).head?, u.kind ≠ .string := by
  intro u hu
  rw [body, List.head?_takeWhile, Option.mem_def, Option.filter_eq_some_iff] at hu
  obtain ⟨hu, hquote⟩ := hu
  cases s with
  | nil => rw [ofText] at hu; cases hu
  | cons c s =>
    rw [ofText] at hu
    obtain rfl := Option.some.inj hu
    cases h : (escape? (c :: s)).or (reference? (c :: s)) with
    | some v =>
      have hfirst : first c s = v := by rw [first, h]; rfl
      rw [hfirst]
      exact kind_ne_of_or h
    | none =>
      have hfirst : first c s = single c := by rw [first, h]; rfl
      rw [hfirst] at hquote ⊢
      have hmark : c ∈ ['\\', '"', '$'] := List.contains_iff_mem.1 (hs c rfl)
      simp only [List.mem_cons, List.not_mem_nil, or_false] at hmark
      rcases hmark with rfl | rfl | rfl
      · decide
      · exact absurd rfl (of_decide_eq_true hquote)
      · decide

theorem lexemes_cons (u : StringUnit) (us : List StringUnit) :
    lexemes (u :: us) = attach u (lexemes us) := rfl

theorem head?_kind_lexemes (us : List StringUnit) :
    (lexemes us).head?.map Lexeme.kind = us.head?.map kind := by
  cases us with
  | nil => rfl
  | cons u us =>
    rw [lexemes_cons]
    rcases lexemes us with _ | ⟨l, ls⟩
    · rfl
    · rw [attach]
      split
      · rename_i h
        exact congrArg some h.1.symm
      · rfl

theorem lexemes_cons_of_ne (h : u.kind = .string → ∀ v ∈ us.head?, v.kind ≠ .string) :
    lexemes (u :: us) = ⟨u.kind, u.text⟩ :: lexemes us := by
  have hhead := head?_kind_lexemes us
  rw [lexemes_cons]
  rcases hls : lexemes us with _ | ⟨l, ls⟩
  · rfl
  · rw [hls] at hhead
    obtain ⟨v, hv, hl⟩ := Option.map_eq_some_iff.1 hhead.symm
    refine if_neg fun hkinds => h hkinds.1 v hv ?_
    rw [hl, hkinds.2]

theorem lexemes_run {w : List Char} (hne : w ≠ []) (hw : ∀ c ∈ w, isOneOf "\\\"$" c = false)
    (hus : ∀ u ∈ us.head?, u.kind ≠ .string) :
    lexemes (w.map single ++ us) = ⟨.string, w⟩ :: lexemes us := by
  induction w with
  | nil => exact absurd rfl hne
  | cons c w ih =>
    obtain ⟨hc, hw⟩ := List.forall_mem_cons.1 hw
    have hkind := kind_of_plain hc
    rw [List.map_cons, List.cons_append]
    cases w with
    | nil =>
      rw [List.map_nil, List.nil_append, lexemes_cons_of_ne fun _ => hus, hkind]
      rfl
    | cons d w =>
      rw [lexemes_cons, ih (List.cons_ne_nil d w) hw]
      exact if_pos ⟨hkind, rfl⟩

end Units

end StringUnit

namespace Station

open StringUnit

variable {s : Station} {u : StringUnit} {c : Char} {r : List Char}

theorem reading_of_or (hm : s.modes.top = .doubleString)
    (h : (escape? s.ahead).or (StringUnit.reference? s.ahead) = some u) :
    s.reading = ⟨[⟨u.kind, u.text⟩], .stay⟩ := by
  obtain ⟨r, hr⟩ := exists_append_of_or h
  have htake : s.ahead.take u.text.length = u.text := by
    rw [hr]
    exact List.take_left
  have hne : s.ahead.take u.text.length ≠ [] := by
    rw [htake]
    exact u.text_ne_nil
  rcases Option.or_eq_some_iff.1 h with h | ⟨hnone, h⟩
  · have hrules : s.modes.top.rules =
        [] ++ Rule.taking .stringEscape escaped :: Rule.doubleString.drop 1 := by rw [hm]; rfl
    have hpattern : escaped s.ahead = some u.text.length := by rw [escaped_eq, h]; rfl
    have hkind : u.kind = .stringEscape := by
      obtain ⟨c, r, -, -, rfl⟩ := escape?_eq_some_iff.1 h
      rfl
    have hread := @Rule.read?_taking .stringEscape _ _ _ hpattern hne s.modes.depth s.passed
    rw [htake] at hread
    rw [hkind]
    exact reading_eq_of_rules hrules (List.forall_mem_nil _) hread
  · have hrules : s.modes.top.rules =
        [Rule.taking .stringEscape escaped] ++
          Rule.taking .variableName (Pattern.reference "$") :: Rule.doubleString.drop 2 := by
      rw [hm]; rfl
    have hescaped : escaped s.ahead = none := by rw [escaped_eq, hnone]; rfl
    have hpattern : Pattern.reference "$" s.ahead = some u.text.length := by
      rw [reference_eq, h]; rfl
    have hkind : u.kind = .variableName := by
      obtain ⟨name, r, -, -, rfl⟩ := reference?_eq_some_iff.1 h
      rfl
    have hread := @Rule.read?_taking .variableName _ _ _ hpattern hne s.modes.depth s.passed
    rw [htake] at hread
    rw [hkind]
    exact reading_eq_of_rules hrules
      (List.forall_mem_singleton.2 (Rule.lexemes?_eq_none hescaped)) hread

theorem lexemes?_eq_none_of_or (h : (escape? s.ahead).or (StringUnit.reference? s.ahead) = none) :
    ∀ rule ∈ [Rule.taking .stringEscape escaped, Rule.taking .variableName (Pattern.reference "$")],
      Rule.lexemes? rule.parts s.ahead = none := by
  obtain ⟨he, hr⟩ := Option.or_eq_none_iff.1 h
  have hescaped : escaped s.ahead = none := by rw [escaped_eq, he]; rfl
  have hreference : Pattern.reference "$" s.ahead = none := by rw [reference_eq, hr]; rfl
  simp only [List.forall_mem_cons]
  exact ⟨Rule.lexemes?_eq_none hescaped, Rule.lexemes?_eq_none hreference, List.forall_mem_nil _⟩

theorem reading_of_quote (hm : s.modes.top = .doubleString) (hs : s.ahead = '"' :: r) :
    s.reading = ⟨[⟨.string, ['"']⟩], .pop⟩ := by
  have hnone : (escape? s.ahead).or (StringUnit.reference? s.ahead) = none := by
    rw [hs]
    exact or_eq_none_of_ne (by decide) (by decide)
  have hrules : s.modes.top.rules =
      [Rule.taking .stringEscape escaped, Rule.taking .variableName (Pattern.reference "$")] ++
        Rule.quoteClosing :: Rule.doubleString.drop 3 := by
    rw [hm]; rfl
  have hlexemes : Rule.lexemes? Rule.quoteClosing.parts s.ahead = some ([⟨.string, ['"']⟩], r) := by
    rw [hs]
    rfl
  exact reading_eq_of_rules hrules (lexemes?_eq_none_of_or hnone)
    (Rule.read?_eq_some rfl hlexemes rfl rfl)

theorem reading_of_plain (hm : s.modes.top = .doubleString) (hs : s.ahead = c :: r)
    (hc : isOneOf "\\\"$" c = false) :
    s.reading = ⟨[⟨.string, c :: r.takeWhile fun c => !isOneOf "\\\"$" c⟩], .stay⟩ := by
  rw [reading, reading?_of_plain hm hs hc]
  rfl

theorem reading_of_lone (hm : s.modes.top = .doubleString) (hs : s.ahead = c :: r)
    (hnone : (escape? s.ahead).or (StringUnit.reference? s.ahead) = none)
    (hc : c = '\\' ∨ c = '$') : s.reading = ⟨[⟨.plainText, [c]⟩], .stay⟩ := by
  have hquote : literal "\"" s.ahead = none := by
    rw [hs]
    rcases hc with rfl | rfl <;> rfl
  have hrun : run1 (fun c => !isOneOf "\\\"$" c) s.ahead = none := by
    rw [hs]
    rcases hc with rfl | rfl <;> rfl
  have hrules : s.modes.top.rules =
      [Rule.taking .stringEscape escaped, Rule.taking .variableName (Pattern.reference "$")] ++
        [Rule.quoteClosing, Rule.taking .string (run1 fun c => !isOneOf "\\\"$" c)] := by
    rw [hm]; rfl
  have hread : s.reading? = none := by
    rw [reading?, hrules]
    refine Rule.findSome?_read?_eq_none
      (List.forall_mem_append.2 ⟨lexemes?_eq_none_of_or hnone, ?_⟩) _ _
    simp only [List.forall_mem_cons]
    exact ⟨Rule.lexemes?_eq_none hquote, Rule.lexemes?_eq_none hrun, List.forall_mem_nil _⟩
  rw [reading, hread, hs]
  rfl

inductive StringTurn (s : Station) : Prop
  | closing (ahead : s.ahead = '"' :: s.next.ahead)
      (reading : s.reading = ⟨[⟨.string, ['"']⟩], .pop⟩)
  | units {kind : Kind} {us : List StringUnit}
      (reading : s.reading = ⟨[⟨kind, us.flatMap StringUnit.text⟩], .stay⟩)
      (ofText : ofText s.ahead = us ++ ofText s.next.ahead) (quote : single '"' ∉ us)
      (lexemes : lexemes (us ++ body (StringUnit.ofText s.next.ahead)) =
        ⟨kind, us.flatMap StringUnit.text⟩ :: lexemes (body (StringUnit.ofText s.next.ahead)))

theorem stringTurn_of_unit (hreading : s.reading = ⟨[⟨u.kind, u.text⟩], .stay⟩)
    (hunits : ofText s.ahead = u :: ofText s.next.ahead) (hkind : u.kind ≠ .string) :
    s.StringTurn := by
  have htext : [u].flatMap StringUnit.text = u.text := List.append_nil _
  rw [← htext] at hreading
  refine .units hreading hunits ?_ ?_
  · rintro hquote
    obtain rfl := List.mem_singleton.1 hquote
    exact hkind rfl
  · rw [htext]
    exact lexemes_cons_of_ne fun h => absurd h hkind

theorem stringTurn_of_plain (hm : s.modes.top = .doubleString) (hs : s.ahead = c :: r)
    (hc : isOneOf "\\\"$" c = false) : s.StringTurn := by
  have hreading := reading_of_plain hm hs hc
  have hplain : ∀ d ∈ c :: r.takeWhile (fun c => !isOneOf "\\\"$" c),
      isOneOf "\\\"$" d = false := by
    refine List.forall_mem_cons.2 ⟨hc, fun d hd => ?_⟩
    simpa using List.all_eq_true.1 List.all_takeWhile d hd
  have hstop : ∀ d ∈ s.next.ahead.head?, isOneOf "\\\"$" d := by
    intro d hd
    rw [next_of_reading hreading, hs] at hd
    simpa using stop_of_takeWhile d hd
  have happend := s.text_append_ahead
  have hne := List.cons_ne_nil c (r.takeWhile fun c => !isOneOf "\\\"$" c)
  generalize c :: r.takeWhile (fun c => !isOneOf "\\\"$" c) = w at hreading hplain hne
  have htext : (w.map single).flatMap StringUnit.text = w := by
    rw [List.flatMap_map]
    exact List.flatMap_singleton' w
  rw [← htext] at hreading
  rw [Reading.text, hreading, List.flatMap_singleton, htext] at happend
  refine .units hreading ?_ ?_ ?_
  · rw [← ofText_run hplain, happend]
  · intro hquote
    obtain ⟨d, hd, hsingle⟩ := List.mem_map.1 hquote
    obtain rfl := StringUnit.single.inj hsingle
    exact absurd (hplain _ hd) (by decide)
  · rw [htext]
    exact lexemes_run hne hplain (kind_of_mem_head?_body hstop)

theorem stringTurn (hs : s.ahead ≠ []) (hm : s.modes.top = .doubleString) : s.StringTurn := by
  have happend := s.text_append_ahead
  obtain ⟨c, r, hr⟩ := List.exists_cons_of_ne_nil hs
  cases hor : (escape? s.ahead).or (StringUnit.reference? s.ahead) with
  | some u =>
    have hreading := reading_of_or hm hor
    have htext : s.reading.text = u.text := by rw [hreading]; exact List.append_nil _
    rw [htext] at happend
    exact stringTurn_of_unit hreading (ofText_of_or hor happend.symm) (kind_ne_of_or hor)
  | none =>
    cases hc : isOneOf "\\\"$" c with
    | false => exact stringTurn_of_plain hm hr hc
    | true =>
      have hmark : c ∈ ['\\', '"', '$'] := List.contains_iff_mem.1 hc
      simp only [List.mem_cons, List.not_mem_nil, or_false] at hmark
      by_cases hquote : c = '"'
      · subst hquote
        have hreading := reading_of_quote hm hr
        have htext : s.reading.text = ['"'] := by rw [hreading]; rfl
        rw [htext] at happend
        exact .closing happend.symm hreading
      · have hlone : c = '\\' ∨ c = '$' := hmark.imp_right fun h => h.resolve_left hquote
        have hkind : (single c).kind = .plainText := if_pos hlone
        have hreading := reading_of_lone hm hr hor hlone
        have htext : s.reading.text = [c] := by rw [hreading]; rfl
        rw [htext, hr] at happend
        have hnext : s.next.ahead = r := (List.cons.inj happend).2
        rw [hr] at hor
        rw [← hkind] at hreading
        refine stringTurn_of_unit hreading ?_ (by rw [hkind]; decide)
        rw [hr, ofText_single hor, hnext]

variable {top : Mode} {below : List Mode}

theorem tokens_append_layout {kind : Kind} {v : List Char} {change : ModeChange}
    {ls ms : List Lexeme} (h : s.reading = ⟨[⟨kind, v⟩], change⟩) (hls : ls = ⟨kind, v⟩ :: ms) :
    s.tokens ++ Lexeme.layout (bytes s.next.passed) ms = Lexeme.layout (bytes s.passed) ls := by
  rw [hls, bytes_passed_next, tokens, Reading.text, h, ← Lexeme.layout_append]
  rfl

theorem exists_passage (hm : s.modes = ⟨.doubleString, top :: below⟩) :
    let us := StringUnit.ofText s.ahead
    ∃ x : Station,
      (s.lexer []).Passage s.modes
        (Lexeme.layout (bytes s.passed) (StringUnit.lexemes (body us) ++ closing us))
        (x.lexer []) ∧
      s.ahead = (body us).flatMap StringUnit.text ++ ((closing us).flatMap Lexeme.text ++ x.ahead) ∧
      (single '"' ∈ us → x.modes = ⟨top, below⟩) ∧
      (single '"' ∉ us → x.modes = s.modes ∧ x.ahead = []) := by
  induction s using run_induction with
  | last s h =>
    intro us
    have hus : us = [] := by
      show StringUnit.ofText s.ahead = []
      rw [h, StringUnit.ofText]
    rw [hus]
    exact ⟨s, .refl _, rfl, fun h => (List.not_mem_nil h).elim, fun _ => ⟨rfl, h⟩⟩
  | round s h ih =>
    intro us
    have hus : StringUnit.ofText s.ahead = us := rfl
    cases stringTurn h (by rw [hm]) with
    | closing ahead reading =>
      rw [ahead] at hus
      obtain ⟨hmem, hbody, hclosing⟩ := quote_closes s.next.ahead
      rw [hus] at hmem hbody hclosing
      have hmodes : s.next.modes = ⟨top, below⟩ := by
        show s.modes.change s.reading.change = _
        rw [reading, hm]
        rfl
      have htokens : s.tokens = Lexeme.layout (bytes s.passed) [⟨.string, ['"']⟩] := by
        rw [tokens, reading]
      have hround := passage_round h rfl (.refl (s.next.lexer []))
      rw [List.append_nil, htokens] at hround
      rw [hbody, hclosing]
      exact ⟨s.next, hround, ahead, fun _ => hmodes, fun hnot => absurd hmem hnot⟩
    | @units kind vs reading ofText quote lexemes =>
      have hmodes : s.next.modes = s.modes := by
        show s.modes.change s.reading.change = _
        rw [reading]
        rfl
      have htext : s.reading.text = vs.flatMap StringUnit.text := by
        rw [Reading.text, reading]
        exact List.append_nil _
      obtain ⟨x, hpassage, hahead, hclosed, hopen⟩ := ih (hmodes.trans hm)
      rw [ofText] at hus
      rw [← hus, body_append quote, closing_append quote, List.mem_append, or_iff_right quote]
      refine ⟨x, ?_, ?_, hclosed, fun hnot => hmodes ▸ hopen hnot⟩
      · have hround := passage_round h hmodes.symm hpassage
        rw [tokens_append_layout reading (congrArg (· ++ _) lexemes), hmodes] at hround
        exact hround
      · rw [List.flatMap_append, List.append_assoc, ← hahead, ← htext, s.text_append_ahead]

end Station

open StringUnit in
/-- A text in double quotes from its beginning on, after any round that has opened it. -/
theorem doubleString_passage {l : Lexer} {r : Lexer.Round} (h : l.round = .ok (some r))
    (hopen : r.lexer.modes = ⟨.doubleString, l.modes.top :: l.modes.below⟩) :
    ∃ v, r.lexer.remaining = .ok v ∧
      (single '"' ∈ ofText v →
        ∃ w ts z, v = (body (ofText v)).flatMap text ++ '"' :: w ∧
          ts = r.lexer.pending ++
            Lexeme.layout r.lexer.pos (lexemes (body (ofText v)) ++ [⟨.string, ['"']⟩]) ∧
          r.lexer.HandsOut ts z ∧ r.lexer.Passage r.lexer.modes ts z ∧
          z.modes = l.modes ∧ z.remaining = .ok w ∧ z.pending = []) ∧
      (single '"' ∉ ofText v →
        ∃ ts z, ts = r.lexer.pending ++ Lexeme.layout r.lexer.pos (lexemes (ofText v)) ∧
          r.lexer.HandsOut ts z ∧ r.lexer.Passage r.lexer.modes ts z ∧
          z.modes = r.lexer.modes ∧ z.atEnd ∧ z.pending = []) := by
  obtain ⟨s, -, -, rfl⟩ := Lexer.round_eq_some h
  obtain ⟨x, hpassage, hahead, hclosed, hnot⟩ := Station.exists_passage (s := s.next) hopen
  have hpassage := Station.passage_pending (l.pending ++ s.tokens) hpassage
  have htop : s.next.modes.top ≠ .blockLiteral := by
    rw [show s.next.modes = _ from hopen]
    exact Mode.noConfusion
  have hhands := hpassage.handsOut rfl fun h => absurd h htop
  refine ⟨s.next.ahead, rfl, fun hquote => ?_, fun hquote => ?_⟩
  · have hclosing : closing (ofText s.next.ahead) = [⟨.string, ['"']⟩] := if_pos hquote
    rw [hclosing] at hpassage hhands hahead
    exact ⟨x.ahead, _, x.lexer [], hahead, rfl, hhands, hpassage, hclosed hquote, rfl, rfl⟩
  · have hclosing : closing (ofText s.next.ahead) = [] := if_neg hquote
    have hbody : body (ofText s.next.ahead) = ofText s.next.ahead :=
      List.takeWhile_eq_self_iff.2 fun u hu => decide_eq_true (by rintro rfl; exact hquote hu)
    obtain ⟨hmodes, hend⟩ := hnot hquote
    rw [hbody, hclosing, List.append_nil] at hpassage hhands
    exact ⟨_, x.lexer [], rfl, hhands, hpassage, hmodes, List.isEmpty_iff.2 hend, rfl⟩

theorem doubleString_passage_reference :
    let source := ['"', 'a', '\\', 'n', '$', '[', 'x', '"', ']', '$', '"', ' ', 'b']
    let ts : List Token :=
      [⟨.string, ['"'], ⟨0, 1⟩⟩, ⟨.string, ['a'], ⟨1, 2⟩⟩, ⟨.stringEscape, ['\\', 'n'], ⟨2, 4⟩⟩,
        ⟨.variableName, ['$', '[', 'x', '"', ']'], ⟨4, 9⟩⟩, ⟨.plainText, ['$'], ⟨9, 10⟩⟩,
        ⟨.string, ['"'], ⟨10, 11⟩⟩]
    ∃ r z, (Lexer.ofText source).round = .ok (some r) ∧ r.lexer.HandsOut ts z ∧
      r.lexer.Passage ⟨.doubleString, [.root]⟩ ts z ∧
      z.modes = {} ∧ z.remaining = .ok [' ', 'b'] := by
  intro source ts
  let s : Station := { ahead := source }
  have hround : (Lexer.ofText source).round = .ok (some ⟨s.next.lexer s.tokens, s.record⟩) :=
    Station.round_lexer (s := s) [] (List.cons_ne_nil _ _)
  have hopen : s.next.modes = ⟨.doubleString, [.root]⟩ := by decide +kernel
  obtain ⟨v, hv, hclosed, -⟩ := doubleString_passage hround hopen
  obtain rfl : s.next.ahead = v := Except.ok.inj hv
  have hquote : StringUnit.single '"' ∈ StringUnit.ofText s.next.ahead := by decide +kernel
  obtain ⟨w, us, z, hsplit, hus, hhands, hpassage, hmodes, hw, -⟩ := hclosed hquote
  have hahead : s.next.ahead = (StringUnit.body (StringUnit.ofText s.next.ahead)).flatMap
      StringUnit.text ++ '"' :: [' ', 'b'] := by decide +kernel
  obtain rfl : [' ', 'b'] = w :=
    (List.cons.inj (List.append_cancel_left (hahead.symm.trans hsplit))).2
  have htokens : s.tokens ++ Lexeme.layout (bytes s.next.passed)
      (StringUnit.lexemes (StringUnit.body (StringUnit.ofText s.next.ahead)) ++
        [⟨.string, ['"']⟩]) = ts := by decide +kernel
  obtain rfl : us = ts := hus.trans htokens
  have hmodes' : (s.next.lexer s.tokens).modes = ⟨.doubleString, [.root]⟩ := hopen
  rw [hmodes'] at hpassage
  exact ⟨_, z, hround, hhands, hpassage, hmodes, hw⟩

end Tony
