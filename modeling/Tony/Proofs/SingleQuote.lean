import Tony.Proofs.Candidates
import Tony.Proofs.NextToken

/-!
Texts in single quotes. Such a text is scanned in units: a backslash and the character after it are
one, and any other character is one by itself. Main statement: the scan finds the only text in
single quotes that there is. If it meets something else than a closing quote first, the opening
quote is left alone.
-/

namespace Tony

open Form (QuotedBody Quoted)
open Pattern

inductive QuotedUnit where
  | pair (c : Char)
  | backslash
  | single (c : Char)
  deriving DecidableEq, Repr

namespace QuotedUnit

def text : QuotedUnit → List Char
  | pair c => ['\\', c]
  | backslash => ['\\']
  | single c => [c]

def ofText : List Char → List QuotedUnit
  | [] => []
  | ['\\'] => [backslash]
  | '\\' :: c :: s => pair c :: ofText s
  | c :: s => single c :: ofText s

/-- The scan ends at a quote, and where no text in quotes can go on. -/
def endsScan (u : QuotedUnit) : Bool :=
  u = single '\'' || u = pair '\n' || u = backslash

def ending? (s : List Char) : Option QuotedUnit :=
  (ofText s).find? endsScan

def body (s : List Char) : List Char :=
  ((ofText s).takeWhile fun u => !u.endsScan).flatMap text

theorem ofText_cons {c : Char} (hc : c ≠ '\\') (s : List Char) :
    ofText (c :: s) = single c :: ofText s := by
  rw [ofText]
  · exact fun h _ => hc h
  · exact fun _ _ h _ => hc h

theorem flatMap_text_ofText (s : List Char) : (ofText s).flatMap text = s := by
  fun_induction ofText s with
  | case1 | case2 => rfl
  | case3 c s ih | case4 c s _ _ ih => rw [List.flatMap_cons, ih]; rfl

theorem ne_single_backslash {s : List Char} : ∀ u ∈ ofText s, u ≠ single '\\' := by
  fun_induction ofText s with
  | case1 => exact List.forall_mem_nil _
  | case2 => exact List.forall_mem_singleton.2 nofun
  | case3 c s ih => exact List.forall_mem_cons.2 ⟨nofun, ih⟩
  | case4 c s hlast hpair ih =>
    refine List.forall_mem_cons.2 ⟨fun h => ?_, ih⟩
    obtain rfl : c = '\\' := single.inj h
    cases s with
    | nil => exact hlast rfl rfl
    | cons d s => exact hpair d s rfl rfl

theorem endsScan_iff {u : QuotedUnit} :
    u.endsScan ↔ u = single '\'' ∨ u = pair '\n' ∨ u = backslash := by
  simp only [endsScan, Bool.or_eq_true, decide_eq_true_eq, or_assoc]

theorem body_of_units {s : List Char} {us vs : List QuotedUnit} {v : QuotedUnit}
    (hs : ofText s = us ++ v :: vs) (hus : ∀ u ∈ us, u.endsScan = false) (hv : v.endsScan) :
    body s = us.flatMap text := by
  have htake : (us ++ v :: vs).takeWhile (fun u => !u.endsScan) = us := by
    rw [List.takeWhile_append_of_pos fun u hu => by rw [hus u hu]; rfl, List.takeWhile_cons, hv]
    exact List.append_nil us
  rw [body, hs, htake]

theorem quotedBody_of_units {us : List QuotedUnit}
    (h : ∀ u ∈ us, u ≠ single '\\' ∧ u.endsScan = false) : QuotedBody (us.flatMap text) := by
  induction us with
  | nil => exact .nil
  | cons u us ih =>
    obtain ⟨⟨hslash, hends⟩, hus⟩ := List.forall_mem_cons.1 h
    have hnot := mt endsScan_iff.2 (Bool.eq_false_iff.1 hends)
    rw [List.flatMap_cons]
    cases u with
    | pair c => exact .escaped c (fun hc => hnot (.inr (.inl (congrArg pair hc)))) (ih hus)
    | backslash => exact absurd (.inr (.inr rfl)) hnot
    | single c =>
      exact .plain c (fun hc => hslash (congrArg single hc))
        (fun hc => hnot (.inl (congrArg single hc))) (ih hus)

section Body

variable {w : List Char} (h : QuotedBody w)

include h

theorem endsScan_eq_false_of_body : ∀ u ∈ ofText w, u.endsScan = false := by
  induction h with
  | nil => exact List.forall_mem_nil _
  | plain c hslash hquote _ ih =>
    rw [ofText_cons hslash]
    refine List.forall_mem_cons.2 ⟨Bool.eq_false_iff.2 fun hends => ?_, ih⟩
    rcases endsScan_iff.1 hends with hc | hc | hc
    · exact hquote (single.inj hc)
    · cases hc
    · cases hc
  | escaped c hfeed _ ih =>
    rw [ofText]
    refine List.forall_mem_cons.2 ⟨Bool.eq_false_iff.2 fun hends => ?_, ih⟩
    rcases endsScan_iff.1 hends with hc | hc | hc
    · cases hc
    · exact hfeed (pair.inj hc)
    · cases hc

theorem ofText_append_of_body (s : List Char) : ofText (w ++ s) = ofText w ++ ofText s := by
  induction h with
  | nil => rfl
  | plain c hslash _ _ ih => rw [List.cons_append, ofText_cons hslash, ofText_cons hslash, ih]; rfl
  | escaped c _ _ ih => rw [List.cons_append, List.cons_append, ofText, ofText, ih]; rfl

theorem scan_of_body (r : List Char) :
    ending? (w ++ '\'' :: r) = some (single '\'') ∧ body (w ++ '\'' :: r) = w := by
  have hunits : ofText (w ++ '\'' :: r) = ofText w ++ single '\'' :: ofText r := by
    rw [ofText_append_of_body h, ofText_cons (by decide)]
  have hends := endsScan_eq_false_of_body h
  constructor
  · rw [ending?, hunits, List.find?_eq_some_iff_append]
    exact ⟨rfl, ofText w, ofText r, rfl, fun u hu => by rw [hends u hu]; rfl⟩
  · rw [body_of_units hunits hends rfl, flatMap_text_ofText]

end Body

theorem exists_body {s : List Char} (h : ending? s = some (single '\'')) :
    ∃ r, QuotedBody (body s) ∧ s = body s ++ '\'' :: r := by
  obtain ⟨-, us, vs, hunits, hus⟩ := List.find?_eq_some_iff_append.1 h
  have hends : ∀ u ∈ us, u.endsScan = false := fun u hu => by simpa using hus u hu
  rw [body_of_units hunits hends rfl]
  refine ⟨vs.flatMap text, quotedBody_of_units fun u hu => ⟨?_, hends u hu⟩, ?_⟩
  · refine ne_single_backslash (s := s) u ?_
    rw [hunits]
    exact List.mem_append_left _ hu
  · have htext := flatMap_text_ofText s
    rw [hunits, List.flatMap_append, List.flatMap_cons] at htext
    exact htext.symm

end QuotedUnit

open QuotedUnit (ending? body single)

/-- Of all texts in single quotes that could begin a text, the scan finds the only one that does. -/
theorem Form.quoted_prefix_iff {v r : List Char} :
    Quoted v ∧ v <+: '\'' :: r ↔
      ending? r = some (single '\'') ∧ v = '\'' :: body r ++ ['\''] := by
  constructor
  · rintro ⟨⟨w, hw, rfl⟩, t, ht⟩
    obtain rfl : w ++ '\'' :: t = r := by
      rw [List.append_assoc] at ht
      exact (List.cons.inj ht).2
    obtain ⟨hending, hbody⟩ := QuotedUnit.scan_of_body hw t
    exact ⟨hending, by rw [hbody]⟩
  · rintro ⟨hending, rfl⟩
    obtain ⟨t, hquoted, hr⟩ := QuotedUnit.exists_body hending
    refine ⟨⟨body r, hquoted, rfl⟩, t, ?_⟩
    rw [List.append_assoc]
    exact congrArg ('\'' :: ·) hr.symm

theorem Mode.candidates_quote {m : Mode} (hm : m = .root ∨ m = .tagArgs) :
    m.candidates '\'' = [Rule.taking .string quoted] := by
  rcases hm with rfl | rfl <;> rfl

namespace Station

variable {s : Station} {r : List Char}

theorem reading?_of_quoted (hm : s.modes.top = .root ∨ s.modes.top = .tagArgs)
    (hs : s.ahead = '\'' :: r) (h : ending? r = some (single '\'')) :
    s.reading? = some ⟨[⟨.string, '\'' :: body r ++ ['\'']⟩], .stay⟩ := by
  cases hn : quoted ('\'' :: r) with
  | none =>
    obtain ⟨hquoted, hprefix⟩ := Form.quoted_prefix_iff.2 ⟨h, rfl⟩
    exact absurd hprefix (finds_quoted.eq_none_iff.1 hn _ hquoted)
  | some n =>
    have hlongest := finds_quoted.longest hn
    obtain ⟨-, htake⟩ := Form.quoted_prefix_iff.1 ⟨hlongest.form, hlongest.beginning⟩
    have hne : ('\'' :: r).take n ≠ [] := by
      rw [htake]
      exact List.cons_ne_nil _ _
    rw [reading?_eq_candidates hs, Mode.candidates_quote hm, List.findSome?_singleton, hs,
      Rule.read?_taking hn hne, htake]

theorem reading?_of_not_quoted (hm : s.modes.top = .root ∨ s.modes.top = .tagArgs)
    (hs : s.ahead = '\'' :: r) (h : ending? r ≠ some (single '\'')) : s.reading? = none := by
  refine (reading?_eq_none_iff_of_quote hs hm).2 fun v hv hprefix => h ?_
  exact (Form.quoted_prefix_iff.1 ⟨hv, hprefix⟩).1

end Station

theorem next_of_quote {l : Lexer} {r : List Char} (hm : l.mode = .root ∨ l.mode = .tagArgs)
    (hp : l.pending = []) (hr : l.remaining = .ok ('\'' :: r)) :
    (∀ v, Quoted v ∧ v <+: '\'' :: r ↔
      ending? r = some (single '\'') ∧ v = '\'' :: body r ++ ['\'']) ∧
    (ending? r = some (single '\'') → l.Gives .string ('\'' :: body r ++ ['\'']) l.modes) ∧
    (ending? r ≠ some (single '\'') → l.Gives .plainText ['\''] l.modes) := by
  obtain ⟨s, rfl, hs, -⟩ := Lexer.exists_station_of_remaining hp hr
  refine ⟨fun v => Form.quoted_prefix_iff, fun h => ?_, fun h => ?_⟩
  · exact Station.gives_of_reading? (Station.reading?_of_quoted hm hs h) (List.cons_ne_nil _ _)
  · exact Station.gives_of_none hs (Station.reading?_of_not_quoted hm hs h)

theorem next_of_quote_lineFeed :
    let source := ['\'', 'a', '\n', '\\', '\n', '\'']
    let l := Lexer.ofText source
    l.mode = .root ∧ l.pending = [] ∧ l.remaining = .ok source ∧
      ending? source.tail = some (.pair '\n') ∧ l.Gives .plainText ['\''] l.modes := by
  intro source l
  obtain ⟨-, -, hgives⟩ := next_of_quote (l := l) (r := source.tail) (.inl rfl) rfl rfl
  exact ⟨rfl, rfl, rfl, by decide, hgives (by decide)⟩

end Tony
