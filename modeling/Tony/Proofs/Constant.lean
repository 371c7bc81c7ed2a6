import Tony.Proofs.Candidates
import Tony.Proofs.Neighbours
import Tony.Proofs.NextToken

/-!
Constants. Main statement: where one of their words is ahead in a document or among arguments, it is
a constant if it is delimited on both sides, and else the beginning of a name. What delimits a word
before it is not the same as what delimits it after it: a mark on a letter goes on with the word,
but no word goes on behind a mark.
-/

namespace Tony

open Form (Run)
open Pattern
open Unicode (isAlphanumeric isWordPart)

def constants : List (List Char) :=
  ["true".toList, "false".toList, "null".toList]

/-- Between the text `u` before it and the text `v` after it, a word stands by itself. -/
structure Delimited (u v : List Char) : Prop where
  before : ∀ c ∈ u.getLast?, isAlphanumeric c = false ∧ c ≠ '_'
  after : ∀ c ∈ v.head?, isWordPart c = false

theorem delimited_iff {passed v : List Char} :
    Delimited passed.reverse v ↔ Anchor.wordStart.holds passed ∧ endsWord v.head? := by
  have hbefore : Anchor.wordStart.holds passed ↔
      ∀ c ∈ passed.head?, isAlphanumeric c = false ∧ c ≠ '_' := by
    cases passed with
    | nil => exact iff_of_true rfl nofun
    | cons c passed => simp [Anchor.holds]
  have hafter : endsWord v.head? ↔ ∀ c ∈ v.head?, isWordPart c = false := by
    simp only [endsWord, Option.all_eq_true, Bool.not_eq_true', Option.mem_def]
  rw [hbefore, hafter]
  refine ⟨fun h => ⟨?_, h.after⟩, fun h => ⟨?_, h.2⟩⟩
  · rw [← List.getLast?_reverse]
    exact h.before
  · rw [List.getLast?_reverse]
    exact h.1

namespace Pattern

theorem constant_append {w : List Char} (hw : w ∈ constants) (v : List Char) :
    constant (w ++ v) = some w.length := by
  have hall : ∀ w ∈ constants, constant (w ++ v) = some w.length := by
    simp only [constants, List.forall_mem_cons]
    exact ⟨rfl, rfl, rfl, List.forall_mem_nil _⟩
  exact hall w hw

end Pattern

theorem Mode.run_isLetter {m : Mode} {w : List Char} (hw : w ∈ constants) :
    Run (m.isLetter ·) w := by
  have hall : ∀ w ∈ constants, w ≠ [] ∧ w.all m.isLetter := by
    simp only [constants, List.forall_mem_cons]
    cases m <;> exact ⟨⟨List.cons_ne_nil _ _, rfl⟩, ⟨List.cons_ne_nil _ _, rfl⟩,
      ⟨List.cons_ne_nil _ _, rfl⟩, List.forall_mem_nil _⟩
  obtain ⟨hne, hletters⟩ := hall w hw
  exact ⟨hne, List.all_eq_true.1 hletters⟩

theorem exists_cons_of_mem_constants {w : List Char} (hw : w ∈ constants) :
    ∃ c r, c ∈ ['t', 'f', 'n'] ∧ w = c :: r := by
  have hall : ∀ w ∈ constants, ∃ c r, c ∈ ['t', 'f', 'n'] ∧ w = c :: r := by
    simp only [constants, List.forall_mem_cons]
    exact ⟨⟨'t', _, by decide, rfl⟩, ⟨'f', _, by decide, rfl⟩, ⟨'n', _, by decide, rfl⟩,
      List.forall_mem_nil _⟩
  exact hall w hw

theorem Mode.candidates_constant {m : Mode} (hm : m = .root ∨ m = .tagArgs) {c : Char}
    (hc : c ∈ ['t', 'f', 'n']) :
    m.candidates c = [Rule.constantWord, Rule.taking .name (run1 m.isLetter)] := by
  have hall : ∀ c ∈ ['t', 'f', 'n'],
      m.candidates c = [Rule.constantWord, Rule.taking .name (run1 m.isLetter)] := by
    simp only [List.forall_mem_cons]
    rcases hm with rfl | rfl <;> exact ⟨rfl, rfl, rfl, List.forall_mem_nil _⟩
  exact hall c hc

namespace Station

variable {s : Station} {w v : List Char}

theorem reading?_eq_of_constant (hm : s.modes.top = .root ∨ s.modes.top = .tagArgs)
    (hw : w ∈ constants) (hs : s.ahead = w ++ v) :
    s.reading? =
      (Rule.constantWord.read? s.modes.depth s.passed s.ahead).or
        ((Rule.taking .name (run1 s.modes.top.isLetter)).read? s.modes.depth s.passed s.ahead) := by
  obtain ⟨c, r, hc, rfl⟩ := exists_cons_of_mem_constants hw
  rw [reading?_eq_candidates hs, Mode.candidates_constant hm hc, List.findSome?_cons,
    List.findSome?_singleton]
  cases Rule.constantWord.read? s.modes.depth s.passed s.ahead <;> rfl

theorem reading?_of_delimited (hm : s.modes.top = .root ∨ s.modes.top = .tagArgs)
    (hw : w ∈ constants) (hs : s.ahead = w ++ v) (h : Delimited s.passed.reverse v) :
    s.reading? = some ⟨[⟨.keywordConstant, w⟩], .stay⟩ := by
  obtain ⟨hanchor, hfollow⟩ := delimited_iff.1 h
  have hread := Rule.read?_of_append Rule.constantWord s.modes.depth s.passed rfl hanchor
    (constant_append hw v) hfollow (Mode.run_isLetter (m := s.modes.top) hw).1
  rw [reading?_eq_of_constant hm hw hs, hs, hread]
  rfl

theorem reading?_of_not_delimited (hm : s.modes.top = .root ∨ s.modes.top = .tagArgs)
    (hw : w ∈ constants) (hs : s.ahead = w ++ v) (h : ¬ Delimited s.passed.reverse v) :
    ∃ name, Form.Longest (Run (s.modes.top.isLetter ·)) s.ahead name ∧
      s.reading? = some ⟨[⟨.name, name⟩], .stay⟩ := by
  have hconstant : Rule.constantWord.read? s.modes.depth s.passed s.ahead = none := by
    have hlexemes : Rule.lexemes? Rule.constantWord.parts (w ++ v) =
        some ([⟨.keywordConstant, w⟩], v) :=
      Rule.lexemes?_cons_of_append (constant_append hw v) rfl
    rw [hs]
    by_cases hanchor : Anchor.wordStart.holds s.passed
    · have hfollow : endsWord v.head? = false :=
        Bool.eq_false_iff.2 fun hfollow => h (delimited_iff.2 ⟨hanchor, hfollow⟩)
      exact Rule.read?_eq_none_of_follow hlexemes hfollow _ _
    · exact Rule.read?_eq_none_of_anchor hanchor _ _
  obtain ⟨n, hn, -⟩ := (finds_run1 s.modes.top.isLetter).reaches w v (Mode.run_isLetter hw)
  rw [← hs] at hn
  have hlongest := (finds_run1 s.modes.top.isLetter).longest hn
  refine ⟨s.ahead.take n, hlongest, ?_⟩
  rw [reading?_eq_of_constant hm hw hs, hconstant, Option.none_or]
  exact Rule.read?_taking hn hlongest.form.1 _ _

end Station

theorem next_of_constant {l : Lexer} {u r : List Char} (hm : l.mode = .root ∨ l.mode = .tagArgs)
    (hp : l.pending = []) (hr : l.remaining = .ok r) (htext : l.text = u ++ r) :
    ((∃ y t, l.next = .ok y ∧ y.token = some t ∧ t.kind = .keywordConstant) ↔
      ∃ w ∈ constants, ∃ v, r = w ++ v ∧ Delimited u v) ∧
    ∀ w ∈ constants, ∀ v, r = w ++ v →
      (Delimited u v → l.Gives .keywordConstant w l.modes) ∧
      (¬ Delimited u v → ∃ name, w <+: name ∧
        Form.Longest (Run (l.mode.isLetter ·)) r name ∧ l.Gives .name name l.modes) := by
  obtain ⟨s, rfl, rfl, -⟩ := Lexer.exists_station_of_remaining hp hr
  obtain rfl : s.passed.reverse = u := List.append_cancel_right htext
  have hconstant : ∀ w ∈ constants, ∀ v, s.ahead = w ++ v → Delimited s.passed.reverse v →
      (s.lexer []).Gives .keywordConstant w s.modes := by
    intro w hw v hv h
    exact Station.gives_of_reading? (Station.reading?_of_delimited hm hw hv h)
      (Mode.run_isLetter (m := s.modes.top) hw).1
  have hname : ∀ w ∈ constants, ∀ v, s.ahead = w ++ v → ¬ Delimited s.passed.reverse v →
      ∃ name, w <+: name ∧ Form.Longest (Run (s.modes.top.isLetter ·)) s.ahead name ∧
        (s.lexer []).Gives .name name s.modes := by
    intro w hw v hv h
    obtain ⟨name, hlongest, hread⟩ := Station.reading?_of_not_delimited hm hw hv h
    have hprefix : w <+: s.ahead := ⟨v, hv.symm⟩
    have hle := hlongest.length_le w (Mode.run_isLetter hw) hprefix
    exact ⟨name, List.prefix_of_prefix_length_le hprefix hlongest.beginning hle, hlongest,
      Station.gives_of_reading? hread hlongest.form.1⟩
  refine ⟨⟨?_, ?_⟩, fun w hw v hv => ⟨hconstant w hw v hv, hname w hw v hv⟩⟩
  · rintro ⟨y, t, hy, ht, hkind⟩
    have hblock : s.modes.top ≠ .blockLiteral := by
      intro h
      rcases hm with hm | hm <;> cases hm.symm.trans h
    obtain ⟨hspelling, v, hv⟩ := Station.next_value hblock hy ht
    rw [hkind] at hspelling
    refine ⟨t.value, hspelling, v, hv.symm, ?_⟩
    by_contra h
    obtain ⟨name, -, -, z, rest, hz, hu, -⟩ := hname t.value hspelling v hv.symm h
    obtain rfl := Except.ok.inj (hy.symm.trans hz)
    obtain rfl := Option.some.inj (ht.symm.trans hu)
    cases hkind
  · rintro ⟨w, hw, v, hv, h⟩
    obtain ⟨y, rest, hy, ht, -⟩ := hconstant w hw v hv h
    exact ⟨y, _, hy, ht, rfl⟩

theorem next_of_constant_mark :
    let l := (Lexer.ofText ['\u0301', 't', 'r', 'u', 'e']).advance 2
    l.mode = .root ∧ l.pending = [] ∧ l.remaining = .ok ['t', 'r', 'u', 'e'] ∧
      l.text = ['\u0301'] ++ ['t', 'r', 'u', 'e'] ∧ Delimited ['\u0301'] [] ∧
      l.Gives .keywordConstant ['t', 'r', 'u', 'e'] l.modes := by
  intro l
  have hdelimited : Delimited ['\u0301'] [] := by
    refine ⟨fun c hc => ?_, nofun⟩
    obtain rfl := Option.some.inj hc
    exact ⟨by decide +kernel, by decide⟩
  have hgives := (next_of_constant (l := l) (u := ['\u0301']) (.inl rfl) rfl rfl rfl).2
    "true".toList (List.mem_cons_self ..) [] rfl
  exact ⟨rfl, rfl, rfl, rfl, hdelimited, hgives.1 hdelimited⟩

end Tony
