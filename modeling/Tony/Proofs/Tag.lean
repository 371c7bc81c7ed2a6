import Tony.Proofs.Candidates
import Tony.Proofs.NextToken

/-!
Tags in a document. Main statement: a tag has the longest name that there is. With a parenthesis
right behind it the tag opens arguments, and before anything that may not follow a tag it is none.
-/

namespace Tony

open Form (Run Segments IsTagLetter)
open Pattern
open Text (bytes)
open Unicode (isBlank)

namespace Form

def TagName : Form := fun s =>
  s = [] ∨ Segments IsTagLetter s

theorem Segments.ne_nil {q : Char → Prop} {s : List Char} (h : Segments q s) : s ≠ [] := by
  obtain ⟨c, hc, -⟩ := h.exists_head?
  rintro rfl
  cases hc

end Form

open Form (TagName)

namespace Pattern

theorem tagName_finds : tagName.Finds (Segments IsTagLetter) :=
  finds_tagName.congr fun _ =>
    ⟨fun h => h.mono fun _ => isTagLetter_iff.1, fun h => h.mono fun _ => isTagLetter_iff.2⟩

theorem exists_tagName (r : List Char) :
    ∃ name rest, r = name ++ rest ∧ TagName.Longest r name ∧
      tagName r = if name = [] then none else some name.length := by
  cases hr : tagName r with
  | none =>
    have habsent := tagName_finds.eq_none_iff.1 hr
    refine ⟨[], r, rfl, ⟨.inl rfl, List.nil_prefix, ?_⟩, rfl⟩
    rintro v (rfl | hv) hprefix
    · exact Nat.le_refl _
    · exact absurd hprefix (habsent v hv)
  | some n =>
    have hlongest := tagName_finds.longest hr
    have hlength : (r.take n).length = n := List.length_take_of_le (bounded_tagName r n hr)
    refine ⟨r.take n, r.drop n, (List.take_append_drop n r).symm,
      ⟨.inr hlongest.form, hlongest.beginning, ?_⟩, ?_⟩
    · rintro v (rfl | hv) hprefix
      · exact Nat.zero_le _
      · exact hlongest.length_le v hv hprefix
    · rw [if_neg hlongest.form.ne_nil, hlength]

/-- A name that ends right before a parenthesis is the longest one, so there is nothing to gain by
going back. -/
theorem eq_of_parenthesis {r name w : List Char} (h : TagName.Longest r name)
    (hw : Segments IsTagLetter w) (hr : w ++ ['('] <+: r) : w = name := by
  have hwr : w <+: r := (List.prefix_append w ['(']).trans hr
  have hle := h.length_le w (.inr hw) hwr
  have hprefix : w <+: name := List.prefix_of_prefix_length_le hwr h.beginning hle
  refine hprefix.eq_of_length (Nat.le_antisymm hle (Nat.not_lt.1 fun hlt => ?_))
  -- A longer name would have the parenthesis in it.
  have hparen : w ++ ['('] <+: name := by
    refine List.prefix_of_prefix_length_le hr h.beginning ?_
    rw [List.length_append]
    exact hlt
  have hmem : '(' ∈ name := hparen.subset (List.mem_append_right w (List.mem_singleton_self _))
  rcases h.form with rfl | hname
  · cases hmem
  · rcases hname.forall_mem '(' hmem with hletter | hcolon
    · exact absurd hletter (by unfold IsTagLetter; decide)
    · exact absurd hcolon (by decide)

theorem tag_bang (r : List Char) : tag ('!' :: r) = (tagName r).map fun n => 1 + n := by
  show ((tagName.andThen nothing) r).map (fun n => 1 + n) = _
  rw [andThen_nothing]

end Pattern

namespace Rule

def plainTag : Rule :=
  { taking .keyword tag with follow := endsTag }

end Rule

theorem Mode.candidates_bang :
    Mode.root.candidates '!' = [Rule.plainTag, Rule.argumentsOpening] := rfl

namespace Station

variable {s : Station} {name rest : List Char}

theorem endsTag_iff (next : Option Char) :
    endsTag next ↔ ∀ c ∈ next, isBlank c ∨ c ∈ [':', '[', '{', ','] := by
  simp only [endsTag, Option.all_eq_true, Bool.or_eq_true, isOneOf, List.contains_iff_mem]
  rfl

theorem reading?_of_bang (hm : s.modes.top = .root) (hs : s.ahead = '!' :: (name ++ rest))
    (hname : tagName (name ++ rest) = if name = [] then none else some name.length) :
    s.reading? =
      if name = [] then none
      else if endsTag rest.head? then some ⟨[⟨.keyword, '!' :: name⟩], .stay⟩
      else if rest.head? = some '(' then
        some ⟨[⟨.keyword, '!' :: name ++ ['(']⟩], .push .tagArgs⟩
      else none := by
  rw [reading?_eq_candidates hs, hm, Mode.candidates_bang, hs, List.findSome?_cons,
    List.findSome?_singleton]
  by_cases hnil : name = []
  · have htag : tag ('!' :: (name ++ rest)) = none := by rw [tag_bang, hname, if_pos hnil]; rfl
    have hplain : Rule.lexemes? Rule.plainTag.parts ('!' :: (name ++ rest)) = none :=
      Rule.lexemes?_eq_none htag
    have hopening : Rule.lexemes? Rule.argumentsOpening.parts ('!' :: (name ++ rest)) = none :=
      Rule.lexemes?_eq_none (andThen_eq_none htag)
    rw [if_pos hnil, Rule.read?_eq_none hplain, Rule.read?_eq_none hopening]
  · have htag : tag ('!' :: name ++ rest) = some ('!' :: name).length := by
      rw [List.cons_append, tag_bang, hname, if_neg hnil, List.length_cons, Nat.add_comm]
      rfl
    have hplain : Rule.lexemes? Rule.plainTag.parts ('!' :: name ++ rest) =
        some ([⟨.keyword, '!' :: name⟩], rest) := Rule.lexemes?_cons_of_append htag rfl
    rw [if_neg hnil, ← List.cons_append]
    by_cases hends : endsTag rest.head?
    · rw [if_pos hends, Rule.read?_eq_some rfl hplain hends rfl]
      rfl
    · rw [if_neg hends, Rule.read?_eq_none_of_follow hplain (Bool.eq_false_iff.2 hends)]
      by_cases hparen : rest.head? = some '('
      · obtain ⟨v, rfl⟩ := List.head?_eq_some_iff.1 hparen
        have hpattern : tag.andThen (literal "(") ('!' :: name ++ '(' :: v) =
            some ('!' :: name ++ ['(']).length := by
          rw [andThen_append_eq (q := literal "(") htag rfl, List.length_append]
          rfl
        have hopening : Rule.lexemes? Rule.argumentsOpening.parts ('!' :: name ++ ['('] ++ v) =
            some ([⟨.keyword, '!' :: name ++ ['(']⟩], v) :=
          Rule.lexemes?_cons_of_append (by rw [List.append_assoc]; exact hpattern) rfl
        rw [if_pos hparen]
        rw [List.append_assoc] at hopening
        exact Rule.read?_eq_some rfl hopening rfl rfl
      · have hpattern : tag.andThen (literal "(") ('!' :: name ++ rest) = none := by
          unfold Pattern.andThen
          rw [htag, Option.bind_some, List.drop_left, literal_eq_none rfl hparen]
          rfl
        have hopening : Rule.lexemes? Rule.argumentsOpening.parts ('!' :: name ++ rest) = none :=
          Rule.lexemes?_eq_none hpattern
        rw [if_neg hparen]
        exact Rule.read?_eq_none hopening _ _

theorem reading?_of_bang_eq_none_iff (hm : s.modes.top = .root)
    (hs : s.ahead = '!' :: (name ++ rest))
    (hname : tagName (name ++ rest) = if name = [] then none else some name.length) :
    s.reading? = none ↔
      name = [] ∨ ∃ c ∈ rest.head?, isBlank c = false ∧ c ∉ [':', '[', '{', ',', '('] := by
  rw [reading?_of_bang hm hs hname]
  split_ifs with hnil hends hparen
  · exact iff_of_true rfl (.inl hnil)
  · refine iff_of_false nofun ?_
    rintro (h | ⟨c, hc, hblank, hmark⟩)
    · exact hnil h
    · rcases (endsTag_iff _).1 hends c hc with h | h
      · rw [hblank] at h
        cases h
      · exact hmark (List.mem_append_left ['('] h)
  · refine iff_of_false nofun ?_
    rintro (h | ⟨c, hc, -, hmark⟩)
    · exact hnil h
    · obtain rfl := Option.some.inj (hparen.symm.trans hc)
      exact hmark (by decide)
  · refine iff_of_true rfl (.inr ?_)
    cases hrest : rest.head? with
    | none =>
      rw [hrest] at hends
      exact absurd rfl hends
    | some c =>
      rw [hrest] at hends hparen
      obtain ⟨hblank, hmark⟩ := not_or.1 fun h => hends ((endsTag_iff _).2 fun d hd => by
        obtain rfl := Option.some.inj hd
        exact h)
      refine ⟨c, rfl, Bool.eq_false_iff.2 hblank, fun hmem => ?_⟩
      rcases List.mem_append.1 (show c ∈ [':', '[', '{', ','] ++ ['('] from hmem) with h | h
      · exact hmark h
      · exact hparen (congrArg some (List.mem_singleton.1 h))

end Station

theorem next_of_bang {l : Lexer} {r : List Char} (hm : l.mode = .root) (hp : l.pending = [])
    (hr : l.remaining = .ok ('!' :: r)) :
    ∃ name rest, r = name ++ rest ∧ TagName.Longest r name ∧
      (∀ w, Segments IsTagLetter w → w ++ ['('] <+: r → w = name) ∧
      (name = [] ∨ (∃ c ∈ rest.head?, isBlank c = false ∧ c ∉ [':', '[', '{', ',', '(']) →
        l.Gives .plainText ['!'] l.modes) ∧
      (name ≠ [] → rest.head? = some '(' →
        l.Gives .keyword ('!' :: name ++ ['(']) ⟨.tagArgs, l.modes.top :: l.modes.below⟩) ∧
      (name ≠ [] → (∀ c ∈ rest.head?, isBlank c ∨ c ∈ [':', '[', '{', ',']) →
        l.Gives .keyword ('!' :: name) l.modes) := by
  obtain ⟨name, rest, rfl, hlongest, hname⟩ := exists_tagName r
  obtain ⟨s, hl, hs, hmodes⟩ := Lexer.exists_station_of_remaining hp hr
  have htop : s.modes.top = .root := by
    rw [hmodes]
    exact hm
  have hread := Station.reading?_of_bang htop hs hname
  have hends := Station.endsTag_iff rest.head?
  rw [← hmodes, hl]
  refine ⟨name, rest, rfl, hlongest, fun w hw hwr => eq_of_parenthesis hlongest hw hwr, ?_, ?_, ?_⟩
  · intro h
    exact Station.gives_of_none hs ((Station.reading?_of_bang_eq_none_iff htop hs hname).2 h)
  · intro hne hparen
    have hnot : ¬ endsTag rest.head? := by
      rw [hparen]
      decide
    rw [if_neg hne, if_neg hnot, if_pos hparen] at hread
    exact Station.gives_of_reading? hread (List.cons_ne_nil _ _)
  · intro hne h
    rw [if_neg hne, if_pos (hends.2 h)] at hread
    exact Station.gives_of_reading? hread (List.cons_ne_nil _ _)

theorem next_of_bang_arguments :
    let source := ['!', 'a', ':', 'b', '(', ')']
    (Lexer.ofText source).mode = .root ∧ (Lexer.ofText source).remaining = .ok source ∧
      (Lexer.ofText source).Gives .keyword ['!', 'a', ':', 'b', '('] ⟨.tagArgs, [.root]⟩ := by
  intro source
  obtain ⟨name, rest, hr, -, hlast, -, hopens, -⟩ :=
    next_of_bang (l := Lexer.ofText source) (r := ['a', ':', 'b', '(', ')']) rfl rfl rfl
  have hsegments : Segments IsTagLetter ['a', ':', 'b'] :=
    .divided (s := ['a']) (.cons (.inl rfl) (List.forall_mem_nil _))
      (.single (.cons (.inl rfl) (List.forall_mem_nil _)))
  obtain rfl := hlast ['a', ':', 'b'] hsegments (by decide)
  have hrest : ['a', ':', 'b'] ++ ['(', ')'] = ['a', ':', 'b'] ++ rest := hr
  obtain rfl := List.append_cancel_left hrest
  exact ⟨rfl, rfl, hopens (List.cons_ne_nil _ _) rfl⟩

end Tony
