import Tony.Proofs.Beginning
import Tony.Proofs.Taken

/-!
What a round reads. Either a rule of the top mode gives its reading, and then all that the rule asks
for is there, or no rule does and one character is taken as plain text.
-/

namespace Tony

open Pattern

theorem Reading.text_ne_nil_of_mem {r : Reading} {l : Lexeme} (hl : l ∈ r.lexemes)
    (hne : l.text ≠ []) : r.text ≠ [] := by
  intro hnil
  exact hne (List.flatMap_eq_nil_iff.1 hnil l hl)

theorem Reading.isProgress_of_text {r : Reading} (h : r.text ≠ []) (depth : Nat) :
    r.isProgress depth := by
  rw [isProgress, List.isEmpty_eq_false_iff.2 h]
  rfl

namespace Rule

variable {rule : Rule} {parts : List (Kind × Pattern)} {s rest : List Char} {ls : List Lexeme}

theorem exists_of_lexemes?_cons {kind : Kind} {p : Pattern}
    (h : lexemes? ((kind, p) :: parts) s = some (ls, rest)) :
    ∃ n ms, p s = some n ∧ lexemes? parts (s.drop n) = some (ms, rest) ∧
      ls = ⟨kind, s.take n⟩ :: ms := by
  rw [lexemes?] at h
  obtain ⟨n, hn, h⟩ := Option.bind_eq_some_iff.1 h
  obtain ⟨⟨ms, t⟩, hm, he⟩ := Option.map_eq_some_iff.1 h
  obtain ⟨rfl, rfl⟩ := Prod.mk.inj he
  exact ⟨n, ms, hn, hm, rfl⟩

theorem lexemes?_cons_of_append {kind : Kind} {p : Pattern} {u v : List Char}
    (hp : p (u ++ v) = some u.length) (hv : lexemes? parts v = some (ls, rest)) :
    lexemes? ((kind, p) :: parts) (u ++ v) = some (⟨kind, u⟩ :: ls, rest) := by
  rw [lexemes?, hp, Option.bind_some, List.drop_left, List.take_left, hv]
  rfl

theorem read?_of_append (rule : Rule) (depth : Nat) (passed : List Char) {kind : Kind}
    {p : Pattern} {u v : List Char} (hparts : rule.parts = [(kind, p)])
    (ha : rule.anchor.holds passed) (hp : p (u ++ v) = some u.length) (hf : rule.follow v.head?)
    (hu : u ≠ []) :
    rule.read? depth passed (u ++ v) = some ⟨[⟨kind, u⟩], rule.change⟩ := by
  have hlexemes : lexemes? rule.parts (u ++ v) = some ([⟨kind, u⟩], v) := by
    rw [hparts]
    exact lexemes?_cons_of_append hp rfl
  have htext : Reading.text ⟨[⟨kind, u⟩], rule.change⟩ ≠ [] :=
    Reading.text_ne_nil_of_mem (l := ⟨kind, u⟩) (List.mem_singleton_self _) hu
  exact read?_eq_some ha hlexemes hf (Reading.isProgress_of_text htext depth)

theorem forall_of_lexemes? {F : Kind → Form} (h : ∀ part ∈ parts, part.2.Takes (F part.1))
    (hl : lexemes? parts s = some (ls, rest)) : ∀ l ∈ ls, F l.kind l.text := by
  induction parts generalizing s ls with
  | nil =>
    obtain ⟨rfl, rfl⟩ := Prod.mk.inj (Option.some.inj hl)
    exact List.forall_mem_nil _
  | cons part parts ih =>
    obtain ⟨kind, p⟩ := part
    obtain ⟨hp, hparts⟩ := List.forall_mem_cons.1 h
    obtain ⟨n, ms, hn, hm, rfl⟩ := exists_of_lexemes?_cons hl
    exact List.forall_mem_cons.2 ⟨hp s n hn, ih hparts hm⟩

end Rule

namespace Station

structure ReadBy (s : Station) (rule : Rule) : Prop where
  mem : rule ∈ s.modes.top.rules
  anchor : rule.anchor.holds s.passed
  lexemes : Rule.lexemes? rule.parts s.ahead = some (s.reading.lexemes, s.next.ahead)
  follow : rule.follow s.next.ahead.head?
  progress : s.reading.isProgress s.modes.depth
  change : s.reading.change = rule.change

structure LeftAlone (s : Station) (c : Char) : Prop where
  reading?_eq : s.reading? = none
  head? : s.ahead.head? = some c
  reading_eq : s.reading = ⟨[⟨.plainText, [c]⟩], .stay⟩

theorem leftAlone_of_reading? {s : Station} (hs : s.ahead ≠ []) (h : s.reading? = none) :
    ∃ c, s.LeftAlone c := by
  obtain ⟨c, r, hc⟩ := List.exists_cons_of_ne_nil hs
  have hreading : s.reading = ⟨[⟨.plainText, [c]⟩], .stay⟩ := by rw [reading, h, hc]; rfl
  exact ⟨c, h, by rw [hc]; rfl, hreading⟩

theorem readBy_of_reading? {s : Station} {r : Reading} (h : s.reading? = some r) :
    ∃ rule, s.ReadBy rule := by
  have hreading : s.reading = r := reading_of_reading? h
  obtain ⟨rule, hrule, hread⟩ := List.exists_of_findSome?_eq_some h
  obtain ⟨ls, rest, ha, hl, hf, hp, rfl⟩ := Rule.exists_of_read? hread
  have hrest : s.next.ahead = rest := by
    have htext := s.text_append_ahead
    rw [hreading, ← Rule.flatMap_text_of_lexemes? hl] at htext
    exact List.append_cancel_left htext
  refine ⟨rule, hrule, ha, ?_, ?_, ?_, ?_⟩
  · rw [hreading, hrest]
    exact hl
  · rw [hrest]
    exact hf
  · rw [hreading]
    exact hp
  · rw [hreading]

theorem readBy_or_leftAlone {s : Station} (hs : s.ahead ≠ []) :
    (∃ rule, s.ReadBy rule) ∨ ∃ c, s.LeftAlone c := by
  cases hr : s.reading? with
  | none => exact .inr (leftAlone_of_reading? hs hr)
  | some r => exact .inl (readBy_of_reading? hr)

theorem reading_eq_of_rules {s : Station} {before after : List Rule} {rule : Rule} {r : Reading}
    (hrules : s.modes.top.rules = before ++ rule :: after)
    (hbefore : ∀ x ∈ before, Rule.lexemes? x.parts s.ahead = none)
    (hrule : rule.read? s.modes.depth s.passed s.ahead = some r) : s.reading = r := by
  have hnone := Rule.findSome?_read?_eq_none hbefore s.modes.depth s.passed
  have hread : s.reading? = some r := by
    rw [reading?, hrules, List.findSome?_append, hnone, Option.none_or, List.findSome?_cons, hrule]
  exact reading_of_reading? hread

theorem ReadBy.forall_lexemes {s : Station} {rule : Rule} (h : s.ReadBy rule) {F : Kind → Form}
    (hF : ∀ part ∈ rule.parts, part.2.Takes (F part.1)) :
    ∀ l ∈ s.reading.lexemes, F l.kind l.text :=
  Rule.forall_of_lexemes? hF h.lexemes

theorem ReadBy.text_ne_nil {s : Station} {rule : Rule} (h : s.ReadBy rule)
    (hchange : rule.change ≠ .pop) : s.reading.text ≠ [] := by
  intro hnil
  have hprogress := h.progress
  rw [Reading.isProgress, hnil, h.change, decide_eq_false hchange] at hprogress
  cases hprogress

theorem ReadBy.lexemes_of_parts {s : Station} {rule : Rule} {kind : Kind} {p : Pattern} {F : Form}
    (h : s.ReadBy rule) (hparts : rule.parts = [(kind, p)]) (hp : p.Takes F) :
    s.reading.lexemes = [⟨kind, s.reading.text⟩] ∧ F s.reading.text := by
  have hlexemes := h.lexemes
  rw [hparts] at hlexemes
  obtain ⟨n, ms, hn, hms, hls⟩ := Rule.exists_of_lexemes?_cons hlexemes
  obtain ⟨rfl, -⟩ := Prod.mk.inj (Option.some.inj hms)
  have htext : s.reading.text = s.ahead.take n := by
    rw [Reading.text, hls]
    exact List.append_nil _
  rw [htext]
  exact ⟨hls, hp s.ahead n hn⟩

end Station

namespace Lexeme

theorem mem_layout_cons_iff {offset : Nat} {l : Lexeme} {ls : List Lexeme} {t : Token} :
    t ∈ layout offset (l :: ls) ↔
      (l.text ≠ [] ∧ t = ⟨l.kind, l.text, ⟨offset, offset + Text.bytes l.text⟩⟩) ∨
        t ∈ layout (offset + Text.bytes l.text) ls := by
  rw [layout]
  split
  · rename_i hl
    have hnil : l.text = [] := List.isEmpty_iff.1 hl
    simp only [hnil, ne_eq, not_true_eq_false, false_and, false_or]
  · rename_i hl
    have hne : l.text ≠ [] := mt List.isEmpty_iff.2 hl
    simp only [List.mem_cons, ne_eq, hne, not_false_eq_true, true_and]

theorem layout_cons_of_ne_nil {offset : Nat} {l : Lexeme} {ls : List Lexeme} (h : l.text ≠ []) :
    layout offset (l :: ls) =
      ⟨l.kind, l.text, ⟨offset, offset + Text.bytes l.text⟩⟩ ::
        layout (offset + Text.bytes l.text) ls := by
  rw [layout]
  exact if_neg (mt List.isEmpty_iff.1 h)

theorem layout_append (offset : Nat) (ls ms : List Lexeme) :
    layout offset (ls ++ ms) =
      layout offset ls ++ layout (offset + Text.bytes (ls.flatMap text)) ms := by
  induction ls generalizing offset with
  | nil => rfl
  | cons l ls ih =>
    have htail := ih (offset + Text.bytes l.text)
    rw [Nat.add_assoc, ← Text.bytes_append, ← List.flatMap_cons] at htail
    rw [List.cons_append, layout, layout]
    split
    · exact htail
    · rw [htail]
      rfl

theorem exists_of_mem_layout {offset : Nat} {ls : List Lexeme} {t : Token}
    (h : t ∈ layout offset ls) : ∃ l ∈ ls, l.text ≠ [] ∧ t.kind = l.kind ∧ t.value = l.text := by
  induction ls generalizing offset with
  | nil => cases h
  | cons l ls ih =>
    rcases mem_layout_cons_iff.1 h with ⟨hne, rfl⟩ | h
    · exact ⟨l, List.mem_cons_self .., hne, rfl, rfl⟩
    · obtain ⟨m, hm, hrest⟩ := ih h
      exact ⟨m, List.mem_cons_of_mem l hm, hrest⟩

end Lexeme
end Tony
