import Mathlib.Data.List.Forall2
import Tony.Proofs.Boundary
import Tony.Proofs.Station

/-!
What comes of a text does not depend on the text before, but for the modes and the anchors that hold
where it begins. Main statement: two lexers that agree in these and have the same text ahead answer
all calls for a token alike, up to the distance between their places.
-/

namespace Tony

open Text (bytes)

/-- Two texts, given with their latest characters first, after which the same anchors hold. -/
def Anchor.Agree (p q : List Char) : Prop :=
  ∀ a : Anchor, a.holds p = a.holds q

namespace Anchor.Agree

variable {p q : List Char}

theorem cons (h : Agree p q) (c : Char) : Agree (c :: p) (c :: q) := by
  intro a
  cases a with
  | anywhere => rfl
  | lineStart => rfl
  | wordStart => rfl
  | afterIndent =>
    -- Only this anchor looks beyond the latest character, back over an indentation.
    have hindent := h .afterIndent
    simp only [holds] at hindent ⊢
    rw [List.dropWhile_cons, List.dropWhile_cons]
    split
    · exact hindent
    · rfl

theorem append (h : Agree p q) (s : List Char) : Agree (s ++ p) (s ++ q) := by
  induction s with
  | nil => exact h
  | cons c s ih => exact ih.cons c

theorem of_lineFeed (p q : List Char) : Agree ('\n' :: p) ('\n' :: q) := by
  intro a
  cases a <;> rfl

theorem lineFeed_start (p : List Char) : Agree ('\n' :: p) [] := by
  intro a
  cases a <;> rfl

end Anchor.Agree

theorem findSome?_congr {α β : Type} {f g : α → Option β} {xs : List α}
    (h : ∀ x ∈ xs, f x = g x) : xs.findSome? f = xs.findSome? g := by
  induction xs with
  | nil => rfl
  | cons x xs ih =>
    have hx := h x (List.mem_cons_self ..)
    have hxs := ih fun y hy => h y (List.mem_cons_of_mem x hy)
    rw [List.findSome?_cons, List.findSome?_cons, hx, hxs]

theorem Rule.read?_of_agree {p q : List Char} (h : Anchor.Agree p q) (rule : Rule) (depth : Nat)
    (ahead : List Char) : rule.read? depth p ahead = rule.read? depth q ahead := by
  unfold read?
  rw [h rule.anchor]

def Token.shift (n : Nat) (t : Token) : Token :=
  { t with span := ⟨t.span.start + n, t.span.stop + n⟩ }

theorem Token.shift_zero : Token.shift 0 = id :=
  rfl

theorem Lexeme.layout_add (offset n : Nat) (ls : List Lexeme) :
    layout (offset + n) ls = (layout offset ls).map (Token.shift n) := by
  induction ls generalizing offset with
  | nil => rfl
  | cons l ls ih =>
    have htail := ih (offset + bytes l.text)
    rw [Nat.add_right_comm] at htail
    rw [layout, layout]
    split
    · exact htail
    · rw [List.map_cons, htail, Token.shift, Nat.add_right_comm]

/-- Stations in two texts with the same text ahead of them. They stand equally far behind places at
`n` and at `m` bytes. -/
structure Station.Alike (n m : Nat) (x y : Station) : Prop where
  modes : x.modes = y.modes
  ahead : x.ahead = y.ahead
  anchors : Anchor.Agree x.passed y.passed
  offset : ∃ k, bytes x.passed = k + n ∧ bytes y.passed = k + m

namespace Station.Alike

variable {n m : Nat} {x y : Station}

theorem reading?_eq (h : Alike n m x y) : x.reading? = y.reading? := by
  unfold reading?
  rw [h.modes, h.ahead]
  exact findSome?_congr fun rule _ => rule.read?_of_agree h.anchors _ _

theorem reading_eq (h : Alike n m x y) : x.reading = y.reading := by
  rw [reading, reading, h.reading?_eq, h.ahead]

theorem next (h : Alike n m x y) : Alike n m x.next y.next where
  modes := by
    show x.modes.change x.reading.change = y.modes.change y.reading.change
    rw [h.modes, h.reading_eq]
  ahead := by
    show x.ahead.drop x.reading.text.length = y.ahead.drop y.reading.text.length
    rw [h.ahead, h.reading_eq]
  anchors := by
    show Anchor.Agree (x.reading.text.reverse ++ x.passed) (y.reading.text.reverse ++ y.passed)
    rw [h.reading_eq]
    exact h.anchors.append _
  offset := by
    obtain ⟨k, hx, hy⟩ := h.offset
    refine ⟨k + bytes y.reading.text, ?_, ?_⟩
    · rw [bytes_passed_next, h.reading_eq, hx, Nat.add_right_comm]
    · rw [bytes_passed_next, hy, Nat.add_right_comm]

theorem tokens (h : Alike n m x y) :
    ∃ ts : List Token, x.tokens = ts.map (Token.shift n) ∧ y.tokens = ts.map (Token.shift m) := by
  obtain ⟨k, hx, hy⟩ := h.offset
  refine ⟨Lexeme.layout k y.reading.lexemes, ?_, ?_⟩
  · rw [Station.tokens, h.reading_eq, hx, Lexeme.layout_add]
  · rw [Station.tokens, hy, Lexeme.layout_add]

theorem stations (h : Alike n m x y) :
    ∃ ts : List Token, x.stations.flatMap Station.tokens = ts.map (Token.shift n) ∧
      y.stations.flatMap Station.tokens = ts.map (Token.shift m) := by
  induction x using Station.run_induction generalizing y with
  | last x hx =>
    have hy : y.ahead = [] := h.ahead ▸ hx
    exact ⟨[], by rw [stations_of_end hx]; rfl, by rw [stations_of_end hy]; rfl⟩
  | round x hx ih =>
    have hy : y.ahead ≠ [] := h.ahead ▸ hx
    obtain ⟨ts, hts₁, hts₂⟩ := h.tokens
    obtain ⟨us, hus₁, hus₂⟩ := ih h.next
    refine ⟨ts ++ us, ?_, ?_⟩
    · rw [stations_of_ahead hx, List.flatMap_cons, hts₁, hus₁, List.map_append]
    · rw [stations_of_ahead hy, List.flatMap_cons, hts₂, hus₂, List.map_append]

end Station.Alike

theorem Lexer.eq_lexer_of_pos {l : Lexer} {u r : List Char} (ht : l.text = u ++ r)
    (hp : l.pos = bytes u) (he : l.pending = []) :
    l = Station.lexer ⟨l.modes, u.reverse, r⟩ [] := by
  obtain ⟨hskew, hu, hr⟩ := Text.Cursor.cut_of_pos ht hp
  refine eq_lexer hskew ?_ he
  rw [station, ← hu, List.reverse_reverse, hr]

def Lexer.Alike (n m : Nat) (l₁ l₂ : Lexer) : Prop :=
  ∃ x y, Station.Alike n m x y ∧
    ∃ ts : List Token, l₁ = x.lexer (ts.map (Token.shift n)) ∧ l₂ = y.lexer (ts.map (Token.shift m))

namespace Lexer.Alike

variable {n m : Nat} {l₁ l₂ : Lexer}

theorem modes_eq (h : Alike n m l₁ l₂) : l₁.modes = l₂.modes := by
  obtain ⟨x, y, hxy, ts, rfl, rfl⟩ := h
  exact hxy.modes

theorem next (h : Alike n m l₁ l₂) :
    ∃ y₁ y₂, l₁.next = .ok y₁ ∧ l₂.next = .ok y₂ ∧ Alike n m y₁.lexer y₂.lexer ∧
      ∃ t : Option Token, y₁.token = t.map (Token.shift n) ∧ y₂.token = t.map (Token.shift m) := by
  obtain ⟨x, y, hxy, ts, rfl, rfl⟩ := h
  induction x using Station.run_induction generalizing y ts with
  | last x hx =>
    cases ts with
    | cons t ts =>
      exact ⟨_, _, next_of_pending rfl, next_of_pending rfl, ⟨x, y, hxy, ts, rfl, rfl⟩, some t, rfl,
        rfl⟩
    | nil =>
      exact ⟨_, _, Station.next_lexer_end hx, Station.next_lexer_end (hxy.ahead ▸ hx),
        ⟨x, y, hxy, [], rfl, rfl⟩, none, rfl, rfl⟩
  | round x hx ih =>
    cases ts with
    | cons t ts =>
      exact ⟨_, _, next_of_pending rfl, next_of_pending rfl, ⟨x, y, hxy, ts, rfl, rfl⟩, some t, rfl,
        rfl⟩
    | nil =>
      obtain ⟨ts, hts₁, hts₂⟩ := hxy.tokens
      obtain ⟨y₁, y₂, h₁, h₂, halike, ht⟩ := ih y.next hxy.next ts
      rw [← hts₁] at h₁
      rw [← hts₂] at h₂
      have hy : y.ahead ≠ [] := hxy.ahead ▸ hx
      exact ⟨_, _, Station.next_lexer_of_next hx h₁, Station.next_lexer_of_next hy h₂, halike, ht⟩

end Lexer.Alike

theorem Session.run_next_alike {n m : Nat} {l₁ l₂ : Lexer} (h : l₁.Alike n m l₂) (s₁ s₂ : Lexer)
    (calls : Nat) :
    List.Forall₂
      (fun a b => (∃ t : Option Token, a.1 = .token (t.map (Token.shift n)) ∧
        b.1 = .token (t.map (Token.shift m))) ∧ a.2.modes = b.2.modes)
      (run ⟨l₁, s₁⟩ (List.replicate calls .next)) (run ⟨l₂, s₂⟩ (List.replicate calls .next)) := by
  induction calls generalizing l₁ l₂ with
  | zero => exact List.Forall₂.nil
  | succ calls ih =>
    obtain ⟨y₁, y₂, h₁, h₂, halike, t, ht₁, ht₂⟩ := h.next
    have hstep₁ : step ⟨l₁, s₁⟩ .next = (.token y₁.token, ⟨y₁.lexer, s₁⟩) := by rw [step, h₁]
    have hstep₂ : step ⟨l₂, s₂⟩ .next = (.token y₂.token, ⟨y₂.lexer, s₂⟩) := by rw [step, h₂]
    rw [List.replicate_succ, run, run, hstep₁, hstep₂]
    exact List.Forall₂.cons ⟨⟨t, congrArg _ ht₁, congrArg _ ht₂⟩, halike.modes_eq⟩ (ih halike)

/-- Lexers in different texts that have the same text and the same modes from some place on, with
the same anchors there, answer call by call with the same kinds and values. Their spans are those of
tokens counted from this place, moved on by what stands before it. -/
theorem Session.run_next_local {u₁ u₂ r : List Char} {l₁ l₂ : Lexer} (ht₁ : l₁.text = u₁ ++ r)
    (hp₁ : l₁.pos = bytes u₁) (ht₂ : l₂.text = u₂ ++ r) (hp₂ : l₂.pos = bytes u₂)
    (hm : l₁.modes = l₂.modes) (he₁ : l₁.pending = []) (he₂ : l₂.pending = [])
    (ha : ∀ a : Anchor, a.holds u₁.reverse = a.holds u₂.reverse) (s₁ s₂ : Lexer) (calls : Nat) :
    List.Forall₂
      (fun a b => (∃ t : Option Token, a.1 = .token (t.map (Token.shift (bytes u₁))) ∧
        b.1 = .token (t.map (Token.shift (bytes u₂)))) ∧ a.2.modes = b.2.modes)
      (run ⟨l₁, s₁⟩ (List.replicate calls .next)) (run ⟨l₂, s₂⟩ (List.replicate calls .next)) := by
  have hl₁ := Lexer.eq_lexer_of_pos ht₁ hp₁ he₁
  have hl₂ := Lexer.eq_lexer_of_pos ht₂ hp₂ he₂
  have hoff : ∀ u : List Char, bytes u.reverse = 0 + bytes u := by
    intro u
    rw [Text.bytes_reverse, Nat.zero_add]
  have halike : Station.Alike (bytes u₁) (bytes u₂) ⟨l₁.modes, u₁.reverse, r⟩
      ⟨l₂.modes, u₂.reverse, r⟩ := ⟨hm, rfl, ha, 0, hoff u₁, hoff u₂⟩
  exact run_next_alike ⟨_, _, halike, [], hl₁, hl₂⟩ s₁ s₂ calls

theorem Session.run_next_local_mergeKey :
    let u₁ := ['é', '\n', '\t', ' ']
    let u₂ := [' ']
    let l₁ := Station.lexer ⟨{}, u₁.reverse, ['<', '<', ':', ' ', 'x']⟩ []
    let l₂ := Station.lexer ⟨{}, u₂.reverse, ['<', '<', ':', ' ', 'x']⟩ []
    (∀ a : Anchor, a.holds u₁.reverse = a.holds u₂.reverse) ∧
      List.Forall₂
        (fun a b => (∃ t : Option Token, a.1 = .token (t.map (Token.shift 5)) ∧
          b.1 = .token (t.map (Token.shift 1))) ∧ a.2.modes = b.2.modes)
        (run ⟨l₁, l₁⟩ (List.replicate 4 .next)) (run ⟨l₂, l₂⟩ (List.replicate 4 .next)) := by
  intro u₁ u₂ l₁ l₂
  have ha : ∀ a : Anchor, a.holds u₁.reverse = a.holds u₂.reverse := by
    intro a
    cases a <;> decide
  have ht₁ : l₁.text = u₁ ++ ['<', '<', ':', ' ', 'x'] := rfl
  have ht₂ : l₂.text = u₂ ++ ['<', '<', ':', ' ', 'x'] := rfl
  have hrun := run_next_local ht₁ rfl ht₂ rfl rfl rfl rfl ha l₁ l₂ 4
  exact ⟨ha, hrun⟩

end Tony
