import Tony.Lexer.Basic

/-!
Handing out tokens, one at a time and all together. A call for the next token makes rounds until
one is pending, and draining a lexer calls for tokens until there are no more.
-/

namespace Tony.Lexer

open Text (SliceError)

/-- What one call for a token gives; no token means that the text is at its end. -/
structure Yield where
  token : Option Token
  records : List Record
  lexer : Lexer

/-- The next token: a pending one if there is any, whatever stands at the position. -/
def next (l : Lexer) : Except SliceError Yield :=
  match l.pending with
  | t :: ts => .ok ⟨some t, [], { l with pending := ts }⟩
  | [] =>
    match h : l.round with
    | .error e => .error e
    | .ok none => .ok ⟨none, [], l⟩
    | .ok (some r) =>
      have := roundBound_round_lt h
      r.lexer.next.map fun y => { y with records := r.record.toList ++ y.records }
termination_by l.roundBound

theorem next_of_pending {l : Lexer} {t : Token} {ts : List Token} (h : l.pending = t :: ts) :
    l.next = .ok ⟨some t, [], { l with pending := ts }⟩ := by
  rw [next, h]

theorem next_of_round {l : Lexer} {r : Round} (h : l.pending = []) (hr : l.round = .ok (some r)) :
    l.next = r.lexer.next.map fun y => { y with records := r.record.toList ++ y.records } := by
  rw [next]
  split
  · simp_all
  · split <;> simp_all

theorem next_of_end {l : Lexer} (h : l.pending = []) (hr : l.round = .ok none) :
    l.next = .ok ⟨none, [], l⟩ := by
  rw [next]
  split
  · simp_all
  · split <;> simp_all

theorem next_of_error {l : Lexer} {e : SliceError} (h : l.pending = [])
    (hr : l.round = .error e) : l.next = .error e := by
  rw [next]
  split
  · simp_all
  · split <;> simp_all

theorem next_decreases {l : Lexer} {y : Yield} (h : l.next = .ok y) (ht : y.token.isSome) :
    y.lexer.roundBound < l.roundBound ∨
      (y.lexer.roundBound = l.roundBound ∧ y.lexer.pending.length < l.pending.length) := by
  fun_induction next l generalizing y with
  | case1 l t ts hp =>
    obtain rfl := Except.ok.inj h
    right
    simp [roundBound, depth, hp]
  | case2 l hp e hr => cases h
  | case3 l hp hr =>
    obtain rfl := Except.ok.inj h
    cases ht
  | case4 l hp r hr hlt ih =>
    rcases hn : r.lexer.next with e | z
    · rw [hn] at h; cases h
    · rw [hn] at h
      obtain rfl := Except.ok.inj h
      rcases ih hn ht with h | h
      · left; exact Nat.lt_trans h hlt
      · left; exact h.1 ▸ hlt

structure Drain where
  tokens : List Token
  records : List Record
  stuck : Option SliceError
  lexer : Lexer

/-- Drains a lexer on top of what it has given before, the latest first. -/
def drainOnto (tokens : List Token) (records : List Record) (l : Lexer) : Drain :=
  match h : l.next with
  | .error e => ⟨tokens.reverse, records.reverse, some e, l⟩
  | .ok y =>
    match ht : y.token with
    | none => ⟨tokens.reverse, (y.records.reverse ++ records).reverse, none, y.lexer⟩
    | some t =>
      have := next_decreases h (by rw [ht]; rfl)
      drainOnto (t :: tokens) (y.records.reverse ++ records) y.lexer
termination_by (l.roundBound, l.pending.length)
decreasing_by
  rcases this with hlt | ⟨heq, hlt⟩
  · exact Prod.Lex.left _ _ hlt
  · rw [heq]; exact Prod.Lex.right _ hlt

def rest (l : Lexer) : Drain :=
  drainOnto [] [] l

theorem drainOnto_eq (tokens : List Token) (records : List Record) (l : Lexer) :
    drainOnto tokens records l =
      { l.rest with
        tokens := tokens.reverse ++ l.rest.tokens
        records := records.reverse ++ l.rest.records } := by
  have main : ∀ (ts ts' : List Token) (rs rs' : List Record),
      drainOnto (ts ++ ts') (rs ++ rs') l =
        { drainOnto ts rs l with
          tokens := ts'.reverse ++ (drainOnto ts rs l).tokens
          records := rs'.reverse ++ (drainOnto ts rs l).records } := by
    intro ts ts' rs rs'
    fun_induction drainOnto ts rs l with
    | case1 ts rs l e h =>
      rw [drainOnto]
      split <;> simp_all
    | case2 ts rs l y h ht =>
      rw [drainOnto]
      split
      · simp_all
      · rename_i z hz
        obtain rfl := Except.ok.inj (h.symm.trans hz)
        split <;> simp_all
    | case3 ts rs l y h t ht _ ih =>
      rw [drainOnto]
      split
      · simp_all
      · rename_i z hz
        obtain rfl := Except.ok.inj (h.symm.trans hz)
        split
        · simp_all
        · rename_i u hu
          obtain rfl := Option.some.inj (ht.symm.trans hu)
          rw [← ih, List.append_assoc, List.cons_append]
  simpa [rest] using main [] tokens [] records

theorem rest_of_next_some {l : Lexer} {y : Yield} {t : Token} (h : l.next = .ok y)
    (ht : y.token = some t) :
    l.rest = { y.lexer.rest with
      tokens := t :: y.lexer.rest.tokens
      records := y.records ++ y.lexer.rest.records } := by
  rw [rest, drainOnto]
  split
  · simp_all
  · rename_i z hz
    obtain rfl := Except.ok.inj (h.symm.trans hz)
    split
    · simp_all
    · rename_i u hu
      obtain rfl := Option.some.inj (ht.symm.trans hu)
      rw [drainOnto_eq]
      simp

theorem rest_of_next_none {l : Lexer} {y : Yield} (h : l.next = .ok y) (ht : y.token = none) :
    l.rest = ⟨[], y.records, none, y.lexer⟩ := by
  rw [rest, drainOnto]
  split
  · simp_all
  · rename_i z hz
    obtain rfl := Except.ok.inj (h.symm.trans hz)
    split <;> simp_all

theorem rest_of_next_error {l : Lexer} {e : SliceError} (h : l.next = .error e) :
    l.rest = ⟨[], [], some e, l⟩ := by
  rw [rest, drainOnto]
  split <;> simp_all

end Tony.Lexer

namespace Tony

def tokenize (source : List Char) : List Token :=
  (Lexer.ofText source).rest.tokens

def trace (source : List Char) : List Record :=
  (Lexer.ofText source).rest.records

end Tony
