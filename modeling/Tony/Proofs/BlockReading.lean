import Tony.Proofs.MarkReading

/-!
What a block makes of the text ahead. Main statement: a round reads a line that begins with a blank
up to its end, or it reads a line break, or it leaves the block at any other line. Where none of
these is there, it takes one character that no rule reads.
-/

namespace Tony

open Pattern
open Unicode (isBlank)

namespace Pattern

theorem indentedLine_append {w v : List Char} (hblank : ∃ c ∈ w.head?, isBlank c)
    (hw : ∀ c ∈ w, isLineEnd c = false) (hv : ∀ c ∈ v.head?, isLineEnd c) :
    indentedLine (w ++ v) = some w.length := by
  let q : Char → Bool := fun c => isBlank c && !isLineEnd c
  have hstop : ∀ c ∈ v.head?, (!isLineEnd c) = false := by
    intro c hc
    rw [hv c hc]
    rfl
  have hstop' : ∀ c ∈ v.head?, q c = false := by
    intro c hc
    show (isBlank c && !isLineEnd c) = false
    rw [hstop c hc, Bool.and_false]
  have hline : ∀ c ∈ w.dropWhile q, (!isLineEnd c) = true := by
    intro c hc
    rw [hw c ((List.dropWhile_sublist q).subset hc)]
    rfl
  have hne : (w.takeWhile q).length ≠ 0 := by
    obtain ⟨c, hc, hblank⟩ := hblank
    obtain ⟨w, rfl⟩ := List.head?_eq_some_iff.1 hc
    have hq : q c := by
      show (isBlank c && !isLineEnd c) = true
      rw [hblank, hw c (List.mem_cons_self ..)]
      rfl
    rw [List.takeWhile_cons_of_pos hq]
    exact Nat.succ_ne_zero _
  have hsplit : w.takeWhile q ++ (w.dropWhile q ++ v) = w ++ v := by
    rw [← List.append_assoc, List.takeWhile_append_dropWhile]
  have hindent : run1 q (w.takeWhile q ++ (w.dropWhile q ++ v)) = some (w.takeWhile q).length := by
    unfold run1
    rw [hsplit, takeWhile_append_of_head? hstop']
    exact if_neg hne
  have hall : indentedLine (w.takeWhile q ++ (w.dropWhile q ++ v)) =
      some ((w.takeWhile q).length + ((w.dropWhile q).length + 0)) :=
    andThen_append_eq hindent (andThen_append_eq (run_append_eq hline hstop) rfl)
  rw [hsplit, Nat.add_zero, ← List.length_append, List.takeWhile_append_dropWhile] at hall
  exact hall

theorem lineBreak_return_eq_none {r : List Char} (h : r.head? ≠ some '\n') :
    lineBreak ('\r' :: r) = none := by
  show Option.map _ (((literal "\n").andThen nothing) r) = none
  rw [andThen_eq_none (literal_eq_none rfl h)]
  rfl

end Pattern

def Rule.blockLine : Rule :=
  { taking .string indentedLine with anchor := .lineStart }

namespace Station

variable {s : Station}

def AtUnindented (s : Station) : Prop :=
  Anchor.lineStart.holds s.passed ∧ beginsUnindented s.ahead.head?

inductive BlockTurn (s : Station) : Prop
  | line {w v : List Char} (ahead : s.ahead = w ++ v) (start : Anchor.lineStart.holds s.passed)
      (blank : ∃ c ∈ w.head?, isBlank c) (inner : ∀ c ∈ w, isLineEnd c = false)
      (stop : ∀ c ∈ v.head?, isLineEnd c) (reading : s.reading? = some ⟨[⟨.string, w⟩], .stay⟩)
  | lineBreak {w v : List Char} (ahead : s.ahead = w ++ v) (form : w ∈ [['\n'], ['\r', '\n']])
      (reading : s.reading? = some ⟨[⟨.plainText, w⟩], .stay⟩)
  | leaving (unindented : s.AtUnindented) (reading : s.reading? = some ⟨[⟨.plainText, []⟩], .pop⟩)
  | stray {c : Char} {r : List Char} (ahead : s.ahead = c :: r) (feed : c ≠ '\n')
      (ret : c = '\r' → r.head? ≠ some '\n')
      (inside : c = '\r' ∨ ¬ Anchor.lineStart.holds s.passed) (reading : s.reading? = none)

section Block

variable {c : Char} {r w v : List Char} (hm : s.modes.top = .blockLiteral)

include hm

theorem reading?_of_indented (hline : Anchor.lineStart.holds s.passed)
    (hblank : ∃ c ∈ w.head?, isBlank c) (hw : ∀ c ∈ w, isLineEnd c = false)
    (hv : ∀ c ∈ v.head?, isLineEnd c) (hs : s.ahead = w ++ v) :
    s.reading? = some ⟨[⟨.string, w⟩], .stay⟩ := by
  have hne : w ≠ [] := by
    obtain ⟨c, hc, -⟩ := hblank
    rintro rfl
    cases hc
  have hread := Rule.read?_of_append Rule.blockLine s.modes.depth s.passed rfl hline
    (indentedLine_append hblank hw hv) rfl hne
  rw [reading?, hm, hs]
  show [Rule.blockLine, _, _].findSome? _ = _
  rw [List.findSome?_cons, hread]
  rfl

theorem reading?_of_lineBreak (hw : w ∈ [['\n'], ['\r', '\n']]) (hs : s.ahead = w ++ v) :
    s.reading? = some ⟨[⟨.plainText, w⟩], .stay⟩ := by
  simp only [List.mem_cons, List.not_mem_nil, or_false] at hw
  obtain ⟨hbreak, hline, hne⟩ : lineBreak (w ++ v) = some w.length ∧
      indentedLine (w ++ v) = none ∧ w ≠ [] := by
    rcases hw with rfl | rfl
    · exact ⟨rfl, rfl, List.cons_ne_nil _ _⟩
    · exact ⟨rfl, rfl, List.cons_ne_nil _ _⟩
  have hnone : Rule.blockLine.read? s.modes.depth s.passed (w ++ v) = none :=
    Rule.read?_eq_none (Rule.lexemes?_eq_none hline) _ _
  have hread := Rule.read?_of_append (.taking .plainText lineBreak) s.modes.depth s.passed rfl rfl
    hbreak rfl hne
  rw [reading?, hm, hs]
  show [Rule.blockLine, Rule.taking .plainText lineBreak, _].findSome? _ = _
  rw [List.findSome?_cons, hnone, List.findSome?_cons, hread]
  rfl

theorem reading?_of_stray (hs : s.ahead = c :: r) (hfeed : c ≠ '\n')
    (hret : c = '\r' → r.head? ≠ some '\n')
    (hinside : c = '\r' ∨ ¬ Anchor.lineStart.holds s.passed) : s.reading? = none := by
  have hbreak : lineBreak (c :: r) = none := by
    by_cases hc : c = '\r'
    · subst hc
      exact lineBreak_return_eq_none (hret rfl)
    · refine lineBreak_eq_none (Bool.eq_false_iff.2 fun hend => ?_)
      exact (isLineEnd_iff.1 hend).elim hc hfeed
  rw [reading?, hm, hs]
  show [Rule.blockLine, Rule.taking .plainText lineBreak, Rule.blockLeaving].findSome? _ = _
  rw [List.findSome?_eq_none_iff]
  simp only [List.forall_mem_cons]
  refine ⟨?_, Rule.read?_eq_none (Rule.lexemes?_eq_none hbreak) _ _, ?_, List.forall_mem_nil _⟩
  · rcases hinside with rfl | hline
    · have hindented : indentedLine ('\r' :: r) = none := rfl
      exact Rule.read?_eq_none (Rule.lexemes?_eq_none hindented) _ _
    · exact Rule.read?_eq_none_of_anchor hline _ _
  · rcases hinside with rfl | hline
    · exact Rule.read?_eq_none_of_follow rfl rfl _ _
    · exact Rule.read?_eq_none_of_anchor hline _ _

theorem blockTurn_of_indented (hs : s.ahead = c :: r) (hline : Anchor.lineStart.holds s.passed)
    (hblank : isBlank c) (hend : isLineEnd c = false) : s.BlockTurn := by
  have hsplit := List.take_append_drop ((c :: r).takeWhile fun d => !isLineEnd d).length (c :: r)
  rw [take_length_takeWhile] at hsplit
  have hfirst : ∃ d ∈ ((c :: r).takeWhile fun d => !isLineEnd d).head?, isBlank d := by
    rw [List.takeWhile_cons_of_pos (by rw [hend]; rfl)]
    exact ⟨c, rfl, hblank⟩
  have hinner : ∀ d ∈ (c :: r).takeWhile fun d => !isLineEnd d, isLineEnd d = false := by
    intro d hd
    simpa using List.all_eq_true.1 List.all_takeWhile d hd
  have hstop : ∀ d ∈ ((c :: r).drop
      ((c :: r).takeWhile fun d => !isLineEnd d).length).head?, isLineEnd d := by
    intro d hd
    simpa using stop_of_takeWhile d hd
  have hahead := hs.trans hsplit.symm
  exact .line hahead hline hfirst hinner hstop
    (reading?_of_indented hm hline hfirst hinner hstop hahead)

theorem blockTurn (hs : s.ahead ≠ []) (hdepth : 1 < s.modes.depth) : s.BlockTurn := by
  obtain ⟨c, r, hs⟩ := List.exists_cons_of_ne_nil hs
  by_cases hfeed : c = '\n'
  · subst hfeed
    have hform : ['\n'] ∈ [['\n'], ['\r', '\n']] := by decide
    exact .lineBreak hs hform (reading?_of_lineBreak hm hform hs)
  by_cases hreturn : c = '\r' ∧ r.head? = some '\n'
  · obtain ⟨rfl, hnext⟩ := hreturn
    obtain ⟨v, rfl⟩ := List.head?_eq_some_iff.1 hnext
    have hform : ['\r', '\n'] ∈ [['\n'], ['\r', '\n']] := by decide
    exact .lineBreak hs hform (reading?_of_lineBreak hm hform hs)
  have hret : c = '\r' → r.head? ≠ some '\n' := fun hc hnext => hreturn ⟨hc, hnext⟩
  by_cases hinside : c = '\r' ∨ ¬ Anchor.lineStart.holds s.passed
  · exact .stray hs hfeed hret hinside (reading?_of_stray hm hs hfeed hret hinside)
  · obtain ⟨hc, hline⟩ := not_or.1 hinside
    have hline := not_not.1 hline
    cases hblank : isBlank c with
    | true =>
      refine blockTurn_of_indented hm hs hline hblank (Bool.eq_false_iff.2 fun hend => ?_)
      exact (isLineEnd_iff.1 hend).elim hc hfeed
    | false =>
      refine .leaving ⟨hline, ?_⟩ (reading?_of_unindented hm hdepth hline hs hblank)
      rw [hs]
      show (!isBlank c) = true
      rw [hblank]
      rfl

end Block

end Station
end Tony
