import Mathlib.Data.List.TakeWhile
import Tony.Proofs.Pattern
import Tony.Proofs.Station

/-!
What is read at some beginnings of a text: nothing where a quote or a reference is left open, all of
it where nothing ends a run in double quotes, and the end of a block where a line is not indented.
-/

namespace Tony

open Pattern
open Unicode (isBlank)

namespace Pattern

variable {s : List Char}

theorem literal_eq_none {w : String} {c : Char} (hw : w.toList.head? = some c)
    (hs : s.head? ≠ some c) : literal w s = none := by
  rw [Option.eq_none_iff_forall_ne_some]
  intro n hn
  obtain ⟨r, hr⟩ := List.head?_eq_some_iff.1 hw
  obtain ⟨t, ht⟩ := (literal_eq_some hn).2
  rw [hr] at ht
  exact hs (by rw [← ht]; rfl)

theorem andThen_eq_none {p q : Pattern} (h : p s = none) : p.andThen q s = none := by
  unfold Pattern.andThen
  rw [h]
  rfl

theorem comment_eq_none (hs : s.head? ≠ some '#') : comment s = none :=
  andThen_eq_none (literal_eq_none rfl hs)

theorem comment_hash (r : List Char) :
    comment ('#' :: r) = some ('#' :: r.takeWhile (· ≠ '\n')).length := by
  show some (1 + ((r.takeWhile (· ≠ '\n')).length + 0)) = _
  rw [Nat.add_comm]
  rfl

theorem passing_eq_none {p : Pattern} (h : p s = none) (test : List Char → Bool) :
    p.passing test s = none := by
  unfold passing
  rw [h]
  rfl

theorem run1_eq_none {q : Char → Bool} {c : Char} (hc : q c = false) : run1 q (c :: s) = none := by
  unfold run1
  rw [List.takeWhile_cons, hc]
  rfl

theorem run1_cons {q : Char → Bool} {c : Char} (hc : q c) :
    run1 q (c :: s) = some ((s.takeWhile q).length + 1) := by
  unfold run1
  rw [List.takeWhile_cons_of_pos hc]
  rfl

theorem reference_eq_none {sigil : String} (h : ']' ∉ s) : reference sigil s = none := by
  rw [Option.eq_none_iff_forall_ne_some]
  intro n hn
  obtain ⟨i, _, -, hn, -⟩ := andThen_eq_some hn
  obtain ⟨j, _, -, hn, -⟩ := andThen_eq_some hn
  obtain ⟨k, _, -, hn, -⟩ := andThen_eq_some hn
  obtain ⟨_, _, hbracket, -, -⟩ := andThen_eq_some hn
  have hmem : ']' ∈ ((s.drop i).drop j).drop k :=
    (literal_eq_some hbracket).2.subset (List.mem_singleton.2 rfl)
  exact h (List.mem_of_mem_drop (List.mem_of_mem_drop (List.mem_of_mem_drop hmem)))

theorem lineBreak_eq_none {c : Char} (hc : isLineEnd c = false) : lineBreak (c :: s) = none := by
  have hreturn : c ≠ '\r' := by rintro rfl; exact absurd hc (by decide)
  have hfeed : c ≠ '\n' := by rintro rfl; exact absurd hc (by decide)
  simp [lineBreak, chain, andThen, Pattern.maybe, literal, hreturn.symm, hfeed.symm]

end Pattern

namespace Rule

theorem read?_eq_none {rule : Rule} {s : List Char} (h : lexemes? rule.parts s = none) (depth : Nat)
    (passed : List Char) : rule.read? depth passed s = none := by
  unfold read?
  rw [h]
  exact ite_self none

theorem lexemes?_eq_none {kind : Kind} {p : Pattern} {parts : List (Kind × Pattern)} {s : List Char}
    (h : p s = none) : lexemes? ((kind, p) :: parts) s = none := by
  rw [lexemes?, h]
  rfl

theorem findSome?_read?_eq_none {rules : List Rule} {s : List Char}
    (h : ∀ rule ∈ rules, lexemes? rule.parts s = none) (depth : Nat) (passed : List Char) :
    rules.findSome? (fun rule => rule.read? depth passed s) = none := by
  rw [List.findSome?_eq_none_iff]
  intro rule hrule
  exact read?_eq_none (h rule hrule) depth passed

theorem read?_eq_some {rule : Rule} {depth : Nat} {passed s rest : List Char} {ls : List Lexeme}
    (ha : rule.anchor.holds passed) (hl : lexemes? rule.parts s = some (ls, rest))
    (hf : rule.follow rest.head?) (hp : Reading.isProgress depth ⟨ls, rule.change⟩) :
    rule.read? depth passed s = some ⟨ls, rule.change⟩ := by
  unfold read?
  rw [if_pos ha, hl, Option.bind_some]
  exact if_pos (by rw [hf, hp]; rfl)

theorem exists_of_read? {rule : Rule} {depth : Nat} {passed s : List Char} {r : Reading}
    (h : rule.read? depth passed s = some r) :
    ∃ ls rest, rule.anchor.holds passed ∧ lexemes? rule.parts s = some (ls, rest) ∧
      rule.follow rest.head? ∧ r.isProgress depth ∧ r = ⟨ls, rule.change⟩ := by
  unfold read? at h
  split at h
  · rename_i ha
    obtain ⟨⟨ls, rest⟩, hl, h⟩ := Option.bind_eq_some_iff.1 h
    dsimp only at h
    split at h
    · rename_i hp
      obtain ⟨hf, hp⟩ := Bool.and_eq_true_iff.1 hp
      obtain rfl := Option.some.inj h
      exact ⟨ls, rest, ha, hl, hf, hp, rfl⟩
    · cases h
  · cases h

theorem read?_eq_none_iff {rule : Rule} {depth : Nat} {passed s : List Char} :
    rule.read? depth passed s = none ↔ ∀ ls rest, rule.anchor.holds passed →
      lexemes? rule.parts s = some (ls, rest) → rule.follow rest.head? →
        ¬ Reading.isProgress depth ⟨ls, rule.change⟩ := by
  constructor
  · intro h ls rest ha hl hf hp
    rw [read?_eq_some ha hl hf hp] at h
    cases h
  · intro h
    rw [Option.eq_none_iff_forall_ne_some]
    intro r hr
    obtain ⟨ls, rest, ha, hl, hf, hp, rfl⟩ := exists_of_read? hr
    exact h ls rest ha hl hf hp

theorem read?_eq_none_of_anchor {rule : Rule} {passed : List Char} (h : ¬ rule.anchor.holds passed)
    (depth : Nat) (s : List Char) : rule.read? depth passed s = none :=
  if_neg h

theorem read?_eq_none_of_follow {rule : Rule} {s rest : List Char} {ls : List Lexeme}
    (hl : lexemes? rule.parts s = some (ls, rest)) (hf : rule.follow rest.head? = false)
    (depth : Nat) (passed : List Char) : rule.read? depth passed s = none := by
  rw [read?_eq_none_iff]
  intro ls' rest' _ hl' hf' _
  obtain ⟨-, rfl⟩ := Prod.mk.inj (Option.some.inj (hl.symm.trans hl'))
  rw [hf] at hf'
  cases hf'

theorem read?_taking {kind : Kind} {p : Pattern} {s : List Char} {n : Nat} (h : p s = some n)
    (hn : s.take n ≠ []) (depth : Nat) (passed : List Char) :
    (taking kind p).read? depth passed s = some ⟨[⟨kind, s.take n⟩], .stay⟩ := by
  have hlex : lexemes? (taking kind p).parts s = some ([⟨kind, s.take n⟩], s.drop n) := by
    show lexemes? [(kind, p)] s = _
    rw [lexemes?, h]
    rfl
  refine read?_eq_some rfl hlex rfl ?_
  have htext : Reading.text ⟨[⟨kind, s.take n⟩], .stay⟩ = s.take n := List.append_nil _
  show Reading.isProgress depth ⟨[⟨kind, s.take n⟩], .stay⟩ = true
  rw [Reading.isProgress, htext, List.isEmpty_eq_false_iff.2 hn]
  rfl

end Rule

namespace Station

theorem reading?_of_plain {s : Station} {c : Char} {r : List Char}
    (hm : s.modes.top = .doubleString) (hs : s.ahead = c :: r) (hc : isOneOf "\\\"$" c = false) :
    s.reading? =
      some ⟨[⟨.string, c :: r.takeWhile fun c => !isOneOf "\\\"$" c⟩], .stay⟩ := by
  have hnot : ∀ d, isOneOf "\\\"$" d = true → (c :: r).head? ≠ some d := by
    rintro d hd hhead
    obtain rfl := Option.some.inj hhead
    rw [hd] at hc
    cases hc
  have hescaped : escaped (c :: r) = none := andThen_eq_none (literal_eq_none rfl (hnot '\\' rfl))
  have hreference : reference "$" (c :: r) = none :=
    andThen_eq_none (literal_eq_none rfl (hnot '$' rfl))
  have hquote : literal "\"" (c :: r) = none := literal_eq_none rfl (hnot '"' rfl)
  have hrun := @run1_cons r (fun c => !isOneOf "\\\"$" c) c (by rw [hc]; rfl)
  have htake : (c :: r).take ((r.takeWhile fun c => !isOneOf "\\\"$" c).length + 1) =
      c :: r.takeWhile fun c => !isOneOf "\\\"$" c := by
    rw [List.take_succ_cons, take_length_takeWhile]
  have hread := @Rule.read?_taking .string _ _ _ hrun (by rw [htake]; exact List.cons_ne_nil _ _)
    s.modes.depth s.passed
  rw [htake] at hread
  unfold reading?
  rw [hm, hs]
  show [_, _, _, _].findSome? _ = _
  rw [List.findSome?_cons, Rule.read?_eq_none (Rule.lexemes?_eq_none hescaped)]
  rw [List.findSome?_cons, Rule.read?_eq_none (Rule.lexemes?_eq_none hreference)]
  rw [List.findSome?_cons, Rule.read?_eq_none (Rule.lexemes?_eq_none hquote)]
  rw [List.findSome?_cons, hread]

theorem reading?_of_stringRun {s : Station} (hm : s.modes.top = .doubleString) (hs : s.ahead ≠ [])
    (hrun : ∀ c ∈ s.ahead, isOneOf "\\\"$" c = false) :
    s.reading? = some ⟨[⟨.string, s.ahead⟩], .stay⟩ := by
  obtain ⟨c, r, hr⟩ := List.exists_cons_of_ne_nil hs
  rw [hr] at hrun
  obtain ⟨hc, hrest⟩ := List.forall_mem_cons.1 hrun
  have hall : r.takeWhile (fun c => !isOneOf "\\\"$" c) = r :=
    List.takeWhile_eq_self_iff.2 fun d hd => by rw [hrest d hd]; rfl
  rw [reading?_of_plain hm hr hc, hall, hr]

def commentKind (text : List Char) : Kind :=
  if hasMarker text then .commentSpecial else .comment

theorem reading?_of_comment {s : Station} {r : List Char} (hm : s.modes.top = .root)
    (hs : s.ahead = '#' :: r) :
    let text := '#' :: r.takeWhile (· ≠ '\n')
    s.reading? = some ⟨[⟨commentKind text, text⟩], .stay⟩ := by
  intro text
  have htake : ('#' :: r).take text.length = text :=
    congrArg ('#' :: ·) (take_length_takeWhile _ r)
  have hne : ('#' :: r).take text.length ≠ [] := by rw [htake]; exact List.cons_ne_nil _ _
  have hplain := @Rule.read?_taking .comment _ _ _ (comment_hash r) hne s.modes.depth s.passed
  unfold reading?
  rw [hm, hs]
  show (_ :: _ :: _ :: _).findSome? _ = _
  have hseparator : Rule.lexemes? [(Kind.commentSpecial, separator)] ('#' :: r) = none := rfl
  rw [List.findSome?_cons, Rule.read?_eq_none hseparator]
  have hpassing : comment.passing hasMarker ('#' :: r) =
      if hasMarker text then some text.length else none := by
    unfold passing
    rw [comment_hash, Option.filter_some, htake]
  unfold commentKind
  by_cases hmark : hasMarker text
  · rw [if_pos hmark] at hpassing ⊢
    have hspecial := @Rule.read?_taking .commentSpecial _ _ _ hpassing hne s.modes.depth s.passed
    rw [List.findSome?_cons, hspecial, htake]
  · rw [if_neg hmark] at hpassing ⊢
    rw [List.findSome?_cons, Rule.read?_eq_none (Rule.lexemes?_eq_none hpassing),
      List.findSome?_cons, hplain, htake]

theorem reading_of_comment {s : Station} {r : List Char} (hm : s.modes.top = .root)
    (hs : s.ahead = '#' :: r) :
    s.reading =
      ⟨[⟨commentKind ('#' :: r.takeWhile (· ≠ '\n')), '#' :: r.takeWhile (· ≠ '\n')⟩], .stay⟩ :=
  reading_of_reading? (reading?_of_comment hm hs)

theorem reading?_of_lineFeed {s : Station} {r : List Char} (hm : s.modes.top = .root)
    (hs : s.ahead = '\n' :: r) :
    s.reading? = some ⟨[⟨.plainText, '\n' :: r.takeWhile isBlank⟩], .stay⟩ := by
  have htake : ('\n' :: r).take ('\n' :: r.takeWhile isBlank).length =
      '\n' :: r.takeWhile isBlank :=
    congrArg ('\n' :: ·) (take_length_takeWhile isBlank r)
  have hblanks : blanks ('\n' :: r) = some ('\n' :: r.takeWhile isBlank).length := rfl
  have hne : ('\n' :: r).take ('\n' :: r.takeWhile isBlank).length ≠ [] := List.cons_ne_nil _ _
  have hread := @Rule.read?_taking .plainText _ _ _ hblanks hne s.modes.depth s.passed
  have hnumbers : ∀ rule ∈ Rule.numbers, Rule.lexemes? rule.parts ('\n' :: r) = none := by
    simp only [Rule.numbers, List.forall_mem_cons]
    exact ⟨rfl, rfl, rfl, rfl, nofun⟩
  have hnumbers := Rule.findSome?_read?_eq_none hnumbers s.modes.depth s.passed
  unfold reading?
  rw [hm, hs]
  show Rule.root.findSome? _ = _
  rw [Rule.root, List.findSome?_append, List.findSome?_append, hnumbers,
    Rule.findSome?_read?_eq_none]
  · -- Constants, brackets and marks refuse the line feed too, and then blanks take it.
    have hrefused : ∀ {rule : Rule}, Rule.lexemes? rule.parts ('\n' :: r) = none →
        rule.read? s.modes.depth s.passed ('\n' :: r) = none :=
      fun h => Rule.read?_eq_none h _ _
    rw [Option.none_or, Option.none_or, List.findSome?_cons, hrefused rfl, List.findSome?_cons,
      hrefused rfl, List.findSome?_cons, hrefused rfl, List.findSome?_cons, hread, htake]
  · simp only [List.forall_mem_cons]
    exact ⟨rfl, rfl, rfl, rfl, rfl, rfl, rfl, rfl, rfl, rfl, rfl, nofun⟩

theorem reading?_ne_none_of_taking {s : Station} {kind : Kind} {p : Pattern} {n : Nat}
    (hmem : Rule.taking kind p ∈ s.modes.top.rules) (hp : p s.ahead = some n)
    (hn : s.ahead.take n ≠ []) : s.reading? ≠ none := by
  intro h
  have hread := List.findSome?_eq_none_iff.1 h _ hmem
  rw [Rule.read?_taking hp hn] at hread
  cases hread

theorem reading?_ne_none_of_run1 {s : Station} {c : Char} {r : List Char} {kind : Kind}
    {q : Char → Bool} (hmem : Rule.taking kind (run1 q) ∈ s.modes.top.rules) (hs : s.ahead = c :: r)
    (hc : q c) : s.reading? ≠ none :=
  reading?_ne_none_of_taking hmem (by rw [hs, run1_cons hc]) (by simp [hs])

theorem reading?_ne_none_of_blank {s : Station} {c : Char} {r : List Char} (hs : s.ahead = c :: r)
    (hc : isBlank c) (hm : s.modes.top ≠ .blockLiteral) : s.reading? ≠ none := by
  have hstring : (!isOneOf "\\\"$" c) = true := by
    rw [Bool.not_eq_true', Bool.eq_false_iff]
    intro hone
    have hmarks : ∀ d ∈ ['\\', '"', '$'], isBlank d = false := by
      simp only [List.forall_mem_cons]
      exact ⟨rfl, rfl, rfl, List.forall_mem_nil _⟩
    rw [hmarks c (List.contains_iff_mem.1 hone)] at hc
    cases hc
  obtain ⟨kind, q, hmem, hq⟩ :
      ∃ kind q, Rule.taking kind (run1 q) ∈ s.modes.top.rules ∧ q c = true := by
    generalize s.modes.top = mode at hm
    cases mode with
    | root => exact ⟨.plainText, isBlank, by simp [Mode.rules, Rule.root, blanks], hc⟩
    | tagArgs => exact ⟨.plainText, isBlank, by simp [Mode.rules, Rule.tagArgs, blanks], hc⟩
    | doubleString => exact ⟨.string, fun c => !isOneOf "\\\"$" c, by simp [Mode.rules, Rule.doubleString], hstring⟩
    | blockLiteral => exact absurd rfl hm
  exact reading?_ne_none_of_run1 hmem hs hq

theorem reading?_ne_none_of_lineFeed {s : Station} {r : List Char} (hs : s.ahead = '\n' :: r) :
    s.reading? ≠ none := by
  by_cases hm : s.modes.top = .blockLiteral
  · have hmem : Rule.taking .plainText lineBreak ∈ s.modes.top.rules := by
      rw [hm]
      simp [Mode.rules, Rule.blockLiteral]
    exact reading?_ne_none_of_taking (n := 1) hmem (by rw [hs]; rfl) (by simp [hs])
  · exact reading?_ne_none_of_blank hs rfl hm

theorem reading?_of_unindented {s : Station} {c : Char} {r : List Char}
    (hm : s.modes.top = .blockLiteral) (hdepth : 1 < s.modes.depth)
    (hline : Anchor.lineStart.holds s.passed) (hs : s.ahead = c :: r)
    (hc : isBlank c = false) : s.reading? = some ⟨[⟨.plainText, []⟩], .pop⟩ := by
  have hindented : indentedLine (c :: r) = none :=
    andThen_eq_none (run1_eq_none (by rw [hc]; rfl))
  have hend : isLineEnd c = false := by
    rw [Bool.eq_false_iff]
    intro h
    rcases isLineEnd_iff.1 h with rfl | rfl <;> exact absurd hc (by decide)
  unfold reading?
  rw [hm, hs]
  show [_, _, _].findSome? _ = _
  rw [List.findSome?_cons, Rule.read?_eq_none (Rule.lexemes?_eq_none hindented)]
  rw [List.findSome?_cons, Rule.read?_eq_none (Rule.lexemes?_eq_none (lineBreak_eq_none hend))]
  have hfollow : beginsUnindented (some c) = true := by
    show (!isBlank c) = true
    rw [hc]
    rfl
  have hprogress : Reading.isProgress s.modes.depth ⟨[⟨.plainText, []⟩], .pop⟩ = true :=
    decide_eq_true hdepth
  rw [List.findSome?_cons, Rule.read?_eq_some hline rfl hfollow hprogress]
  rfl

end Station
end Tony
