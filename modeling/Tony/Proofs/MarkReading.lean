import Tony.Proofs.Appending
import Tony.Proofs.Landmark

/-!
What a document makes of a merge key, a separator or a block mark ahead. If the line before it allows
the mark, then no rule that is tried earlier takes anything, and the mark is read.
-/

namespace Tony

open Pattern

namespace Pattern

variable {w v : List Char}

theorem run_append_eq {q : Char → Bool} (hw : ∀ c ∈ w, q c) (hv : ∀ c ∈ v.head?, q c = false) :
    run q (w ++ v) = some w.length := by
  unfold run
  rw [takeWhile_append_of_head? hv, List.takeWhile_eq_self_iff.2 hw]

theorem indent_append (hw : ∀ c ∈ w, c = ' ' ∨ c = '\t') (hv : ∀ c ∈ v.head?, isIndent c = false) :
    indent (w ++ v) = some w.length :=
  run_append_eq (fun c hc => isIndent_iff.2 (hw c hc)) hv

theorem andThen_append_eq {p q : Pattern} {n : Nat} (hp : p (w ++ v) = some w.length)
    (hq : q v = some n) : p.andThen q (w ++ v) = some (w.length + n) := by
  unfold Pattern.andThen
  rw [hp, Option.bind_some, List.drop_left, hq]
  rfl

theorem isIndent_of_stop (hv : ∀ c ∈ v.head?, c = '\r' ∨ c = '\n') :
    ∀ c ∈ v.head?, isIndent c = false := by
  intro c hc
  rcases hv c hc with rfl | rfl
  · rfl
  · rfl

theorem separator_append (hw : ∀ c ∈ w, c = ' ' ∨ c = '\t')
    (hv : ∀ c ∈ v.head?, c = '\r' ∨ c = '\n') :
    separator ('-' :: '-' :: '-' :: w ++ v) = some ('-' :: '-' :: '-' :: w).length := by
  have hindent := indent_append hw (isIndent_of_stop hv)
  have hrest : indent.andThen nothing (w ++ v) = some (w.length + 0) :=
    andThen_append_eq hindent rfl
  have hdashes : literal "---" (['-', '-', '-'] ++ (w ++ v)) = some 3 := rfl
  have hall := andThen_append_eq hdashes hrest
  rw [Nat.add_comm] at hall
  exact hall

theorem exists_bar_of_mem {mark : List Char} (h : mark ∈ [['|'], ['|', '+'], ['|', '-']]) :
    ∃ r, mark = '|' :: r := by
  simp only [List.mem_cons, List.not_mem_nil, or_false] at h
  rcases h with rfl | rfl | rfl <;> exact ⟨_, rfl⟩

theorem blockMark_append {mark : List Char} (hmark : mark ∈ [['|'], ['|', '+'], ['|', '-']])
    (hv : ∀ c ∈ v.head?, isOneOf "+-" c = false) : blockMark (mark ++ v) = some mark.length := by
  have hnone : one (isOneOf "+-") v = none := by
    cases v with
    | nil => rfl
    | cons c v => exact if_neg (by rw [hv c rfl]; decide)
  simp only [List.mem_cons, List.not_mem_nil, or_false] at hmark
  rcases hmark with rfl | rfl | rfl
  · show some (1 + (((one (isOneOf "+-") v).getD 0) + 0)) = some 1
    rw [hnone]
    rfl
  · rfl
  · rfl

end Pattern

namespace Station

variable {s : Station} {w v : List Char}

theorem reading_of_separator (hm : s.modes.top = .root) (hline : Anchor.lineStart.holds s.passed)
    (hw : ∀ c ∈ w, c = ' ' ∨ c = '\t') (hv : ∀ c ∈ v.head?, c = '\r' ∨ c = '\n')
    (hs : s.ahead = '-' :: '-' :: '-' :: w ++ v) :
    s.reading = ⟨[⟨.commentSpecial, '-' :: '-' :: '-' :: w⟩], .stay⟩ := by
  have hrules : s.modes.top.rules = [] ++ Rule.separator :: Rule.root.drop 1 := by rw [hm]; rfl
  have hlexemes : Rule.lexemes? Rule.separator.parts s.ahead =
      some ([⟨.commentSpecial, '-' :: '-' :: '-' :: w⟩], v) := by
    rw [hs]
    exact Rule.lexemes?_cons_of_append (separator_append hw hv) rfl
  have hfollow : Rule.separator.follow v.head? := by
    cases v with
    | nil => rfl
    | cons c v => exact isLineEnd_iff.2 (hv c rfl)
  exact reading_eq_of_rules hrules (List.forall_mem_nil _)
    (Rule.read?_eq_some hline hlexemes hfollow rfl)

theorem head?_ne_of_indent {d : Char} (hw : ∀ c ∈ w, c = ' ' ∨ c = '\t')
    (hs : s.ahead = w ++ d :: v) {c : Char} (hc : c ≠ ' ' ∧ c ≠ '\t' ∧ c ≠ d) :
    s.ahead.head? ≠ some c := by
  intro hhead
  rw [hs] at hhead
  cases w with
  | nil => exact hc.2.2 (Option.some.inj hhead).symm
  | cons e w =>
    obtain rfl : e = c := Option.some.inj hhead
    exact (hw e (List.mem_cons_self ..)).elim hc.1 hc.2.1

theorem lexemes?_eq_none_before_mergeKey (hdash : s.ahead.head? ≠ some '-')
    (hhash : s.ahead.head? ≠ some '#') :
    ∀ x ∈ Rule.root.take 3, Rule.lexemes? x.parts s.ahead = none := by
  have hseparator : Pattern.separator s.ahead = none := andThen_eq_none (literal_eq_none rfl hdash)
  have hcomment := comment_eq_none hhash
  show ∀ x ∈ [_, _, _], _
  simp only [List.forall_mem_cons]
  exact ⟨Rule.lexemes?_eq_none hseparator, Rule.lexemes?_eq_none (passing_eq_none hcomment _),
    Rule.lexemes?_eq_none hcomment, List.forall_mem_nil _⟩

theorem reading_of_mergeKey (hm : s.modes.top = .root) (hanchor : Anchor.afterIndent.holds s.passed)
    (hw : ∀ c ∈ w, c = ' ' ∨ c = '\t') (hs : s.ahead = w ++ '<' :: '<' :: ':' :: v) :
    s.reading = ⟨[⟨.plainText, w⟩, ⟨.operator, ['<', '<', ':']⟩], .stay⟩ := by
  have hrules : s.modes.top.rules = Rule.root.take 3 ++ Rule.mergeKey :: Rule.root.drop 4 := by
    rw [hm]
    rfl
  have hbefore := lexemes?_eq_none_before_mergeKey (head?_ne_of_indent hw hs (c := '-') (by decide))
    (head?_ne_of_indent hw hs (c := '#') (by decide))
  have hkey : Rule.lexemes? [(.operator, literal "<<:")] (['<', '<', ':'] ++ v) =
      some ([⟨.operator, ['<', '<', ':']⟩], v) := Rule.lexemes?_cons_of_append rfl rfl
  have hlexemes : Rule.lexemes? Rule.mergeKey.parts s.ahead =
      some ([⟨.plainText, w⟩, ⟨.operator, ['<', '<', ':']⟩], v) := by
    rw [hs]
    have hv : ∀ c ∈ ('<' :: '<' :: ':' :: v).head?, isIndent c = false := by
      intro c hc
      obtain rfl := Option.some.inj hc
      rfl
    exact Rule.lexemes?_cons_of_append (indent_append hw hv) hkey
  have hprogress : Reading.isProgress s.modes.depth
      ⟨[⟨.plainText, w⟩, ⟨.operator, ['<', '<', ':']⟩], .stay⟩ :=
    Reading.isProgress_of_text (Reading.text_ne_nil_of_mem (l := ⟨.operator, ['<', '<', ':']⟩)
      (List.mem_cons_of_mem _ (List.mem_cons_self ..)) (List.cons_ne_nil _ _)) _
  exact reading_eq_of_rules hrules hbefore (Rule.read?_eq_some hanchor hlexemes rfl hprogress)

theorem reading_of_blockMark {mark x : List Char} (hm : s.modes.top = .root)
    (hanchor : Anchor.afterIndent.holds s.passed) (hw : ∀ c ∈ w, c = ' ' ∨ c = '\t')
    (hmark : mark ∈ [['|'], ['|', '+'], ['|', '-']]) (hx : ∀ c ∈ x, c = ' ' ∨ c = '\t')
    (hv : ∀ c ∈ v.head?, c = '\r' ∨ c = '\n') (hs : s.ahead = w ++ (mark ++ (x ++ v))) :
    s.reading = ⟨[⟨.plainText, w⟩, ⟨.punctuation, mark⟩, ⟨.plainText, x⟩], .push .blockLiteral⟩ := by
  have hrules : s.modes.top.rules = Rule.root.take 8 ++ Rule.blockOpening :: Rule.root.drop 9 := by
    rw [hm]
    rfl
  obtain ⟨r, hbar⟩ : ∃ r, mark ++ (x ++ v) = '|' :: r := by
    obtain ⟨e, rfl⟩ := exists_bar_of_mem hmark
    exact ⟨e ++ (x ++ v), rfl⟩
  have hbarIndent : ∀ c ∈ (mark ++ (x ++ v)).head?, isIndent c = false := by
    intro c hc
    rw [hbar] at hc
    obtain rfl := Option.some.inj hc
    rfl
  have hindent : indent (w ++ (mark ++ (x ++ v))) = some w.length := indent_append hw hbarIndent
  have hbefore : ∀ x ∈ Rule.root.take 8, Rule.lexemes? x.parts s.ahead = none := by
    have hs' : s.ahead = w ++ '|' :: r := by rw [hs, hbar]
    have hdash := head?_ne_of_indent hw hs' (c := '-') (by decide)
    have hhash := head?_ne_of_indent hw hs' (c := '#') (by decide)
    have hbang := head?_ne_of_indent hw hs' (c := '!') (by decide)
    have hdollar := head?_ne_of_indent hw hs' (c := '$') (by decide)
    have hdot := head?_ne_of_indent hw hs' (c := '.') (by decide)
    have htag : tag s.ahead = none := andThen_eq_none (literal_eq_none rfl hbang)
    have hreference : reference "$" s.ahead = none := andThen_eq_none (literal_eq_none rfl hdollar)
    have hreference' : reference "." s.ahead = none := andThen_eq_none (literal_eq_none rfl hdot)
    have hkey : Rule.lexemes? Rule.mergeKey.parts s.ahead = none := by
      show Rule.lexemes? [(.plainText, indent), (.operator, literal "<<:")] s.ahead = none
      rw [hs, Rule.lexemes?, hindent, Option.bind_some, List.drop_left, hbar]
      rfl
    have hlater : ∀ x ∈ (Rule.root.take 8).drop 3, Rule.lexemes? x.parts s.ahead = none := by
      show ∀ x ∈ [_, _, _, _, _], _
      simp only [List.forall_mem_cons]
      exact ⟨hkey, Rule.lexemes?_eq_none htag, Rule.lexemes?_eq_none (andThen_eq_none htag),
        Rule.lexemes?_eq_none hreference, Rule.lexemes?_eq_none hreference', List.forall_mem_nil _⟩
    exact List.forall_mem_append.2 ⟨lexemes?_eq_none_before_mergeKey hdash hhash, hlater⟩
  have hlexemes : Rule.lexemes? Rule.blockOpening.parts s.ahead =
      some ([⟨.plainText, w⟩, ⟨.punctuation, mark⟩, ⟨.plainText, x⟩], v) := by
    have hblanks : Rule.lexemes? [(.plainText, indent)] (x ++ v) = some ([⟨.plainText, x⟩], v) :=
      Rule.lexemes?_cons_of_append (indent_append hx (isIndent_of_stop hv)) rfl
    have hsign : ∀ c ∈ (x ++ v).head?, isOneOf "+-" c = false := by
      intro c hc
      have hplain : c = ' ' ∨ c = '\t' ∨ c = '\r' ∨ c = '\n' := by
        cases x with
        | nil => exact .inr (.inr (hv c hc))
        | cons d x =>
          obtain rfl := Option.some.inj hc
          exact (hx d (List.mem_cons_self ..)).imp_right .inl
      rcases hplain with rfl | rfl | rfl | rfl <;> rfl
    rw [hs]
    exact Rule.lexemes?_cons_of_append hindent
      (Rule.lexemes?_cons_of_append (blockMark_append hmark hsign) hblanks)
  have hfollow : Rule.blockOpening.follow v.head? := by
    cases v with
    | nil => rfl
    | cons c v => exact isLineEnd_iff.2 (hv c rfl)
  have hprogress : Reading.isProgress s.modes.depth
      ⟨[⟨.plainText, w⟩, ⟨.punctuation, mark⟩, ⟨.plainText, x⟩], .push .blockLiteral⟩ := by
    have hne : mark ≠ [] := by
      rintro rfl
      simp at hmark
    have hmem : ⟨.punctuation, mark⟩ ∈
        [⟨.plainText, w⟩, ⟨.punctuation, mark⟩, (⟨.plainText, x⟩ : Lexeme)] := by simp
    exact Reading.isProgress_of_text (Reading.text_ne_nil_of_mem hmem hne) _
  exact reading_eq_of_rules hrules hbefore (Rule.read?_eq_some hanchor hlexemes hfollow hprogress)

end Station
end Tony
