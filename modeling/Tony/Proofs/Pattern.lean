import Tony.Rule.Table

/-!
How far patterns look. A pattern never takes more than there is, and for most patterns a line feed
or a carriage return is like the end of the text: what follows makes no difference.
-/

namespace Tony.Pattern

def Bounded (p : Pattern) : Prop :=
  ∀ (s : List Char) (n : Nat), p s = some n → n ≤ s.length

/-- For the pattern a `c` is like the end of the text. -/
structure StopsAt (p : Pattern) (c : Char) : Prop where
  bounded : Bounded p
  append_cons : ∀ u r : List Char, p (u ++ c :: r) = p u

theorem length_takeWhile_le (q : Char → Bool) (s : List Char) :
    (s.takeWhile q).length ≤ s.length :=
  (List.takeWhile_sublist q).length_le

theorem take_length_takeWhile (q : Char → Bool) (s : List Char) :
    s.take (s.takeWhile q).length = s.takeWhile q :=
  (List.prefix_iff_eq_take.1 (List.takeWhile_prefix q)).symm

theorem stop_of_takeWhile {q : Char → Bool} {s : List Char} :
    ∀ c ∈ (s.drop (s.takeWhile q).length).head?, q c = false := by
  have hdrop : s.drop (s.takeWhile q).length = s.dropWhile q := by
    calc s.drop (s.takeWhile q).length
        = (s.takeWhile q ++ s.dropWhile q).drop (s.takeWhile q).length := by
          rw [List.takeWhile_append_dropWhile]
      _ = s.dropWhile q := List.drop_left
  intro c hc
  have hnot := List.head?_dropWhile_not q s
  rw [hdrop] at hc
  rw [Option.mem_def.1 hc] at hnot
  exact hnot

theorem takeWhile_append_cons {q : Char → Bool} {c : Char} (hc : q c = false) (u r : List Char) :
    (u ++ c :: r).takeWhile q = u.takeWhile q := by
  rw [List.takeWhile_append]
  split
  · rename_i hu
    have hall : u.takeWhile q = u := (List.takeWhile_prefix q).eq_of_length hu
    rw [List.takeWhile_cons, hc, hall]
    exact List.append_nil u
  · rfl

section Combinators

variable {p q : Pattern} {ps : List Pattern} {f : Char → Bool} {c : Char}

@[simp] theorem bounded_one (f : Char → Bool) : Bounded (one f) := by
  intro s n h
  cases s with
  | nil => cases h
  | cons d s =>
    have hn : 1 = n := by
      rw [one] at h
      split at h
      · exact Option.some.inj h
      · cases h
    rw [← hn, List.length_cons]
    exact Nat.le_add_left 1 s.length

@[simp] theorem bounded_run (f : Char → Bool) : Bounded (run f) := by
  intro s n h
  obtain rfl := Option.some.inj h
  exact length_takeWhile_le f s

theorem run1_eq_some {s : List Char} {n : Nat} (h : run1 f s = some n) :
    n = (s.takeWhile f).length ∧ n ≠ 0 := by
  unfold run1 at h
  dsimp only at h
  split at h
  · cases h
  · rename_i hn
    obtain rfl := Option.some.inj h
    exact ⟨rfl, hn⟩

@[simp] theorem bounded_run1 (f : Char → Bool) : Bounded (run1 f) := by
  intro s n h
  rw [(run1_eq_some h).1]
  exact length_takeWhile_le f s

theorem literal_eq_some {w : String} {s : List Char} {n : Nat} (h : literal w s = some n) :
    n = w.toList.length ∧ w.toList <+: s := by
  unfold literal at h
  split at h
  · rename_i hw
    obtain rfl := Option.some.inj h
    exact ⟨rfl, List.isPrefixOf_iff_prefix.1 hw⟩
  · cases h

@[simp] theorem bounded_literal (w : String) : Bounded (literal w) := by
  intro s n h
  obtain ⟨hn, hw⟩ := literal_eq_some h
  rw [hn]
  exact hw.length_le

@[simp] theorem bounded_nothing : Bounded nothing := by
  intro s n h
  obtain rfl := Option.some.inj h
  exact Nat.zero_le _

theorem andThen_eq_some {s : List Char} {n : Nat} (h : p.andThen q s = some n) :
    ∃ i j, p s = some i ∧ q (s.drop i) = some j ∧ n = i + j := by
  obtain ⟨i, hi, h⟩ := Option.bind_eq_some_iff.1 h
  obtain ⟨j, hj, rfl⟩ := Option.map_eq_some_iff.1 h
  exact ⟨i, j, hi, hj, rfl⟩

@[simp] theorem bounded_andThen (hp : Bounded p) (hq : Bounded q) : Bounded (p.andThen q) := by
  intro s n h
  obtain ⟨i, j, hi, hj, rfl⟩ := andThen_eq_some h
  have hi := hp s i hi
  have hj := hq (s.drop i) j hj
  rw [List.length_drop] at hj
  omega

@[simp] theorem bounded_chain (h : ∀ p ∈ ps, Bounded p) : Bounded (chain ps) := by
  induction ps with
  | nil => exact bounded_nothing
  | cons p ps ih =>
    have hp := h p (List.mem_cons_self ..)
    exact bounded_andThen hp (ih fun q hq => h q (List.mem_cons_of_mem p hq))

@[simp] theorem bounded_maybe (hp : Bounded p) : Bounded (maybe p) := by
  intro s n h
  obtain rfl := Option.some.inj h
  cases hs : p s with
  | none => exact Nat.zero_le _
  | some m => exact hp s m hs

@[simp] theorem bounded_firstOf (h : ∀ p ∈ ps, Bounded p) : Bounded (firstOf ps) := by
  intro s n hn
  obtain ⟨p, hp, hs⟩ := List.exists_of_findSome?_eq_some hn
  exact h p hp s n hs

@[simp] theorem bounded_passing (hp : Bounded p) (test : List Char → Bool) :
    Bounded (p.passing test) := by
  intro s n h
  exact hp s n (Option.filter_eq_some_iff.1 h).1

@[simp] theorem stopsAt_one (hc : f c = false) : StopsAt (one f) c := by
  refine ⟨bounded_one f, fun u r => ?_⟩
  cases u with
  | nil =>
    show (if f c then some 1 else none) = none
    rw [hc]
    rfl
  | cons d u => rfl

@[simp] theorem stopsAt_run (hc : f c = false) : StopsAt (run f) c := by
  refine ⟨bounded_run f, fun u r => ?_⟩
  unfold run
  rw [takeWhile_append_cons hc]

@[simp] theorem stopsAt_run1 (hc : f c = false) : StopsAt (run1 f) c := by
  refine ⟨bounded_run1 f, fun u r => ?_⟩
  unfold run1
  rw [takeWhile_append_cons hc]

theorem isPrefixOf_append_cons {w : List Char} (hc : c ∉ w) (u r : List Char) :
    w.isPrefixOf (u ++ c :: r) = w.isPrefixOf u := by
  induction w generalizing u with
  | nil => rfl
  | cons d w ih =>
    rw [List.mem_cons, not_or] at hc
    obtain ⟨hd, hw⟩ := hc
    cases u with
    | nil =>
      have hne : (d == c) = false := beq_eq_false_iff_ne.2 (Ne.symm hd)
      show (d == c && w.isPrefixOf r) = false
      rw [hne, Bool.false_and]
    | cons e u =>
      show (d == e && w.isPrefixOf (u ++ c :: r)) = (d == e && w.isPrefixOf u)
      rw [ih hw]

@[simp] theorem stopsAt_literal {w : String} (hc : c ∉ w.toList) : StopsAt (literal w) c := by
  refine ⟨bounded_literal w, fun u r => ?_⟩
  unfold literal
  rw [isPrefixOf_append_cons hc]

theorem stopsAt_nothing : StopsAt nothing c :=
  ⟨bounded_nothing, fun _ _ => rfl⟩

theorem StopsAt.andThen (hp : StopsAt p c) (hq : StopsAt q c) : StopsAt (p.andThen q) c := by
  refine ⟨bounded_andThen hp.bounded hq.bounded, fun u r => ?_⟩
  unfold Pattern.andThen
  rw [hp.append_cons u r]
  cases hu : p u with
  | none => rfl
  | some n =>
    have hn := hp.bounded u n hu
    show (q ((u ++ c :: r).drop n)).map _ = (q (u.drop n)).map _
    rw [List.drop_append_of_le_length hn, hq.append_cons (u.drop n) r]

theorem stopsAt_chain (h : ∀ p ∈ ps, StopsAt p c) : StopsAt (chain ps) c := by
  induction ps with
  | nil => exact stopsAt_nothing
  | cons p ps ih =>
    have hp := h p (List.mem_cons_self ..)
    exact hp.andThen (ih fun q hq => h q (List.mem_cons_of_mem p hq))

theorem StopsAt.maybe (hp : StopsAt p c) : StopsAt (maybe p) c := by
  refine ⟨bounded_maybe hp.bounded, fun u r => ?_⟩
  unfold Pattern.maybe
  rw [hp.append_cons u r]

theorem stopsAt_firstOf (h : ∀ p ∈ ps, StopsAt p c) : StopsAt (firstOf ps) c := by
  refine ⟨bounded_firstOf fun p hp => (h p hp).bounded, fun u r => ?_⟩
  unfold firstOf
  induction ps with
  | nil => rfl
  | cons p ps ih =>
    rw [List.findSome?_cons, List.findSome?_cons, (h p (List.mem_cons_self ..)).append_cons u r,
      ih fun q hq => h q (List.mem_cons_of_mem p hq)]

theorem StopsAt.passing (hp : StopsAt p c) (test : List Char → Bool) :
    StopsAt (p.passing test) c := by
  refine ⟨bounded_passing hp.bounded test, fun u r => ?_⟩
  unfold Pattern.passing
  rw [hp.append_cons u r]
  cases hu : p u with
  | none => rfl
  | some n =>
    have hn := hp.bounded u n hu
    show Option.filter (fun n => test ((u ++ c :: r).take n)) (some n) =
      Option.filter (fun n => test (u.take n)) (some n)
    rw [Option.filter_some, Option.filter_some, List.take_append_of_le_length hn]

end Combinators

theorem tagRest_le (n : Nat) (s : List Char) : tagRest n s ≤ n + s.length := by
  fun_induction tagRest n s with
  | case1 n => exact Nat.le_refl n
  | case2 n c s _ ih => rw [List.length_cons]; omega
  | case3 n c s _ => exact Nat.le_add_right n _

@[simp] theorem bounded_tagName : Bounded tagName := by
  intro s n h
  cases s with
  | nil => cases h
  | cons c s =>
    rw [tagName] at h
    split at h
    · obtain rfl := Option.some.inj h
      have hle := tagRest_le 1 s
      rw [List.length_cons]
      omega
    · cases h

theorem tagRest_append_cons {c : Char} (hc : isTagLetter c = false) (hcolon : c ≠ ':') (n : Nat)
    (u r : List Char) : tagRest n (u ++ c :: r) = tagRest n u := by
  induction u generalizing n with
  | nil => simp [tagRest, hc, hcolon]
  | cons d u ih =>
    have hnext : (u ++ c :: r).head?.any isTagLetter = u.head?.any isTagLetter := by
      cases u with
      | nil => exact hc
      | cons e u => rfl
    rw [List.cons_append, tagRest, tagRest, hnext, ih]

theorem stopsAt_tagName {c : Char} (hc : isTagLetter c = false) (hcolon : c ≠ ':') :
    StopsAt tagName c := by
  refine ⟨bounded_tagName, fun u r => ?_⟩
  cases u with
  | nil =>
    show (if isTagLetter c then some (tagRest 1 r) else none) = none
    rw [hc]
    rfl
  | cons d u =>
    show (if isTagLetter d then some (tagRest 1 (u ++ c :: r)) else none) =
      if isTagLetter d then some (tagRest 1 u) else none
    rw [tagRest_append_cons hc hcolon]

theorem quotedRest_cons {c : Char} (hc : c ≠ '\\') (n : Nat) (s : List Char) :
    quotedRest n (c :: s) = if c = '\'' then some (n + 1) else quotedRest (n + 1) s := by
  rw [quotedRest]
  · intro h _
    exact hc h
  · intro d r h _
    exact hc h

/-- Induction along a text in quotes, which goes over two characters at a backslash. -/
theorem quotedRest_induction {P : List Char → Prop} (s : List Char) (nil : P [])
    (backslash : P ['\\']) (lineFeed : ∀ s, P ('\\' :: '\n' :: s))
    (escaped : ∀ c s, c ≠ '\n' → P s → P ('\\' :: c :: s)) (quote : ∀ s, P ('\'' :: s))
    (other : ∀ c s, c ≠ '\\' → c ≠ '\'' → P s → P (c :: s)) : P s := by
  induction 0, s using quotedRest.induct with
  | case1 n => exact nil
  | case2 n => exact backslash
  | case3 n s => exact lineFeed s
  | case4 n c s hc ih => exact escaped c s hc ih
  | case5 n s => exact quote s
  | case6 n c s hnil hcons hquote ih =>
    refine other c s ?_ hquote ih
    intro hc
    cases s with
    | nil => exact hnil hc rfl
    | cons d s => exact hcons d s hc rfl

theorem quotedRest_le {n m : Nat} {s : List Char} (h : quotedRest n s = some m) :
    m ≤ n + s.length := by
  induction s using quotedRest_induction generalizing n with
  | nil => cases h
  | backslash => cases h
  | lineFeed s => cases h
  | escaped c s hc ih =>
    rw [quotedRest, if_neg hc] at h
    have hle := ih h
    rw [List.length_cons, List.length_cons]
    omega
  | quote s =>
    rw [quotedRest_cons (by decide), if_pos rfl] at h
    obtain rfl := Option.some.inj h
    rw [List.length_cons]
    omega
  | other c s hc hquote ih =>
    rw [quotedRest_cons hc, if_neg hquote] at h
    have hle := ih h
    rw [List.length_cons]
    omega

theorem quotedRest_add (n k : Nat) (s : List Char) :
    quotedRest (n + k) s = (quotedRest n s).map (· + k) := by
  induction s using quotedRest_induction generalizing n with
  | nil => rfl
  | backslash => rfl
  | lineFeed s => rfl
  | escaped c s hc ih =>
    rw [quotedRest, quotedRest, if_neg hc, if_neg hc, Nat.add_right_comm, ih]
  | quote s =>
    rw [quotedRest_cons (by decide), quotedRest_cons (by decide), if_pos rfl, if_pos rfl,
      Nat.add_right_comm]
    rfl
  | other c s hc hquote ih =>
    rw [quotedRest_cons hc, quotedRest_cons hc, if_neg hquote, if_neg hquote, Nat.add_right_comm,
      ih]

theorem quoted_eq_andThen : quoted = (one (· = '\'')).andThen (quotedRest 0) := by
  funext s
  cases s with
  | nil => rfl
  | cons c s =>
    rw [quoted]
    by_cases hc : c = '\''
    · subst hc
      have hmap : (one (· = '\'')).andThen (quotedRest 0) ('\'' :: s) =
          (quotedRest 0 s).map fun m => 1 + m := rfl
      rw [if_pos rfl, hmap, quotedRest_add 0 1]
      simp only [Nat.add_comm]
    · have hone : one (· = '\'') (c :: s) = none := if_neg (by simp [hc])
      unfold Pattern.andThen
      rw [if_neg hc, hone]
      rfl

theorem bounded_quoted : Bounded quoted := by
  intro s n h
  cases s with
  | nil => cases h
  | cons c s =>
    rw [quoted] at h
    split at h
    · have hle := quotedRest_le h
      rw [List.length_cons]
      omega
    · cases h

theorem bounded_reference (sigil : String) : Bounded (reference sigil) :=
  bounded_chain (by simp)

theorem isLineEnd_iff {c : Char} : isLineEnd c ↔ c = '\r' ∨ c = '\n' := by
  simp [isLineEnd]

theorem forall_isLineEnd {P : Char → Prop} (hr : P '\r') (hn : P '\n') :
    ∀ c, isLineEnd c → P c := by
  intro c hc
  rcases isLineEnd_iff.1 hc with rfl | rfl
  · exact hr
  · exact hn

theorem stopsAt_literal_of_isLineEnd {w : String} (hr : '\r' ∉ w.toList) (hn : '\n' ∉ w.toList) :
    ∀ c, isLineEnd c → StopsAt (literal w) c :=
  forall_isLineEnd (stopsAt_literal hr) (stopsAt_literal hn)

section LineEnd

variable {c : Char} (hc : isLineEnd c)
include hc

theorem stopsAt_indent : StopsAt indent c :=
  forall_isLineEnd (stopsAt_run rfl) (stopsAt_run rfl) c hc

theorem stopsAt_separator : StopsAt separator c := by
  have hdashes : StopsAt (literal "---") c :=
    stopsAt_literal_of_isLineEnd (by decide) (by decide) c hc
  exact hdashes.andThen ((stopsAt_indent hc).andThen stopsAt_nothing)

theorem stopsAt_tag : StopsAt tag c := by
  have hbang : StopsAt (literal "!") c :=
    stopsAt_literal_of_isLineEnd (by decide) (by decide) c hc
  have hname : StopsAt tagName c :=
    forall_isLineEnd (stopsAt_tagName rfl (by decide)) (stopsAt_tagName rfl (by decide)) c hc
  exact hbang.andThen (hname.andThen stopsAt_nothing)

theorem stopsAt_minus : StopsAt minus c := by
  have hminus : StopsAt (literal "-") c :=
    stopsAt_literal_of_isLineEnd (by decide) (by decide) c hc
  exact hminus.maybe

theorem stopsAt_hexNumber : StopsAt hexNumber c := by
  have hminus := stopsAt_minus hc
  rcases isLineEnd_iff.1 hc with rfl | rfl <;> exact stopsAt_chain (by simp +decide [hminus])

theorem stopsAt_octalNumber : StopsAt octalNumber c := by
  have hminus := stopsAt_minus hc
  rcases isLineEnd_iff.1 hc with rfl | rfl <;> exact stopsAt_chain (by simp +decide [hminus])

theorem stopsAt_floatNumber : StopsAt floatNumber c := by
  have hminus := stopsAt_minus hc
  rcases isLineEnd_iff.1 hc with rfl | rfl <;> exact stopsAt_chain (by simp +decide [hminus])

theorem stopsAt_integerNumber : StopsAt integerNumber c := by
  have hminus := stopsAt_minus hc
  rcases isLineEnd_iff.1 hc with rfl | rfl <;> exact stopsAt_chain (by simp +decide [hminus])

theorem stopsAt_constant : StopsAt constant c := by
  rcases isLineEnd_iff.1 hc with rfl | rfl <;> exact stopsAt_firstOf (by simp +decide)

theorem stopsAt_blockMark : StopsAt blockMark c := by
  have hbar : StopsAt (literal "|") c :=
    stopsAt_literal_of_isLineEnd (by decide) (by decide) c hc
  have hsign : StopsAt (one (isOneOf "+-")) c :=
    forall_isLineEnd (stopsAt_one rfl) (stopsAt_one rfl) c hc
  exact hbar.andThen (hsign.maybe.andThen stopsAt_nothing)

theorem stopsAt_escaped : StopsAt escaped c := by
  rcases isLineEnd_iff.1 hc with rfl | rfl <;> exact stopsAt_chain (by simp +decide)

theorem stopsAt_indentedLine : StopsAt indentedLine c := by
  rcases isLineEnd_iff.1 hc with rfl | rfl <;> exact stopsAt_chain (by simp +decide)

end LineEnd

theorem stopsAt_comment : StopsAt comment '\n' :=
  stopsAt_chain (by simp +decide [toLineEnd])

end Tony.Pattern
