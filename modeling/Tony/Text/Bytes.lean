/-!
The size of a text in UTF-8 bytes, and the part of a text between two byte offsets. A range of
bytes is a part of a text exactly when the text can be cut at both of its ends.
-/

namespace Tony.Text

def bytes : List Char → Nat
  | [] => 0
  | c :: s => c.utf8Size + bytes s

@[simp] theorem bytes_nil : bytes [] = 0 := rfl

@[simp] theorem bytes_cons (c : Char) (s : List Char) :
    bytes (c :: s) = c.utf8Size + bytes s := rfl

@[simp] theorem bytes_append (s t : List Char) : bytes (s ++ t) = bytes s + bytes t := by
  induction s with
  | nil => simp
  | cons c s ih => simp [ih, Nat.add_assoc]

@[simp] theorem bytes_reverse (s : List Char) : bytes s.reverse = bytes s := by
  induction s with
  | nil => rfl
  | cons c s ih => simp [ih, Nat.add_comm]

theorem bytes_eq_zero_iff {s : List Char} : bytes s = 0 ↔ s = [] := by
  cases s with
  | nil => simp
  | cons c s =>
    have := Char.utf8Size_pos c
    simp only [bytes_cons, reduceCtorEq, iff_false]
    omega

inductive SliceError where
  | reversed
  | pastEnd
  | insideCharacter
  deriving DecidableEq, Repr

/-- Moves `n` bytes of characters from `ahead` to `passed`, which has the latest one first. -/
def cut (passed : List Char) : Nat → List Char → Except SliceError (List Char × List Char)
  | 0, ahead => .ok (passed, ahead)
  | _ + 1, [] => .error .pastEnd
  | n + 1, c :: ahead =>
    if n + 1 < c.utf8Size then .error .insideCharacter
    else cut (c :: passed) (n + 1 - c.utf8Size) ahead

theorem cut_eq_ok_iff {passed ahead p a : List Char} {n : Nat} :
    cut passed n ahead = .ok (p, a) ↔ ∃ s, ahead = s ++ a ∧ p = s.reverse ++ passed ∧ bytes s = n := by
  induction ahead generalizing passed n with
  | nil =>
    cases n with
    | zero =>
      simp only [cut, Except.ok.injEq, Prod.mk.injEq]
      constructor
      · rintro ⟨rfl, rfl⟩
        exact ⟨[], by simp⟩
      · rintro ⟨s, hs, hp, -⟩
        obtain ⟨rfl, rfl⟩ := List.append_eq_nil_iff.1 hs.symm
        exact ⟨by simp [hp], rfl⟩
    | succ n =>
      simp only [cut, reduceCtorEq, false_iff, not_exists, not_and]
      intro s hs _ hn
      simp_all
  | cons c ahead ih =>
    have hc := Char.utf8Size_pos c
    cases n with
    | zero =>
      simp only [cut, Except.ok.injEq, Prod.mk.injEq]
      constructor
      · rintro ⟨rfl, rfl⟩
        exact ⟨[], by simp⟩
      · rintro ⟨s, hs, hp, hn⟩
        obtain rfl := bytes_eq_zero_iff.1 hn
        simp_all
    | succ n =>
      rw [cut]
      split
      · rename_i hlt
        simp only [reduceCtorEq, false_iff, not_exists, not_and]
        rintro (_ | ⟨d, s⟩) hs _ hn
        · simp at hn
        · obtain ⟨rfl, -⟩ := List.cons.inj hs
          rw [bytes_cons] at hn
          omega
      · rename_i hlt
        rw [ih]
        constructor
        · rintro ⟨s, rfl, rfl, hn⟩
          exact ⟨c :: s, by simp, by simp, by rw [bytes_cons]; omega⟩
        · rintro ⟨_ | ⟨d, s⟩, hs, hp, hn⟩
          · simp at hn
          · obtain ⟨rfl, rfl⟩ := List.cons.inj hs
            rw [bytes_cons] at hn
            exact ⟨s, rfl, by simp [hp], by omega⟩

theorem cut_bytes_add (passed s ahead : List Char) (n : Nat) :
    cut passed (bytes s + n) (s ++ ahead) = cut (s.reverse ++ passed) n ahead := by
  induction s generalizing passed with
  | nil => simp
  | cons c s ih =>
    have hc := Char.utf8Size_pos c
    obtain ⟨k, hk⟩ : ∃ k, bytes (c :: s) + n = k + 1 :=
      ⟨bytes (c :: s) + n - 1, by rw [bytes_cons]; omega⟩
    rw [hk, List.cons_append, cut, if_neg (by rw [bytes_cons] at hk; omega)]
    rw [show k + 1 - c.utf8Size = bytes s + n by rw [bytes_cons] at hk; omega, ih]
    simp

theorem cut_append (passed below ahead : List Char) (n : Nat) :
    cut (passed ++ below) n ahead =
      (cut passed n ahead).map fun (taken, rest) => (taken ++ below, rest) := by
  induction ahead generalizing passed n with
  | nil => cases n <;> rfl
  | cons c ahead ih =>
    cases n with
    | zero => rfl
    | succ n =>
      simp only [cut]
      split
      · rfl
      · exact ih (c :: passed) _

def slice (s : List Char) (start stop : Nat) : Except SliceError (List Char) := do
  let (_, ahead) ← cut [] start s
  if stop < start then .error .reversed
  else do
    let (part, _) ← cut [] (stop - start) ahead
    return part.reverse

theorem slice_eq_ok_iff {s t : List Char} {start stop : Nat} :
    slice s start stop = .ok t ↔
      ∃ u v, s = u ++ (t ++ v) ∧ bytes u = start ∧ bytes (u ++ t) = stop := by
  constructor
  · intro ht
    rw [slice] at ht
    rcases h₁ : cut [] start s with e | ⟨p, a⟩
    · rw [h₁] at ht; cases ht
    · simp only [h₁, bind, Except.bind] at ht
      split at ht
      · cases ht
      · rename_i hle
        rcases h₂ : cut [] (stop - start) a with e | ⟨q, b⟩
        · rw [h₂] at ht; cases ht
        · simp only [h₂, pure, Except.pure, Except.ok.injEq] at ht
          obtain ⟨u, rfl, -, hu⟩ := cut_eq_ok_iff.1 h₁
          obtain ⟨w, rfl, hw, hb⟩ := cut_eq_ok_iff.1 h₂
          subst ht hw
          refine ⟨u, b, by simp, hu, ?_⟩
          simp only [List.append_nil, List.reverse_reverse, bytes_append]
          omega
  · rintro ⟨u, v, rfl, hu, hs⟩
    rw [bytes_append] at hs
    have h₁ : cut [] start (u ++ (t ++ v)) = .ok (u.reverse, t ++ v) :=
      cut_eq_ok_iff.2 ⟨u, rfl, by simp, hu⟩
    have h₂ : cut [] (stop - start) (t ++ v) = .ok (t.reverse, v) :=
      cut_eq_ok_iff.2 ⟨t, rfl, by simp, by omega⟩
    have hle : ¬ stop < start := by omega
    simp [slice, h₁, h₂, hle, bind, Except.bind, pure, Except.pure]

end Tony.Text
