import Tony.Text.Quoted

/-!
Quoted texts read back. Main statements: what is written between double quotes is read as the text
that it was written for, and it takes one line.
-/

namespace Tony.Text.Quoted

/-- How much of an escape has been read. -/
inductive Escape where
  | outside
  | backslash
  | announced
  | digits (point : Nat)

def named (c : Char) : Char :=
  match c with
  | '0' => '\x00'
  | 't' => '\t'
  | 'r' => '\r'
  | 'n' => '\n'
  | _ => c

def hexValue (c : Char) : Nat :=
  if c.isDigit then c.toNat - '0'.toNat else c.toNat - 'a'.toNat + 10

def readOn : Escape → List Char → Option (List Char)
  | _, [] => none
  | .outside, c :: s =>
    if c = '\\' then readOn .backslash s
    else if c = '"' then if s.isEmpty then some [] else none
    else (readOn .outside s).map (c :: ·)
  | .backslash, c :: s =>
    if c = 'u' then readOn .announced s else (readOn .outside s).map (named c :: ·)
  | .announced, c :: s => if c = '\x7b' then readOn (.digits 0) s else none
  | .digits n, c :: s =>
    if c = '\x7d' then (readOn .outside s).map (Char.ofNat n :: ·)
    else readOn (.digits (16 * n + hexValue c)) s

def decode : List Char → Option (List Char)
  | [] => none
  | c :: s => if c = '"' then readOn .outside s else none

theorem hexValue_digitChar {d : Nat} (h : d < 16) : hexValue d.digitChar = d := by
  have hall : ∀ d : Fin 16, hexValue d.val.digitChar = d := by decide
  exact hall ⟨d, h⟩

theorem readOn_digitChar {d : Nat} (h : d < 16) (n : Nat) (s : List Char) :
    readOn (.digits n) (d.digitChar :: s) = readOn (.digits (16 * n + d)) s := by
  rw [readOn, if_neg (Nat.digitChar_ne '\x7d' rfl), hexValue_digitChar h]

theorem readOn_toDigits (n : Nat) (s : List Char) :
    readOn (.digits 0) (Nat.toDigits 16 n ++ s) = readOn (.digits n) s := by
  induction n using Nat.base_induction 16 (by decide) generalizing s with
  | single d hd =>
    rw [Nat.toDigits_of_lt_base hd, List.singleton_append, readOn_digitChar hd, Nat.mul_zero,
      Nat.zero_add]
  | digit m d hd hm ih =>
    rw [← Nat.toDigits_append_toDigits (by decide) hm hd, List.append_assoc, ih,
      Nat.toDigits_of_lt_base hd, List.singleton_append, readOn_digitChar hd]

theorem readOn_codePoint (c : Char) (s : List Char) :
    readOn .outside (codePoint c ++ s) = (readOn .outside s).map (c :: ·) := by
  have hpoint : readOn .outside (codePoint c ++ s) =
      readOn (.digits 0) (Nat.toDigits 16 c.toNat ++ ('\x7d' :: s)) := by
    rw [codePoint, List.append_assoc, List.append_assoc]
    rfl
  rw [hpoint, readOn_toDigits, readOn, if_pos rfl, Char.ofNat_toNat]

theorem escape_cases (c : Char) :
    (∃ letter, escape '"' c = ['\\', letter] ∧ named letter = c ∧ letter ≠ 'u' ∧ letter ≠ '\n') ∨
      escape '"' c = codePoint c ∨
      escape '"' c = [c] ∧ c ≠ '"' ∧ c ≠ '\\' ∧ c ≠ '\n' := by
  unfold escape
  split
  · rename_i hc
    refine .inl ⟨c, rfl, ?_⟩
    rcases hc with rfl | rfl
    · decide
    · decide
  · rename_i hc
    rw [not_or] at hc
    split
    · exact .inl ⟨'0', rfl, by decide⟩
    · exact .inl ⟨'t', rfl, by decide⟩
    · exact .inl ⟨'r', rfl, by decide⟩
    · exact .inl ⟨'n', rfl, by decide⟩
    · rename_i hfeed
      split
      · exact .inr (.inl rfl)
      · exact .inr (.inr ⟨rfl, hc.1, hc.2, hfeed⟩)

theorem readOn_escape (c : Char) (s : List Char) :
    readOn .outside (escape '"' c ++ s) = (readOn .outside s).map (c :: ·) := by
  rcases escape_cases c with ⟨letter, hform, rfl, hletter, -⟩ | hform | ⟨hform, hquote, hslash, -⟩
  · have hread : readOn .outside ('\\' :: letter :: s) = readOn .backslash (letter :: s) := rfl
    rw [hform, List.cons_append, List.singleton_append, hread, readOn, if_neg hletter]
  · rw [hform, readOn_codePoint]
  · rw [hform, List.singleton_append, readOn, if_neg hslash, if_neg hquote]

theorem decode_encode (s : List Char) : decode (encode '"' s) = some s := by
  have hread : readOn .outside (s.flatMap (escape '"') ++ ['"']) = some s := by
    induction s with
    | nil => rfl
    | cons c s ih => rw [List.flatMap_cons, List.append_assoc, readOn_escape, ih]; rfl
  rw [encode, decode, if_pos rfl, hread]

theorem lineFeed_not_mem_toDigits (n : Nat) : '\n' ∉ Nat.toDigits 16 n := by
  have hdigit : ∀ d, '\n' ≠ Nat.digitChar d := fun d h => Nat.digitChar_ne '\n' rfl h.symm
  induction n using Nat.base_induction 16 (by decide) with
  | single d hd =>
    rw [Nat.toDigits_of_lt_base hd, List.mem_singleton]
    exact hdigit d
  | digit m d hd hm ih =>
    rw [← Nat.toDigits_append_toDigits (by decide) hm hd, Nat.toDigits_of_lt_base hd,
      List.mem_append, List.mem_singleton, not_or]
    exact ⟨ih, hdigit d⟩

theorem lineFeed_not_mem_escape (c : Char) : '\n' ∉ escape '"' c := by
  rcases escape_cases c with ⟨letter, hform, -, -, hfeed⟩ | hform | ⟨hform, -, -, hfeed⟩
  · rw [hform, List.mem_cons, List.mem_singleton, not_or]
    exact ⟨by decide, hfeed.symm⟩
  · rw [hform, codePoint, List.mem_append, List.mem_append, List.mem_singleton]
    rintro ((h | h) | h)
    · exact absurd h (by decide)
    · exact lineFeed_not_mem_toDigits _ h
    · exact absurd h (by decide)
  · rw [hform, List.mem_singleton]
    exact hfeed.symm

theorem lineFeed_not_mem_encode (s : List Char) : '\n' ∉ encode '"' s := by
  rw [encode, List.mem_cons, List.mem_append, List.mem_flatMap, List.mem_singleton]
  rintro (h | ⟨c, -, h⟩ | h)
  · exact absurd h (by decide)
  · exact lineFeed_not_mem_escape c h
  · exact absurd h (by decide)

end Tony.Text.Quoted
