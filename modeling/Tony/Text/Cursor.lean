import Tony.Text.Bytes

/-!
A place in a text, given by its byte offset. The text is kept cut at the last character boundary
up to the place, so that moving on costs only the characters moved over. A place may lie inside a
character or past the end; then it has a skew and no text can be read there.
-/

namespace Tony.Text

structure Cursor where
  /-- The characters before the cut, the latest one first. -/
  passed : List Char
  ahead : List Char
  offset : Nat
  /-- How many bytes the place is beyond the cut. -/
  skew : Nat
  offset_eq : offset = bytes passed
  skew_lt : ∀ c ∈ ahead.head?, skew < c.utf8Size

namespace Cursor

def start (s : List Char) : Cursor where
  passed := []
  ahead := s
  offset := 0
  skew := 0
  offset_eq := bytes_nil.symm
  skew_lt := fun c _ => c.utf8Size_pos

def text (c : Cursor) : List Char :=
  c.passed.reverse ++ c.ahead

def pos (c : Cursor) : Nat :=
  c.offset + c.skew

def settle (passed ahead : List Char) (offset skew : Nat) (h : offset = bytes passed) : Cursor :=
  match ahead with
  | [] => ⟨passed, [], offset, skew, h, by simp⟩
  | c :: ahead =>
    if hc : skew < c.utf8Size then ⟨passed, c :: ahead, offset, skew, h, by simpa using hc⟩
    else
      settle (c :: passed) ahead (offset + c.utf8Size) (skew - c.utf8Size)
        (by rw [bytes_cons, h, Nat.add_comm])

def advance (c : Cursor) (n : Nat) : Cursor :=
  settle c.passed c.ahead c.offset (c.skew + n) c.offset_eq

def skip (c : Cursor) (n : Nat) : Cursor where
  passed := (c.ahead.take n).reverse ++ c.passed
  ahead := c.ahead.drop n
  offset := c.offset + bytes (c.ahead.take n)
  skew := 0
  offset_eq := by rw [bytes_append, bytes_reverse, c.offset_eq, Nat.add_comm]
  skew_lt := fun c _ => c.utf8Size_pos

def remaining (c : Cursor) : Except SliceError (List Char) :=
  if c.skew = 0 then .ok c.ahead
  else if c.ahead.isEmpty then .error .pastEnd
  else .error .insideCharacter

def peek (c : Cursor) : Except SliceError (Option Char) :=
  c.remaining.map List.head?

/-- Goes to a byte offset. A cursor that is already beyond it begins again at the top. -/
def moveTo (c : Cursor) (target : Nat) : Cursor :=
  if target < c.offset then settle [] c.text 0 target bytes_nil.symm
  else settle c.passed c.ahead c.offset (target - c.offset) c.offset_eq

def reach (c : Cursor) (target : Nat) : Except SliceError Cursor := do
  let moved := c.moveTo target
  let _ ← moved.remaining
  return moved

def atEnd (c : Cursor) : Bool :=
  c.ahead.isEmpty

theorem text_settle (passed ahead : List Char) (offset skew : Nat) (h : offset = bytes passed) :
    (settle passed ahead offset skew h).text = passed.reverse ++ ahead := by
  induction ahead generalizing passed offset skew with
  | nil => rfl
  | cons c ahead ih =>
    rw [settle]
    split
    · rfl
    · simp [ih]

theorem pos_settle (passed ahead : List Char) (offset skew : Nat) (h : offset = bytes passed) :
    (settle passed ahead offset skew h).pos = offset + skew := by
  induction ahead generalizing passed offset skew with
  | nil => rfl
  | cons c ahead ih =>
    rw [settle]
    split
    · rfl
    · rw [ih]; omega

@[simp] theorem text_start (s : List Char) : (start s).text = s := rfl

@[simp] theorem pos_start (s : List Char) : (start s).pos = 0 := rfl

@[simp] theorem text_advance (c : Cursor) (n : Nat) : (c.advance n).text = c.text :=
  text_settle ..

@[simp] theorem pos_advance (c : Cursor) (n : Nat) : (c.advance n).pos = c.pos + n := by
  rw [advance, pos_settle, pos, Nat.add_assoc]

@[simp] theorem text_moveTo (c : Cursor) (target : Nat) : (c.moveTo target).text = c.text := by
  rw [moveTo]
  split
  · exact text_settle ..
  · exact text_settle ..

@[simp] theorem pos_moveTo (c : Cursor) (target : Nat) : (c.moveTo target).pos = target := by
  rw [moveTo]
  split <;> rw [pos_settle] <;> omega

theorem cut_settle (passed ahead : List Char) (offset n : Nat) (h : offset = bytes passed) :
    cut passed n ahead = (settle passed ahead offset n h).remaining.map fun rest =>
      ((settle passed ahead offset n h).passed, rest) := by
  induction ahead generalizing passed offset n with
  | nil => cases n <;> rfl
  | cons c ahead ih =>
    have hc := Char.utf8Size_pos c
    rw [settle]
    split
    · rename_i hlt
      cases n with
      | zero => rfl
      | succ n => simp [cut, hlt, remaining, Except.map]
    · rename_i hlt
      obtain ⟨n, rfl⟩ : ∃ m, n = m + 1 := ⟨n - 1, by omega⟩
      rw [cut, if_neg hlt, ih]

theorem cut_eq_reach (c : Cursor) (target : Nat) :
    cut [] target c.text = (c.reach target).map fun d => (d.passed, d.ahead) := by
  have key : cut [] target c.text =
      (c.moveTo target).remaining.map fun rest => ((c.moveTo target).passed, rest) := by
    rw [moveTo]
    split
    · exact cut_settle [] c.text 0 target bytes_nil.symm
    · rename_i hle
      rw [← cut_settle, text]
      have h := cut_bytes_add [] c.passed.reverse c.ahead (target - c.offset)
      rw [bytes_reverse, ← c.offset_eq, List.reverse_reverse, List.append_nil] at h
      rw [← h, Nat.add_sub_of_le (Nat.le_of_not_lt hle)]
  rw [key, reach, remaining]
  split
  · rfl
  · split <;> rfl

theorem text_of_reach {c d : Cursor} {target : Nat} (h : c.reach target = .ok d) :
    d.text = c.text ∧ d.offset = target := by
  rw [reach, remaining] at h
  split at h
  · rename_i hs
    obtain rfl := Except.ok.inj h
    have hp := pos_moveTo c target
    rw [pos, hs, Nat.add_zero] at hp
    exact ⟨text_moveTo c target, hp⟩
  · split at h <;> cases h

/-- From a boundary that has been reached, the text can be cut at another one just when that one
can be reached, wherever the cursor is that goes there. -/
theorem cut_ahead_eq_reach {c d cur : Cursor} {start stop : Nat} (hd : c.reach start = .ok d)
    (hc : cur.text = c.text) (hle : start ≤ stop) :
    (cut [] (stop - start) d.ahead).map (fun (taken, rest) => (taken ++ d.passed, rest)) =
      (cur.reach stop).map fun e => (e.passed, e.ahead) := by
  obtain ⟨ht, ho⟩ := text_of_reach hd
  rw [← cut_eq_reach, hc, ← ht, text, ← cut_append, List.nil_append]
  have h := cut_bytes_add [] d.passed.reverse d.ahead (stop - start)
  rw [bytes_reverse, ← d.offset_eq, List.reverse_reverse, List.append_nil, ho,
    Nat.add_sub_of_le hle] at h
  exact h.symm

theorem slice_eq_reach (c : Cursor) (start stop : Nat) :
    slice c.text start stop = (c.reach start).bind fun d =>
      if stop < start then .error .reversed
      else (cut [] (stop - start) d.ahead).map fun (part, _) => part.reverse := by
  rw [slice, cut_eq_reach]
  cases c.reach start with
  | error e => rfl
  | ok d =>
    simp only [Except.map, Except.bind, bind]
    split
    · rfl
    · cases cut [] (stop - start) d.ahead <;> rfl

@[simp] theorem text_skip (c : Cursor) (n : Nat) : (c.skip n).text = c.text := by
  simp [skip, text]

theorem bytes_text (c : Cursor) : bytes c.text = c.offset + bytes c.ahead := by
  rw [text, bytes_append, bytes_reverse, c.offset_eq]

theorem atEnd_iff {c : Cursor} : c.atEnd ↔ bytes c.text ≤ c.pos := by
  rw [bytes_text, atEnd, pos, List.isEmpty_iff]
  cases h : c.ahead with
  | nil => simp
  | cons d r =>
    have := c.skew_lt d (by rw [h]; rfl)
    simp only [reduceCtorEq, bytes_cons, false_iff]
    omega

end Cursor
end Tony.Text
