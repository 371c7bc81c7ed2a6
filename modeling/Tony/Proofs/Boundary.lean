import Mathlib.Logic.Basic
import Tony.Text.Cursor

/-!
Character boundaries of a text, which are the byte offsets where it can be cut. A cursor whose place
is a boundary has no skew and is cut right there. All other offsets are inside a character or past
the end.
-/

namespace Tony.Text

def IsBoundary (s : List Char) (n : Nat) : Prop :=
  ∃ u v, s = u ++ v ∧ bytes u = n

def InsideCharacter (s : List Char) (n : Nat) : Prop :=
  ∃ u c v, s = u ++ c :: v ∧ bytes u < n ∧ n < bytes u + c.utf8Size

theorem isBoundary_bytes (u v : List Char) : IsBoundary (u ++ v) (bytes u) :=
  ⟨u, v, rfl, rfl⟩

theorem bytes_lt_append_cons (u : List Char) (c : Char) (v : List Char) :
    bytes u < bytes (u ++ c :: v) := by
  have hpos := Char.utf8Size_pos c
  rw [bytes_append, bytes_cons]
  omega

theorem cut_unique {u v p a : List Char} (h : u ++ v = p ++ a) (hbytes : bytes u = bytes p) :
    u = p ∧ v = a := by
  rcases List.append_eq_append_iff.1 h with ⟨w, rfl, rfl⟩ | ⟨w, rfl, rfl⟩
  all_goals
    rw [bytes_append] at hbytes
    obtain rfl := bytes_eq_zero_iff.1 (show bytes w = 0 by omega)
    simp

theorem exists_append_of_bytes_le {u a v b : List Char} (h : u ++ a = v ++ b)
    (hle : bytes u ≤ bytes v) : ∃ w, v = u ++ w ∧ a = w ++ b := by
  rcases List.append_eq_append_iff.1 h with hw | ⟨w, rfl, rfl⟩
  · exact hw
  · rw [bytes_append] at hle
    obtain rfl := bytes_eq_zero_iff.1 (show bytes w = 0 by omega)
    exact ⟨[], by simp⟩

theorem InsideCharacter.lt_bytes {s : List Char} {n : Nat} (h : InsideCharacter s n) :
    n < bytes s := by
  obtain ⟨u, c, v, rfl, -, hlt⟩ := h
  rw [bytes_append, bytes_cons]
  omega

theorem IsBoundary.not_insideCharacter {s : List Char} {n : Nat} (h : IsBoundary s n) :
    ¬ InsideCharacter s n := by
  obtain ⟨u, v, rfl, rfl⟩ := h
  rintro ⟨a, c, b, htext, hlt, hgt⟩
  rcases List.append_eq_append_iff.1 htext with ⟨w, rfl, -⟩ | ⟨w, rfl, hw⟩
  · rw [bytes_append] at hlt
    omega
  · cases w with
    | nil => simp at hlt
    | cons d w =>
      obtain ⟨rfl, -⟩ := List.cons.inj hw
      rw [bytes_append, bytes_cons] at hgt
      omega

namespace Cursor

theorem cut_of_pos {c : Cursor} {u v : List Char} (ht : c.text = u ++ v) (hp : c.pos = bytes u) :
    c.skew = 0 ∧ c.passed.reverse = u ∧ c.ahead = v := by
  have hoff : c.offset = bytes c.passed.reverse := by rw [bytes_reverse, c.offset_eq]
  rw [pos, hoff] at hp
  rcases List.append_eq_append_iff.1 ht with ⟨w, hu, ha⟩ | ⟨w, hu, hv⟩
  · have hw : c.skew = bytes w := by
      rw [hu, bytes_append] at hp
      omega
    cases w with
    | nil => exact ⟨hw, by rw [hu, List.append_nil], ha⟩
    | cons d w =>
      -- The place would be beyond the whole character `d`, where the cursor would not be cut.
      have hlt := c.skew_lt d (by rw [ha]; rfl)
      rw [bytes_cons] at hw
      omega
  · have hw : bytes w = 0 ∧ c.skew = 0 := by
      rw [hu, bytes_append] at hp
      omega
    obtain rfl := bytes_eq_zero_iff.1 hw.1
    exact ⟨hw.2, by rw [hu, List.append_nil], hv.symm⟩

theorem skew_eq_zero {c : Cursor} (h : IsBoundary c.text c.pos) : c.skew = 0 := by
  obtain ⟨u, v, ht, hp⟩ := h
  exact (cut_of_pos ht hp.symm).1

theorem isBoundary_iff {c : Cursor} : IsBoundary c.text c.pos ↔ c.skew = 0 := by
  refine ⟨skew_eq_zero, fun h => ⟨c.passed.reverse, c.ahead, rfl, ?_⟩⟩
  rw [bytes_reverse, pos, h, c.offset_eq, Nat.add_zero]

theorem remaining_error_iff {c : Cursor} : (∃ e, c.remaining = .error e) ↔ c.skew ≠ 0 := by
  rw [remaining]
  split
  · rename_i h
    refine iff_of_false ?_ fun hskew => hskew h
    rintro ⟨e, he⟩
    cases he
  · rename_i h
    refine iff_of_true ?_ h
    split <;> exact ⟨_, rfl⟩

theorem lt_pos_iff {c : Cursor} : bytes c.text < c.pos ↔ c.skew ≠ 0 ∧ c.ahead = [] := by
  constructor
  · intro h
    have hend : c.ahead = [] := List.isEmpty_iff.1 (atEnd_iff.2 (Nat.le_of_lt h))
    rw [bytes_text, hend, pos, bytes_nil] at h
    exact ⟨by omega, hend⟩
  · rintro ⟨hskew, hend⟩
    rw [bytes_text, hend, pos, bytes_nil]
    omega

theorem insideCharacter_iff {c : Cursor} :
    InsideCharacter c.text c.pos ↔ c.skew ≠ 0 ∧ c.ahead ≠ [] := by
  constructor
  · intro h
    refine ⟨fun hskew => (isBoundary_iff.2 hskew).not_insideCharacter h, fun hend => ?_⟩
    have hle : bytes c.text ≤ c.pos := atEnd_iff.1 (List.isEmpty_iff.2 hend)
    exact absurd h.lt_bytes (Nat.not_lt.2 hle)
  · rintro ⟨hskew, hahead⟩
    obtain ⟨d, v, hd⟩ := List.exists_cons_of_ne_nil hahead
    have hlt := c.skew_lt d (by rw [hd]; rfl)
    refine ⟨c.passed.reverse, d, v, by rw [text, hd], ?_, ?_⟩
    · rw [bytes_reverse, pos, c.offset_eq]
      omega
    · rw [bytes_reverse, pos, c.offset_eq]
      omega

end Cursor

theorem isBoundary_or (s : List Char) (n : Nat) :
    IsBoundary s n ↔ ¬ (bytes s < n ∨ InsideCharacter s n) := by
  have htext := Cursor.text_moveTo (Cursor.start s) n
  have hpos := Cursor.pos_moveTo (Cursor.start s) n
  generalize (Cursor.start s).moveTo n = c at htext hpos
  obtain rfl : c.text = s := htext
  obtain rfl := hpos
  rw [Cursor.isBoundary_iff, Cursor.lt_pos_iff, Cursor.insideCharacter_iff, ← and_or_left,
    ← not_iff_not, not_not]
  exact (and_iff_left (em _)).symm

theorem isBoundary_or_insideCharacter {s : List Char} {n : Nat} (h : n ≤ bytes s) :
    IsBoundary s n ∨ InsideCharacter s n := by
  rw [isBoundary_or, or_iff_right (Nat.not_lt.2 h)]
  exact (em _).symm

theorem exists_slice_iff {s : List Char} {start stop : Nat} (hle : start ≤ stop) :
    (∃ t, slice s start stop = .ok t) ↔ IsBoundary s start ∧ IsBoundary s stop := by
  constructor
  · rintro ⟨t, ht⟩
    obtain ⟨u, v, rfl, rfl, rfl⟩ := slice_eq_ok_iff.1 ht
    refine ⟨isBoundary_bytes u _, ?_⟩
    rw [← List.append_assoc]
    exact isBoundary_bytes (u ++ t) v
  · rintro ⟨⟨u, v, rfl, rfl⟩, p, a, hcut, rfl⟩
    obtain ⟨w, rfl, rfl⟩ := exists_append_of_bytes_le hcut hle
    exact ⟨w, slice_eq_ok_iff.2 ⟨u, a, rfl, rfl, rfl⟩⟩

end Tony.Text
