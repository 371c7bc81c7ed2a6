import Tony.Proofs.LineMark
import Tony.Proofs.Places

/-!
Anchors as they are found from bytes. To see whether a line has been indented so far, one goes back
over the bytes of spaces and tabs and looks at the text before them. Main statement: from a character
boundary this walk never ends inside a character, and it finds that there are only spaces and tabs
before the boundary on its line just when that is so.
-/

namespace Tony

namespace Text

open Pattern (isIndent isIndent_iff)

def utf8 (s : List Char) : List UInt8 :=
  s.flatMap String.utf8EncodeChar

def isIndentByte (b : UInt8) : Bool :=
  b = 0x20 || b = 0x09

/-- The bytes of spaces and tabs that a text ends with, counted from its end. -/
def indentBytes (s : List Char) : Nat :=
  ((utf8 s).reverse.takeWhile isIndentByte).length

theorem utf8_concat (s : List Char) (c : Char) :
    utf8 (s ++ [c]) = utf8 s ++ String.utf8EncodeChar c := by
  simp [utf8]

theorem length_utf8 (s : List Char) : (utf8 s).length = bytes s := by
  induction s with
  | nil => rfl
  | cons c s ih =>
    rw [utf8, List.flatMap_cons, List.length_append, String.length_utf8EncodeChar, bytes_cons, ← ih]
    rfl

theorem le_of_mem_utf8EncodeChar {c : Char} (hc : 0x80 ≤ c.toNat) :
    ∀ b ∈ String.utf8EncodeChar c, 0x80 ≤ b.toNat := by
  have hlong : ¬ c.toNat ≤ 0x7f := by omega
  simp only [String.utf8EncodeChar, Char.toNat_val, if_neg hlong]
  -- Two, three or four bytes, each made of some bits of the code point and a mark above them.
  split_ifs <;>
    simp only [List.forall_mem_cons, List.not_mem_nil, false_imp_iff, implies_true, and_true,
      UInt8.toNat_ofNat'] <;>
    omega

theorem utf8EncodeChar_of_ascii {c : Char} (hc : c.toNat < 0x80) :
    String.utf8EncodeChar c = [UInt8.ofNat c.toNat] := by
  rw [String.utf8EncodeChar]
  exact if_pos (Nat.le_of_lt_succ hc)

theorem isIndentByte_iff {b : UInt8} : isIndentByte b ↔ b.toNat = 0x20 ∨ b.toNat = 0x09 := by
  simp [isIndentByte, ← UInt8.toNat_inj]

theorem isIndentByte_eq_of_mem {c : Char} {b : UInt8} (hb : b ∈ String.utf8EncodeChar c) :
    isIndentByte b = isIndent c := by
  have hchar : isIndent c ↔ c.toNat = 0x20 ∨ c.toNat = 0x09 := by
    rw [isIndent_iff, ← Char.toNat_inj, ← Char.toNat_inj]
    rfl
  rw [Bool.eq_iff_iff, isIndentByte_iff, hchar]
  by_cases hc : c.toNat < 0x80
  · rw [utf8EncodeChar_of_ascii hc, List.mem_singleton] at hb
    have hbyte : b.toNat = c.toNat := by
      rw [hb, UInt8.toNat_ofNat']
      omega
    rw [hbyte]
  · have hbyte := le_of_mem_utf8EncodeChar (Nat.le_of_not_lt hc) b hb
    omega

theorem indentBytes_concat (s : List Char) (c : Char) :
    indentBytes (s ++ [c]) = if isIndent c then c.utf8Size + indentBytes s else 0 := by
  rw [indentBytes, utf8_concat, List.reverse_append]
  split
  · rename_i hc
    have hall : ∀ b ∈ (String.utf8EncodeChar c).reverse, isIndentByte b := fun b hb =>
      (isIndentByte_eq_of_mem (List.mem_reverse.1 hb)).trans hc
    rw [List.takeWhile_append_of_pos hall, List.length_append, List.length_reverse,
      String.length_utf8EncodeChar, indentBytes]
  · rename_i hc
    obtain ⟨b, r, hr⟩ := List.exists_cons_of_ne_nil
      (List.reverse_ne_nil_iff.2 (String.utf8EncodeChar_ne_nil (c := c)))
    have hb : ¬ isIndentByte b := by
      rwa [isIndentByte_eq_of_mem (c := c) (List.mem_reverse.1 (hr ▸ List.mem_cons_self))]
    rw [hr, List.cons_append, List.takeWhile_cons_of_neg hb, List.length_nil]

theorem indentBytes_eq (s : List Char) : indentBytes s = bytes (s.rtakeWhile isIndent) := by
  induction s using List.reverseRecOn with
  | nil => rfl
  | append_singleton s c ih =>
    rw [indentBytes_concat, List.rtakeWhile_concat]
    split
    · rw [ih, bytes_append, bytes_cons, bytes_nil, Nat.add_zero, Nat.add_comm]
    · rfl

theorem slice_indentBytes (s : List Char) :
    slice s 0 ((utf8 s).length - indentBytes s) = .ok (s.rdropWhile isIndent) := by
  have hs : s = s.rdropWhile isIndent ++ s.rtakeWhile isIndent :=
    (List.rdropWhile_append_rtakeWhile ..).symm
  have hbytes := congrArg bytes hs
  rw [bytes_append] at hbytes
  refine slice_eq_ok_iff.2 ⟨[], s.rtakeWhile isIndent, hs, rfl, ?_⟩
  rw [length_utf8, indentBytes_eq, List.nil_append]
  omega

end Text

namespace Anchor

open Text (IsBoundary SliceError bytes slice slice_eq_ok_iff exists_slice_iff lastLine utf8
  indentBytes)
open Pattern (isIndent)

/-- Whether an anchor holds at a byte of a text, as it is found from the bytes. The text before is cut
out, whatever the anchor asks of it. For an indented line the bytes of spaces and tabs at its end are
counted and cut off as well. -/
def holdsAt (a : Anchor) (s : List Char) (n : Nat) : Except SliceError Bool := do
  let before ← slice s 0 n
  match a with
  | anywhere => return true
  | lineStart => return before.getLast?.all (· = '\n')
  | afterIndent =>
    let line ← slice before 0 ((utf8 before).length - indentBytes before)
    return line.getLast?.all (· = '\n')
  | wordStart => return !before.getLast?.any fun c => Unicode.isAlphanumeric c || c = '_'

theorem atLineStart_reverse (u : List Char) :
    atLineStart u.reverse = u.getLast?.all (· = '\n') := by
  rw [← List.head?_reverse]
  cases u.reverse with
  | nil => rfl
  | cons c r => rfl

theorem holdsAt_bytes (a : Anchor) (u v : List Char) :
    a.holdsAt (u ++ v) (bytes u) = .ok (a.holds u.reverse) := by
  have hbefore : slice (u ++ v) 0 (bytes u) = .ok u := slice_eq_ok_iff.2 ⟨[], v, rfl, rfl, rfl⟩
  rw [holdsAt, hbefore]
  cases a with
  | anywhere => rfl
  | lineStart => exact congrArg Except.ok (atLineStart_reverse u).symm
  | afterIndent =>
    have hline : atLineStart (u.reverse.dropWhile isIndent) =
        (u.rdropWhile isIndent).getLast?.all (· = '\n') := by
      rw [← atLineStart_reverse, List.rdropWhile, List.reverse_reverse]
    show (slice u 0 _ >>= _) = _
    rw [Text.slice_indentBytes, holds, hline]
    rfl
  | wordStart =>
    rw [holds, List.head?_reverse]
    rfl

theorem exists_holdsAt_iff {a : Anchor} {s : List Char} {n : Nat} :
    (∃ b, a.holdsAt s n = .ok b) ↔ IsBoundary s n := by
  constructor
  · rintro ⟨b, hb⟩
    rcases hs : slice s 0 n with e | u
    · rw [holdsAt, hs] at hb
      cases hb
    · exact ((exists_slice_iff (Nat.zero_le n)).1 ⟨u, hs⟩).2
  · rintro ⟨u, v, rfl, rfl⟩
    exact ⟨_, a.holdsAt_bytes u v⟩

theorem holdsAt_pos {l : Lexer} (a : Anchor) (h : IsBoundary l.text l.pos) :
    a.holdsAt l.text l.pos = .ok (a.holds l.cursor.passed) := by
  obtain ⟨u, v, htext, hpos⟩ := h
  obtain ⟨-, hu, -⟩ := Text.Cursor.cut_of_pos htext hpos.symm
  rw [htext, ← hpos, holdsAt_bytes, ← hu, List.reverse_reverse]

theorem holds_afterIndent_reverse_iff {u : List Char} :
    afterIndent.holds u.reverse ↔ ∀ c ∈ lastLine u, c = ' ' ∨ c = '\t' := by
  rw [holds_afterIndent_iff, List.reverse_reverse]
  constructor
  · rintro ⟨p, w, rfl, hline, hw⟩
    have hfeed : '\n' ∉ w := fun h => absurd (hw _ h) (by decide)
    rwa [Text.lastLine_append hline hfeed]
  · intro h
    obtain ⟨p, hu, hline⟩ := Text.exists_append_lastLine u
    exact ⟨p, lastLine u, hu, hline, h⟩

/-- At a character boundary the walk back over the bytes of an indentation cuts the text where it can
be cut, and finds what the anchor of a lexer at this place says. It finds that the line is indented so
far if and only if it has nothing but spaces and tabs up to there. More spaces and tabs make no
difference to this, and where a line begins it is so. -/
theorem holdsAt_afterIndent {s : List Char} {n : Nat} (hn : IsBoundary s n) :
    (∃ u b, slice s 0 n = .ok u ∧ afterIndent.holdsAt s n = .ok b ∧
      (b ↔ ∀ c ∈ lastLine u, c = ' ' ∨ c = '\t')) ∧
    (∀ l : Lexer, l.text = s → l.pos = n →
      ∀ a : Anchor, a.holdsAt s n = .ok (a.holds l.cursor.passed)) ∧
    (∀ m w, slice s n m = .ok w → (∀ c ∈ w, c = ' ' ∨ c = '\t') →
      afterIndent.holdsAt s m = afterIndent.holdsAt s n) ∧
    (lineStart.holdsAt s n = .ok true → afterIndent.holdsAt s n = .ok true) := by
  refine ⟨?_, ?_, ?_, ?_⟩
  · obtain ⟨u, v, rfl, rfl⟩ := hn
    exact ⟨u, _, slice_eq_ok_iff.2 ⟨[], v, rfl, rfl, rfl⟩, holdsAt_bytes _ u v,
      holds_afterIndent_reverse_iff⟩
  · rintro l rfl rfl a
    exact holdsAt_pos a hn
  · intro m w hslice hw
    obtain ⟨u, v, rfl, rfl, rfl⟩ := slice_eq_ok_iff.1 hslice
    rw [holdsAt_bytes, ← List.append_assoc, holdsAt_bytes, holds_afterIndent_append hw]
  · intro h
    obtain ⟨u, v, rfl, rfl⟩ := hn
    rw [holdsAt_bytes] at h ⊢
    exact congrArg Except.ok (holds_afterIndent_of_lineStart (Except.ok.inj h))

theorem holdsAt_afterIndent_circumflex :
    let s := ['ĉ', ' ', '\n', '\t', ' ', '<', '<', ':']
    let l := (Lexer.ofText s).advance 3
    (IsBoundary s 3 ∧ afterIndent.holdsAt s 3 = .ok false) ∧
      (l.text = s ∧ l.pos = 3 ∧ afterIndent.holds l.cursor.passed = false) ∧
      IsBoundary s 4 ∧ lineStart.holdsAt s 4 = .ok true ∧ slice s 4 6 = .ok ['\t', ' '] ∧
      afterIndent.holdsAt s 6 = .ok true := by
  intro s l
  have hwithin : IsBoundary s 3 := ⟨['ĉ', ' '], ['\n', '\t', ' ', '<', '<', ':'], rfl, rfl⟩
  have hbegin : IsBoundary s 4 := ⟨['ĉ', ' ', '\n'], ['\t', ' ', '<', '<', ':'], rfl, rfl⟩
  have htext : l.text = s := rfl
  have hpos : l.pos = 3 := rfl
  have hline : lineStart.holdsAt s 4 = .ok true := rfl
  have hindent : slice s 4 6 = .ok ['\t', ' '] := rfl
  obtain ⟨⟨u, b, hu, hb, hblank⟩, hlexer, -⟩ := holdsAt_afterIndent hwithin
  obtain rfl : ['ĉ', ' '] = u := Except.ok.inj hu
  have hlast : lastLine ['ĉ', ' '] = ['ĉ', ' '] := List.rtakeWhile_eq_self_iff.2 (by simp)
  obtain rfl : b = false := by
    refine Bool.eq_false_iff.2 fun h => ?_
    have hcircumflex := hblank.1 h 'ĉ' (by simp [hlast])
    exact absurd hcircumflex (by decide)
  have hlater := Except.ok.inj ((hlexer l htext hpos .afterIndent).symm.trans hb)
  obtain ⟨-, -, hmore, hstart⟩ := holdsAt_afterIndent hbegin
  have hafter := (hmore 6 _ hindent (by simp)).trans (hstart hline)
  exact ⟨⟨hwithin, hb⟩, ⟨htext, hpos, hlater⟩, hbegin, hline, hindent, hafter⟩

end Anchor
end Tony
