import Tony.Lexer.Record
import Tony.Rule.Table
import Tony.Text.Cursor

/-!
Lexers and the rounds that they read in. A round applies the first rule of the top mode that takes
something, and where there is none it takes one character as plain text. Every round makes the text
ahead shorter or leaves a mode, so there are only finitely many.
-/

namespace Tony

open Text (Cursor SliceError)

structure Lexer where
  cursor : Cursor
  modes : ModeStack := {}
  /-- Tokens that have been read and not yet been handed out. -/
  pending : List Token := []

namespace Lexer

def ofText (source : List Char) : Lexer where
  cursor := .start source

def text (l : Lexer) : List Char :=
  l.cursor.text

def mode (l : Lexer) : Mode :=
  l.modes.top

def depth (l : Lexer) : Nat :=
  l.modes.depth

def pos (l : Lexer) : Nat :=
  l.cursor.pos

def atEnd (l : Lexer) : Bool :=
  l.cursor.atEnd

def remaining (l : Lexer) : Except SliceError (List Char) :=
  l.cursor.remaining

def peek (l : Lexer) : Except SliceError (Option Char) :=
  l.cursor.peek

def advance (l : Lexer) (n : Nat) : Lexer :=
  { l with cursor := l.cursor.advance n }

def reading? (l : Lexer) : Option Reading :=
  l.mode.rules.findSome? fun rule => rule.read? l.depth l.cursor.passed l.cursor.ahead

structure Round where
  lexer : Lexer
  record : Option Record

/-- Takes a reading: its tokens become pending, and only then the mode changes. -/
def take (l : Lexer) (r : Reading) : Round :=
  let cursor := l.cursor.skip r.text.length
  { lexer :=
      { cursor
        modes := l.modes.change r.change
        pending := l.pending ++ Lexeme.layout l.cursor.offset r.lexemes }
    record := Record.ofChange? l.modes r.change cursor.offset }

def takePlain (l : Lexer) (c : Char) : Round :=
  { l.take ⟨[⟨.plainText, [c]⟩], .stay⟩ with
    record := some (.unmatched l.mode c l.cursor.offset) }

/-- The next round. There is none at the end, and no way to read inside a character. -/
def round (l : Lexer) : Except SliceError (Option Round) :=
  match l.cursor.ahead with
  | [] => .ok none
  | c :: _ =>
    if l.cursor.skew = 0 then
      .ok (some (match l.reading? with
        | some reading => l.take reading
        | none => l.takePlain c))
    else .error .insideCharacter

/-- A bound for the number of rounds to come. A round that takes a character may add a mode, and
one that takes none removes one. -/
def roundBound (l : Lexer) : Nat :=
  2 * l.cursor.ahead.length + l.depth

theorem roundBound_take_lt {l : Lexer} {r : Reading} (ha : l.cursor.ahead ≠ [])
    (hr : r.isProgress l.depth) : (l.take r).lexer.roundBound < l.roundBound := by
  have hlen := List.length_pos_iff.2 ha
  have hd := l.modes.depth_change_le r.change
  simp only [roundBound, take, Cursor.skip, List.length_drop, depth] at *
  cases ht : r.text with
  | cons c s => simp only [List.length_cons]; omega
  | nil =>
    simp only [Reading.isProgress, ht, List.isEmpty_nil, Bool.not_true, Bool.false_or,
      Bool.and_eq_true, decide_eq_true_eq] at hr
    rw [hr.1, ModeStack.change, ModeStack.depth_pop, List.length_nil]
    omega

theorem roundBound_takePlain_lt {l : Lexer} (c : Char) (ha : l.cursor.ahead ≠ []) :
    (l.takePlain c).lexer.roundBound < l.roundBound :=
  roundBound_take_lt ha (by simp [Reading.isProgress, Reading.text])

theorem isProgress_of_reading? {l : Lexer} {r : Reading} (h : l.reading? = some r) :
    r.isProgress l.depth := by
  obtain ⟨rule, -, hr⟩ := List.exists_of_findSome?_eq_some h
  exact (Rule.text_append_of_read? hr).2

theorem roundBound_round_lt {l : Lexer} {r : Round} (h : l.round = .ok (some r)) :
    r.lexer.roundBound < l.roundBound := by
  unfold round at h
  split at h
  · cases h
  · rename_i c s hs
    have ha : l.cursor.ahead ≠ [] := by rw [hs]; exact List.cons_ne_nil c s
    split at h
    · obtain rfl := Option.some.inj (Except.ok.inj h)
      split
      · rename_i hr
        exact roundBound_take_lt ha (isProgress_of_reading? hr)
      · exact roundBound_takePlain_lt c ha
    · cases h

end Lexer
end Tony
