import Tony.Mode
import Tony.Rule.Anchor
import Tony.Token.Basic

/-!
Rules of reading. A rule is tried at a place in the text and either refuses or gives the lexemes
that it takes there. The lexemes of a rule always tile what it takes: nothing between them is
left out.
-/

namespace Tony

structure Rule where
  parts : List (Kind × Pattern)
  anchor : Anchor := .anywhere
  /-- The test for the character right after, `none` at the end of the text. -/
  follow : Option Char → Bool := fun _ => true
  change : ModeChange := .stay

structure Reading where
  lexemes : List Lexeme
  change : ModeChange
  deriving DecidableEq, Repr

namespace Reading

def text (r : Reading) : List Char :=
  r.lexemes.flatMap Lexeme.text

/-- A reading gets somewhere if it takes a character or leaves a mode. -/
def isProgress (depth : Nat) (r : Reading) : Bool :=
  !r.text.isEmpty || (r.change = .pop && 1 < depth)

end Reading

namespace Rule

def lexemes? : List (Kind × Pattern) → List Char → Option (List Lexeme × List Char)
  | [], s => some ([], s)
  | (kind, pattern) :: parts, s =>
    (pattern s).bind fun n =>
      (lexemes? parts (s.drop n)).map fun (lexemes, rest) => (⟨kind, s.take n⟩ :: lexemes, rest)

/-- Tries a rule between the text `passed`, the latest character first, and the text `ahead`. The
character after is looked at only when all patterns have taken what they can. -/
def read? (rule : Rule) (depth : Nat) (passed ahead : List Char) : Option Reading :=
  if rule.anchor.holds passed then
    (lexemes? rule.parts ahead).bind fun (lexemes, rest) =>
      let reading := ⟨lexemes, rule.change⟩
      if rule.follow rest.head? && reading.isProgress depth then some reading else none
  else none

theorem flatMap_text_of_lexemes? {parts : List (Kind × Pattern)} {s rest : List Char}
    {ls : List Lexeme} (h : lexemes? parts s = some (ls, rest)) :
    ls.flatMap Lexeme.text ++ rest = s := by
  induction parts generalizing s ls with
  | nil =>
    obtain ⟨rfl, rfl⟩ := by simpa [lexemes?] using h
    rfl
  | cons part parts ih =>
    obtain ⟨kind, pattern⟩ := part
    obtain ⟨n, -, h⟩ := Option.bind_eq_some_iff.1 h
    obtain ⟨⟨ms, t⟩, hm, he⟩ := Option.map_eq_some_iff.1 h
    obtain ⟨rfl, rfl⟩ := Prod.mk.inj he
    rw [List.flatMap_cons, List.append_assoc, ih hm, List.take_append_drop]

theorem text_append_of_read? {rule : Rule} {depth : Nat} {passed ahead : List Char} {r : Reading}
    (h : rule.read? depth passed ahead = some r) :
    (∃ rest, r.text ++ rest = ahead) ∧ r.isProgress depth := by
  unfold read? at h
  split at h
  · obtain ⟨⟨ls, rest⟩, hl, h⟩ := Option.bind_eq_some_iff.1 h
    dsimp only at h
    split at h
    · rename_i hp
      obtain rfl := Option.some.inj h
      exact ⟨⟨rest, flatMap_text_of_lexemes? hl⟩, (Bool.and_eq_true_iff.1 hp).2⟩
    · cases h
  · cases h

end Rule
end Tony
