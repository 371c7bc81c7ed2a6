import Tony.Text.Bytes

/-!
Lines and columns of byte offsets. A locator stands at some offset of its text and walks on from
there, so that a run of growing offsets costs one pass over the text.
-/

namespace Tony.Text

/-- A line and a column, both counted from 1; a column is one character wide. -/
structure Place where
  line : Nat := 1
  column : Nat := 1
  deriving DecidableEq, Repr

def Place.after (p : Place) (c : Char) : Place :=
  if c = '\n' then { line := p.line + 1 } else { p with column := p.column + 1 }

structure Locator where
  source : List Char
  ahead : List Char
  offset : Nat := 0
  place : Place := {}

namespace Locator

def start (source : List Char) : Locator where
  source := source
  ahead := source

/-- Walks on to byte `target`, or to the end if that comes first. There is no way to a byte
inside a character. -/
def walk? (source : List Char) (target : Nat) : List Char → Nat → Place → Option Locator
  | [], offset, place => some ⟨source, [], offset, place⟩
  | c :: ahead, offset, place =>
    if target ≤ offset then some ⟨source, c :: ahead, offset, place⟩
    else if target < offset + c.utf8Size then none
    else walk? source target ahead (offset + c.utf8Size) (place.after c)

/-- Goes to byte `target`. A locator that is already beyond it begins again at the top, and one
that finds no way stays where it is. -/
def moveTo (l : Locator) (target : Nat) : Locator :=
  let l := if target < l.offset then start l.source else l
  (walk? l.source target l.ahead l.offset l.place).getD l

def placesOnto (seen : List Place) (l : Locator) : List Nat → List Place
  | [] => seen.reverse
  | target :: targets =>
    let l := l.moveTo target
    placesOnto (l.place :: seen) l targets

def places (l : Locator) (targets : List Nat) : List Place :=
  placesOnto [] l targets

theorem placesOnto_eq (seen : List Place) (l : Locator) (targets : List Nat) :
    placesOnto seen l targets = seen.reverse ++ l.places targets := by
  have main : ∀ (ts : List Nat) (l : Locator) (ps qs : List Place),
      placesOnto (ps ++ qs) l ts = qs.reverse ++ placesOnto ps l ts := by
    intro ts
    induction ts with
    | nil => intro l ps qs; simp [placesOnto]
    | cons t ts ih =>
      intro l ps qs
      simp only [placesOnto]
      rw [← List.cons_append, ih]
  simpa [places] using main targets l [] seen

@[simp] theorem places_nil (l : Locator) : l.places [] = [] := rfl

@[simp] theorem places_cons (l : Locator) (target : Nat) (targets : List Nat) :
    l.places (target :: targets) =
      (l.moveTo target).place :: (l.moveTo target).places targets := by
  rw [places, placesOnto, placesOnto_eq]
  rfl

end Locator
end Tony.Text
