import Mathlib.Data.List.DropRight
import Tony.Proofs.Boundary
import Tony.Text.Locator

/-!
Where a locator comes to. Main statement: at a character boundary it gives the place after the text
before, which counts the line breaks there and the characters after the last of them, wherever it has
been sent from. Sent inside a character, it stays or is back at the top, and gives the place there.
-/

namespace Tony.Text

def lastLine (u : List Char) : List Char :=
  u.rtakeWhile fun c => c ≠ '\n'

def Place.endOf (u : List Char) : Place :=
  u.foldl Place.after {}

theorem lastLine_concat (u : List Char) (c : Char) :
    lastLine (u ++ [c]) = if c = '\n' then [] else lastLine u ++ [c] := by
  by_cases hc : c = '\n'
  · rw [if_pos hc, lastLine, List.rtakeWhile_concat_neg _ _ _ (by simpa using hc)]
  · rw [if_neg hc, lastLine, List.rtakeWhile_concat_pos _ _ _ (by simpa using hc), lastLine]

theorem lastLine_append {u w : List Char} (hu : ∀ c ∈ u.getLast?, c = '\n') (hw : '\n' ∉ w) :
    lastLine (u ++ w) = w := by
  induction w using List.reverseRecOn with
  | nil =>
    rw [List.append_nil, lastLine, List.rtakeWhile_eq_nil_iff]
    intro hne hlast
    exact absurd (hu _ (List.getLast?_eq_some_getLast hne)) (by simpa using hlast)
  | append_singleton w c ih =>
    have hc : c ≠ '\n' := fun h => hw (by simp [h])
    have hw' : '\n' ∉ w := fun h => hw (List.mem_append_left _ h)
    rw [← List.append_assoc, lastLine_concat, if_neg hc, ih hw']

theorem exists_append_lastLine (u : List Char) :
    ∃ p, u = p ++ lastLine u ∧ ∀ c ∈ p.getLast?, c = '\n' := by
  refine ⟨_, (List.rdropWhile_append_rtakeWhile ..).symm, fun c hc => ?_⟩
  obtain ⟨hne, rfl⟩ := List.mem_getLast?_eq_getLast hc
  simpa using List.rdropWhile_last_not _ _ hne

theorem Place.endOf_eq (u : List Char) :
    Place.endOf u = ⟨1 + u.count '\n', 1 + (lastLine u).length⟩ := by
  induction u using List.reverseRecOn with
  | nil => rfl
  | append_singleton u c ih =>
    rw [endOf, List.foldl_append, ← endOf, ih, lastLine_concat, List.count_append]
    by_cases hc : c = '\n'
    · simp [Place.after, hc, Nat.add_assoc]
    · simp [Place.after, hc, Nat.add_assoc]

namespace Locator

/-- A locator that has gone over `u`, with all the rest of its text ahead. -/
structure StandsAfter (l : Locator) (u : List Char) : Prop where
  source_eq : l.source = u ++ l.ahead
  offset_eq : l.offset = bytes u
  place_eq : l.place = Place.endOf u

theorem standsAfter_start (source : List Char) : (start source).StandsAfter [] :=
  ⟨rfl, rfl, rfl⟩

theorem walk?_bytes (source w a : List Char) (offset : Nat) (place : Place) :
    walk? source (offset + bytes w) (w ++ a) offset place =
      some ⟨source, a, offset + bytes w, w.foldl Place.after place⟩ := by
  induction w generalizing offset place with
  | nil =>
    cases a with
    | nil => rfl
    | cons c a => exact if_pos (Nat.le_refl _)
  | cons c w ih =>
    have hc := c.utf8Size_pos
    have hsize : offset + bytes (c :: w) = offset + c.utf8Size + bytes w := by
      rw [bytes_cons, Nat.add_assoc]
    rw [hsize, List.cons_append, walk?, if_neg (by omega), if_neg (by omega), ih, List.foldl_cons]

theorem StandsAfter.walk? {l : Locator} {u w a : List Char} (h : l.StandsAfter u)
    (ha : l.ahead = w ++ a) :
    ∃ next, Locator.walk? l.source (bytes (u ++ w)) l.ahead l.offset l.place = some next ∧
      next.source = l.source ∧ next.StandsAfter (u ++ w) := by
  refine ⟨⟨l.source, a, bytes (u ++ w), w.foldl Place.after l.place⟩, ?_, rfl, ?_, rfl, ?_⟩
  · rw [ha, h.offset_eq, bytes_append, walk?_bytes]
  · rw [List.append_assoc, ← ha]
    exact h.source_eq
  · rw [Place.endOf, List.foldl_append, ← Place.endOf, ← h.place_eq]

theorem StandsAfter.moveTo {l : Locator} {u p a : List Char} (h : l.StandsAfter u)
    (hsource : l.source = p ++ a) :
    (l.moveTo (bytes p)).source = l.source ∧ (l.moveTo (bytes p)).StandsAfter p := by
  rw [Locator.moveTo]
  split
  · obtain ⟨next, hwalk, hnext, hstands⟩ :=
      (standsAfter_start l.source).walk? (w := p) (a := a) hsource
    rw [List.nil_append] at hwalk hstands
    rw [hwalk]
    exact ⟨hnext, hstands⟩
  · rename_i hle
    rw [h.offset_eq, Nat.not_lt] at hle
    -- The boundary is not behind the locator, so the way to it begins with the text ahead.
    obtain ⟨w, rfl, ha⟩ := exists_append_of_bytes_le (h.source_eq.symm.trans hsource) hle
    obtain ⟨next, hwalk, hnext, hstands⟩ := h.walk? ha
    rw [hwalk]
    exact ⟨hnext, hstands⟩

theorem walk?_min (source : List Char) (target : Nat) (a : List Char) (offset : Nat)
    (place : Place) :
    walk? source (min target (offset + bytes a)) a offset place =
      walk? source target a offset place := by
  induction a generalizing offset place with
  | nil => rfl
  | cons c a ih =>
    have hc := c.utf8Size_pos
    have hsize : offset + bytes (c :: a) = offset + c.utf8Size + bytes a := by
      rw [bytes_cons, Nat.add_assoc]
    have hhere : min target (offset + c.utf8Size + bytes a) ≤ offset ↔ target ≤ offset := by omega
    have hinside : min target (offset + c.utf8Size + bytes a) < offset + c.utf8Size ↔
        target < offset + c.utf8Size := by omega
    rw [hsize, walk?, walk?, ih]
    simp only [hhere, hinside]

theorem walk?_eq_none {source w a : List Char} {c : Char} {target offset : Nat} {place : Place}
    (hlt : offset + bytes w < target) (hgt : target < offset + bytes w + c.utf8Size) :
    walk? source target (w ++ c :: a) offset place = none := by
  induction w generalizing offset place with
  | nil =>
    rw [bytes_nil, Nat.add_zero] at hlt hgt
    rw [List.nil_append, walk?, if_neg (Nat.not_le.2 hlt), if_pos hgt]
  | cons d w ih =>
    rw [bytes_cons, ← Nat.add_assoc] at hlt hgt
    rw [List.cons_append, walk?, if_neg (by omega), if_neg (by omega)]
    exact ih hlt hgt

theorem StandsAfter.moveTo_min {l : Locator} {u : List Char} (h : l.StandsAfter u) (target : Nat) :
    l.moveTo (min target (bytes l.source)) = l.moveTo target := by
  have hsource : bytes l.source = l.offset + bytes l.ahead := by
    rw [h.source_eq, bytes_append, h.offset_eq]
  have hback : min target (bytes l.source) < l.offset ↔ target < l.offset := by omega
  simp only [Locator.moveTo, hback]
  split
  · have hwalk := walk?_min l.source target l.source 0 {}
    rw [Nat.zero_add] at hwalk
    exact congrArg (Option.getD · _) hwalk
  · rw [hsource, walk?_min]

theorem StandsAfter.walk?_inside {l : Locator} {u : List Char} {target : Nat}
    (h : l.StandsAfter u) (hinside : InsideCharacter l.source target) (hle : l.offset ≤ target) :
    Locator.walk? l.source target l.ahead l.offset l.place = none := by
  have hboundary : IsBoundary l.source (bytes u) := ⟨u, l.ahead, h.source_eq, rfl⟩
  rw [h.offset_eq] at hle ⊢
  obtain ⟨v, c, b, hsource, hlt, hgt⟩ := id hinside
  have hbefore : bytes u ≤ bytes v := by
    by_contra hafter
    exact hboundary.not_insideCharacter ⟨v, c, b, hsource, by omega, by omega⟩
  obtain ⟨w, rfl, ha⟩ := exists_append_of_bytes_le (h.source_eq.symm.trans hsource) hbefore
  rw [bytes_append] at hlt hgt
  rw [ha]
  exact walk?_eq_none hlt hgt

theorem StandsAfter.moveTo_inside {l : Locator} {u : List Char} {target : Nat}
    (h : l.StandsAfter u) (hinside : InsideCharacter l.source target) :
    l.moveTo target = if target < l.offset then start l.source else l := by
  rw [Locator.moveTo]
  split
  · have hwalk := (standsAfter_start l.source).walk?_inside hinside (Nat.zero_le target)
    exact congrArg (Option.getD · (start l.source)) hwalk
  · rename_i hle
    rw [h.walk?_inside hinside (Nat.not_lt.1 hle)]
    rfl

theorem StandsAfter.exists_moveTo {l : Locator} {u : List Char} (h : l.StandsAfter u)
    (target : Nat) :
    (l.moveTo target).source = l.source ∧ ∃ v, (l.moveTo target).StandsAfter v := by
  rw [← h.moveTo_min]
  rcases isBoundary_or_insideCharacter (Nat.min_le_right target (bytes l.source)) with
    ⟨p, a, hsource, hp⟩ | hinside
  · rw [← hp]
    obtain ⟨hnext, hstands⟩ := h.moveTo hsource
    exact ⟨hnext, p, hstands⟩
  · rw [h.moveTo_inside hinside]
    split
    · exact ⟨rfl, [], standsAfter_start l.source⟩
    · exact ⟨rfl, u, h⟩

def sent (l : Locator) (targets : List Nat) : Locator :=
  targets.foldl moveTo l

theorem StandsAfter.exists_sent {l : Locator} {u : List Char} (h : l.StandsAfter u)
    (targets : List Nat) :
    (l.sent targets).source = l.source ∧ ∃ v, (l.sent targets).StandsAfter v := by
  induction targets generalizing l u with
  | nil => exact ⟨rfl, u, h⟩
  | cons target targets ih =>
    obtain ⟨hnext, v, hstands⟩ := h.exists_moveTo target
    obtain ⟨hlast, hlands⟩ := ih hstands
    exact ⟨hlast.trans hnext, hlands⟩

theorem getElem?_places (l : Locator) (targets : List Nat) (i : Nat) :
    (l.places targets)[i]? =
      targets[i]?.map fun target => ((l.sent (targets.take i)).moveTo target).place := by
  induction targets generalizing l i with
  | nil => rfl
  | cons target targets ih =>
    rw [places_cons]
    cases i with
    | zero => rfl
    | succ i => exact ih (l.moveTo target) i

/-- The place that is given for a byte is that of the text before the byte where the locator is then.
This is the byte itself, or the end of the text if that comes first. Only to a byte inside a character
there is no way: a locator that would have to go back for it is then at the top, and any other one is
where it was. -/
theorem places_sent (source : List Char) (before after : List Nat) (n : Nat) :
    let l := (start source).sent before
    let next := l.moveTo n
    let q := min n (bytes source)
    ((start source).places (before ++ n :: after))[before.length]? = some next.place ∧
      (∃ u, slice source 0 next.offset = .ok u ∧
        next.place = ⟨1 + u.count '\n', 1 + (lastLine u).length⟩) ∧
      (IsBoundary source q ∨ InsideCharacter source q) ∧
      (IsBoundary source q → next.offset = q) ∧
      (InsideCharacter source q → next.offset = if n < l.offset then 0 else l.offset) := by
  intro l next q
  obtain ⟨hsource, u, hu⟩ : l.source = source ∧ ∃ u, l.StandsAfter u :=
    (standsAfter_start source).exists_sent before
  have hclamp : l.moveTo q = next := by
    have hmin := hu.moveTo_min n
    rwa [hsource] at hmin
  refine ⟨?_, ?_, isBoundary_or_insideCharacter (Nat.min_le_right ..), ?_, ?_⟩
  · rw [getElem?_places, List.getElem?_append_right (Nat.le_refl _), Nat.sub_self, List.take_left]
    rfl
  · obtain ⟨hkept, v, hv⟩ := hu.exists_moveTo n
    refine ⟨v, slice_eq_ok_iff.2 ⟨[], next.ahead, ?_, rfl, hv.offset_eq.symm⟩, ?_⟩
    · rw [← hsource, ← hkept]
      exact hv.source_eq
    · rw [hv.place_eq, Place.endOf_eq]
  · rintro ⟨p, a, hp, hbytes⟩
    rw [← hclamp, ← hbytes, (hu.moveTo (hsource.trans hp)).2.offset_eq]
  · intro hinside
    have hstay : next = if q < l.offset then start source else l := by
      rw [← hclamp, hu.moveTo_inside (hsource ▸ hinside), hsource]
    have hq : q = n := by
      have hlt := hinside.lt_bytes
      omega
    rw [hstay, hq]
    split <;> rfl

theorem places_sent_accent :
    let l := (start ['é', '\n', 'ü']).sent [9]
    InsideCharacter ['é', '\n', 'ü'] 1 ∧ l.offset = 5 ∧ (l.moveTo 1).offset = 0 ∧
      ((start ['é', '\n', 'ü']).places [9, 1, 4])[1]? = some ⟨1, 1⟩ := by
  intro l
  have hinside : InsideCharacter ['é', '\n', 'ü'] 1 := ⟨[], 'é', ['\n', 'ü'], rfl, by decide⟩
  obtain ⟨hplace, ⟨u, hu, hcount⟩, -, -, hback⟩ := places_sent ['é', '\n', 'ü'] [9] [4] 1
  have hoffset := hback hinside
  rw [hoffset] at hu
  obtain rfl : [] = u := Except.ok.inj hu
  exact ⟨hinside, rfl, hoffset, hplace.trans (congrArg some hcount)⟩

end Locator
end Tony.Text
