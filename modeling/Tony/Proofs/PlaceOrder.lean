import Mathlib.Data.Prod.Lex
import Tony.Proofs.Transcript

/-!
The order of places. Main statement: of two character boundaries the later one has the later place,
by the line first and then by the column, whenever the two are asked for. So a place belongs to one
boundary, and no two lines of a listing begin with the same place.
-/

namespace Tony

open Text (IsBoundary Locator Place bytes field field_append slice_eq_ok_iff)

namespace Text

def Place.key (p : Place) : Lex (Nat × Nat) :=
  toLex (p.line, p.column)

theorem Place.key_lt_key_after (p : Place) (c : Char) : p.key < (p.after c).key := by
  rw [key, key, Prod.Lex.toLex_lt_toLex, after]
  split
  · exact .inl (Nat.lt_succ_self p.line)
  · exact .inr ⟨rfl, Nat.lt_succ_self p.column⟩

theorem Place.key_le_key_foldl (p : Place) (w : List Char) : p.key ≤ (w.foldl after p).key := by
  induction w generalizing p with
  | nil => exact le_rfl
  | cons c w ih => exact (p.key_lt_key_after c).le.trans (ih (p.after c))

theorem Place.key_endOf_lt {u w : List Char} (hw : w ≠ []) :
    (endOf u).key < (endOf (u ++ w)).key := by
  obtain ⟨c, w, rfl⟩ := List.exists_cons_of_ne_nil hw
  rw [endOf, endOf, List.foldl_append, List.foldl_cons]
  exact (key_lt_key_after _ c).trans_le (key_le_key_foldl _ w)

namespace Locator

theorem getElem?_places_of_boundary {source u a : List Char} {targets : List Nat} {i : Nat}
    (hsource : source = u ++ a) (h : targets[i]? = some (bytes u)) :
    ((start source).places targets)[i]? = some (Place.endOf u) := by
  obtain ⟨hkept, v, hv⟩ := (standsAfter_start source).exists_sent (targets.take i)
  rw [getElem?_places, h, Option.map_some, (hv.moveTo (hkept.trans hsource)).2.place_eq]

theorem key_lt_key_places {source : List Char} {xs ys : List Nat} {i j p q : Nat}
    (hp : IsBoundary source p) (hq : IsBoundary source q) (hlt : p < q) (hi : xs[i]? = some p)
    (hj : ys[j]? = some q) :
    ∃ a b, ((start source).places xs)[i]? = some a ∧ ((start source).places ys)[j]? = some b ∧
      a.key < b.key := by
  obtain ⟨u, a, hu, rfl⟩ := hp
  obtain ⟨v, b, hv, rfl⟩ := hq
  obtain ⟨w, rfl, -⟩ := exists_append_of_bytes_le (hu.symm.trans hv) (Nat.le_of_lt hlt)
  have hw : w ≠ [] := by
    rintro rfl
    rw [List.append_nil] at hlt
    exact Nat.lt_irrefl _ hlt
  exact ⟨_, _, getElem?_places_of_boundary hu hi, getElem?_places_of_boundary hv hj,
    Place.key_endOf_lt hw⟩

theorem getElem?_places_ne {source : List Char} {xs ys : List Nat} {i j p q : Nat}
    (hp : IsBoundary source p) (hq : IsBoundary source q) (hne : p ≠ q) (hi : xs[i]? = some p)
    (hj : ys[j]? = some q) :
    ((start source).places xs)[i]? ≠ ((start source).places ys)[j]? := by
  intro heq
  rcases Nat.lt_or_gt_of_ne hne with hlt | hlt
  · obtain ⟨a, b, ha, hb, hkey⟩ := key_lt_key_places hp hq hlt hi hj
    rw [ha, hb, Option.some_inj] at heq
    exact hkey.ne (congrArg Place.key heq)
  · obtain ⟨b, a, hb, ha, hkey⟩ := key_lt_key_places hq hp hlt hj hi
    rw [ha, hb, Option.some_inj] at heq
    exact hkey.ne' (congrArg Place.key heq)

theorem places_eq_map {source : List Char} {targets : List Nat}
    (h : ∀ n ∈ targets, IsBoundary source n) :
    (start source).places targets = targets.map fun n => ((start source).moveTo n).place := by
  refine List.ext_getElem? fun i => ?_
  rw [List.getElem?_map]
  cases hn : targets[i]? with
  | none => rw [getElem?_places, hn, Option.map_none, Option.map_none]
  | some n =>
    obtain ⟨u, a, hsource, rfl⟩ := h n (List.mem_of_getElem? hn)
    rw [getElem?_places_of_boundary hsource hn, Option.map_some,
      ((standsAfter_start source).moveTo hsource).2.place_eq]

end Locator
end Text

theorem toDigits_injective : Function.Injective (Nat.toDigits 10) :=
  Function.LeftInverse.injective (g := fun ds => Nat.ofDigitChars 10 ds 0)
    fun _ => Nat.ofDigitChars_ten_toDigits

theorem Text.Place.digits_injective : Function.Injective Place.digits := by
  rintro ⟨line, column⟩ ⟨line', column'⟩ h
  have hfields : ∀ r : Place,
      field ':' r.digits = (Nat.toDigits 10 r.line, Nat.toDigits 10 r.column) :=
    fun r => field_append (not_mem_toDigits rfl _) _
  have heq := hfields ⟨line, column⟩
  rw [h, hfields] at heq
  obtain ⟨hline, hcolumn⟩ := Prod.mk.inj heq
  obtain rfl : line' = line := toDigits_injective hline
  obtain rfl : column' = column := toDigits_injective hcolumn
  rfl

namespace Command

def placeField (line : String) : List Char :=
  (field ' ' line.toList).1

theorem placeField_spanLine (p : Place) (t : Token) : placeField (spanLine p t) = p.digits := by
  rw [placeField, toList_spanLine, field_append p.blank_not_mem_digits]

theorem map_placeField_lines {source : List Char} {ts : List Token}
    (h : ∀ t ∈ ts, IsBoundary source t.span.start) :
    (Format.spans.lines source ts).map placeField =
      ts.map fun t => ((Locator.start source).moveTo t.span.start).place.digits := by
  rw [Format.lines, Locator.places_eq_map (List.forall_mem_map.2 h), List.map_map,
    List.zipWith_map_left, List.zipWith_self, List.map_map]
  exact List.map_congr_left fun t _ => placeField_spanLine _ t

theorem nodup_placeField_lines {source : List Char} {start stop : Nat} {ts : List Token}
    (htiles : Token.Tiles start stop ts) (hfrom : ∀ t ∈ ts, t.IsFrom source) :
    ((Format.spans.lines source ts).map placeField).Nodup := by
  have hstart : ∀ t ∈ ts, IsBoundary source t.span.start := by
    intro t ht
    obtain ⟨u, v, hsource, hu, -⟩ := slice_eq_ok_iff.1 (hfrom t ht)
    exact ⟨u, t.value ++ v, hsource, hu⟩
  rw [map_placeField_lines hstart, List.Nodup, List.pairwise_map]
  refine htiles.pairwise_start.imp_of_mem fun {t u} ht hu hlt heq => ?_
  have hne : ((Locator.start source).places [t.span.start])[0]? ≠
      ((Locator.start source).places [u.span.start])[0]? :=
    Locator.getElem?_places_ne (hstart t ht) (hstart u hu) (Nat.ne_of_lt hlt) rfl rfl
  exact hne (congrArg some (Place.digits_injective heq))

end Command

/-- Whatever bytes locators are sent to, and in whatever order, a later boundary is given a later
place. -/
theorem places_increasing (source : List Char) :
    (∀ (xs ys : List Nat) (i j p q : Nat), xs[i]? = some p → ys[j]? = some q →
      IsBoundary source p → IsBoundary source q → p < q →
      ∃ a b : Place, ((Locator.start source).places xs)[i]? = some a ∧
        ((Locator.start source).places ys)[j]? = some b ∧ a.key < b.key) ∧
    (∀ (xs ys : List Nat) (i j p q : Nat), xs[i]? = some p → ys[j]? = some q →
      IsBoundary source p → IsBoundary source q → p ≠ q →
      ((Locator.start source).places xs)[i]? ≠ ((Locator.start source).places ys)[j]?) ∧
    ∀ (o : Command.Options) (l : Language), o.format = some .spans →
      ((o.lines l source).map Command.placeField).Nodup := by
  refine ⟨?_, ?_, ?_⟩
  · intro xs ys i j p q hi hj hp hq hlt
    exact Locator.key_lt_key_places hp hq hlt hi hj
  · intro xs ys i j p q hi hj hp hq hne
    exact Locator.getElem?_places_ne hp hq hne hi hj
  · intro o l hformat
    rw [o.lines_eq l source, hformat, Option.getD_some]
    exact Command.nodup_placeField_lines (Token.tiles_printed source o.merge)
      fun _ => Token.isFrom_of_mem_printed

/-- The line break is in a later column than the letter after it, and in an earlier line. It is asked
for on the way back from the end, and again when the letter has been found. -/
theorem places_increasing_accent :
    let source := ['é', '\n', 'a']
    let targets := [9, 2, 1, 3, 2]
    let places := (Locator.start source).places targets
    IsBoundary source 2 ∧ IsBoundary source 3 ∧
      places = [⟨2, 2⟩, ⟨1, 2⟩, ⟨1, 1⟩, ⟨2, 1⟩, ⟨1, 2⟩] ∧
      (⟨1, 2⟩ : Place).key < (⟨2, 1⟩ : Place).key ∧ places[3]? ≠ places[4]? ∧
      ((({ format := some .spans } : Command.Options).lines .tony source).map
        Command.placeField).Nodup := by
  intro source targets places
  have hbreak : IsBoundary source 2 := ⟨['é'], ['\n', 'a'], rfl, rfl⟩
  have hletter : IsBoundary source 3 := ⟨['é', '\n'], ['a'], rfl, rfl⟩
  have hplaces : places = [⟨2, 2⟩, ⟨1, 2⟩, ⟨1, 1⟩, ⟨2, 1⟩, ⟨1, 2⟩] := by decide +kernel
  obtain ⟨hless, hne, hlines⟩ := places_increasing source
  obtain ⟨a, b, ha, hb, hkey⟩ := hless targets targets 1 3 2 3 rfl rfl hbreak hletter (by decide)
  have ha' : places[1]? = some a := ha
  have hb' : places[3]? = some b := hb
  rw [hplaces] at ha' hb'
  obtain rfl := Option.some.inj ha'
  obtain rfl := Option.some.inj hb'
  exact ⟨hbreak, hletter, hplaces, hkey,
    hne targets targets 3 4 3 2 rfl rfl hletter hbreak (by decide), hlines _ _ rfl⟩

end Tony
