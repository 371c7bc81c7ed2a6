import Tony.Proofs.Scope
import Tony.Proofs.Station

/-!
Text that is put after a line. The rules that look beyond a line read the same before it, but for
three things: a blank run goes on into blanks, a string run at the end of the text goes on, and a
quote or a reference that is left open may find its end there.
-/

namespace Tony

open Pattern
open Unicode (isBlank)

namespace Pattern

variable {s t : List Char}

theorem takeWhile_append_of_head? {q : Char → Bool} (ht : ∀ c ∈ t.head?, q c = false) :
    (s ++ t).takeWhile q = s.takeWhile q := by
  cases t with
  | nil => rw [List.append_nil]
  | cons c t => exact takeWhile_append_cons (ht c rfl) s t

theorem run1_append {q : Char → Bool} (ht : ∀ c ∈ t.head?, q c = false) :
    run1 q (s ++ t) = run1 q s := by
  unfold run1
  rw [takeWhile_append_of_head? ht]

theorem run1_append_of_mem {q : Char → Bool} {c : Char} (hc : q c = false) (hs : c ∈ s) :
    run1 q (s ++ t) = run1 q s := by
  obtain ⟨u, r, rfl⟩ := List.append_of_mem hs
  have hstop : StopsAt (run1 q) c := stopsAt_run1 hc
  rw [List.append_assoc, List.cons_append, hstop.append_cons, hstop.append_cons]

theorem one_append {q : Char → Bool} (hs : s ≠ []) : one q (s ++ t) = one q s := by
  cases s with
  | nil => exact absurd rfl hs
  | cons c s => rfl

theorem literal_append {w : String} (hs : w.toList.length ≤ s.length) :
    literal w (s ++ t) = literal w s := by
  have hw : w.toList.isPrefixOf (s ++ t) = w.toList.isPrefixOf s := by
    rw [Bool.eq_iff_iff, List.isPrefixOf_iff_prefix, List.isPrefixOf_iff_prefix]
    constructor
    · intro h
      exact List.prefix_of_prefix_length_le h (List.prefix_append s t) hs
    · intro h
      exact h.trans (List.prefix_append s t)
  unfold literal
  rw [hw]

theorem andThen_append {p q : Pattern} (hb : Bounded p) (hp : p (s ++ t) = p s)
    (hq : ∀ n, p s = some n → q (s.drop n ++ t) = q (s.drop n)) :
    p.andThen q (s ++ t) = p.andThen q s := by
  unfold Pattern.andThen
  rw [hp]
  cases hs : p s with
  | none => rfl
  | some n =>
    show (q ((s ++ t).drop n)).map _ = (q (s.drop n)).map _
    rw [List.drop_append_of_le_length (hb s n hs), hq n hs]

theorem ne_nil_of_line {c : Char} (hs : ∃ u, s = u ++ [c]) : s ≠ [] := by
  obtain ⟨u, rfl⟩ := hs
  exact List.append_ne_nil_of_right_ne_nil u (List.cons_ne_nil c [])

theorem StopsAt.drop_ne_nil {p : Pattern} {c : Char} (hp : StopsAt p c) {n : Nat}
    (hs : ∃ u, s = u ++ [c]) (h : p s = some n) : s.drop n ≠ [] := by
  obtain ⟨u, rfl⟩ := hs
  rw [hp.append_cons] at h
  have hn := hp.bounded u n h
  rw [List.drop_append_of_le_length hn]
  exact ne_nil_of_line ⟨u.drop n, rfl⟩

theorem literal_append_of_length_eq_one {w : String} (hw : w.toList.length = 1) (hs : s ≠ []) :
    literal w (s ++ t) = literal w s := by
  apply literal_append
  rw [hw]
  exact List.length_pos_iff.2 hs

theorem reference_append {sigil : String} {c : Char} (hsigil : sigil.toList = [c]) (hc : c ≠ '\n')
    (hs : ∃ u, s = u ++ ['\n']) (hclosed : ∀ v, s = c :: '[' :: v → ']' ∈ v) :
    reference sigil (s ++ t) = reference sigil s := by
  have hstop : StopsAt (literal sigil) '\n' := stopsAt_literal (by simp [hsigil, hc.symm])
  have hne := ne_nil_of_line hs
  have hone : sigil.toList.length = 1 := by rw [hsigil]; rfl
  refine andThen_append (bounded_literal _) (literal_append_of_length_eq_one hone hne) ?_
  intro n hn
  have hrne := hstop.drop_ne_nil hs hn
  obtain ⟨rfl, r, rfl⟩ := literal_eq_some hn
  rw [hone, hsigil] at hrne ⊢
  refine andThen_append (bounded_literal _) (literal_append_of_length_eq_one rfl hrne) ?_
  intro n hn
  obtain ⟨rfl, v, hv⟩ := literal_eq_some hn
  obtain rfl : '[' :: v = r := hv
  have hmem : ']' ∈ v := hclosed v (by rw [hsigil]; rfl)
  refine andThen_append (bounded_run1 _) (run1_append_of_mem rfl hmem) ?_
  intro n hn
  have hvne : v.drop n ≠ [] := by
    rw [(run1_eq_some hn).1, ne_eq, List.drop_eq_nil_iff]
    intro hle
    have hall := (List.takeWhile_prefix _).eq_of_length_le hle
    have hbracket : ']' ∈ v.takeWhile (· ≠ ']') := by rw [hall]; exact hmem
    exact absurd (List.all_eq_true.1 List.all_takeWhile _ hbracket) (by decide)
  exact andThen_append (bounded_literal _) (literal_append_of_length_eq_one rfl hvne) fun _ _ => rfl

theorem quotedRest_append {n m : Nat} (h : quotedRest n s = some m) :
    quotedRest n (s ++ t) = some m := by
  induction s using quotedRest_induction generalizing n with
  | nil => cases h
  | backslash => cases h
  | lineFeed s => cases h
  | escaped c s hc ih =>
    rw [quotedRest, if_neg hc] at h
    rw [List.cons_append, List.cons_append, quotedRest, if_neg hc]
    exact ih h
  | quote s =>
    rw [quotedRest_cons (by decide), if_pos rfl] at h
    rw [List.cons_append, quotedRest_cons (by decide), if_pos rfl, h]
  | other c s hc hquote ih =>
    rw [quotedRest_cons hc, if_neg hquote] at h
    rw [List.cons_append, quotedRest_cons hc, if_neg hquote]
    exact ih h

theorem quoted_append (hs : s ≠ []) (hclosed : s.head? = some '\'' → quoted s ≠ none) :
    quoted (s ++ t) = quoted s := by
  cases s with
  | nil => exact absurd rfl hs
  | cons c s =>
    by_cases hc : c = '\''
    · subst hc
      obtain ⟨m, hm⟩ := Option.ne_none_iff_exists'.1 (hclosed rfl)
      rw [hm]
      exact quotedRest_append hm
    · rw [List.cons_append, quoted, quoted, if_neg hc, if_neg hc]

theorem bounded_lineBreak : Bounded lineBreak :=
  bounded_chain (by simp)

theorem lineBreak_append (hs : ∃ u, s = u ++ ['\n']) : lineBreak (s ++ t) = lineBreak s := by
  have hstop : StopsAt (maybe (literal "\r")) '\n' := (stopsAt_literal (by decide)).maybe
  have hne := ne_nil_of_line hs
  have hreturn : maybe (literal "\r") (s ++ t) = maybe (literal "\r") s := by
    unfold Pattern.maybe
    rw [literal_append_of_length_eq_one rfl hne]
  refine andThen_append (bounded_maybe (bounded_literal _)) hreturn ?_
  intro n hn
  have hrest := hstop.drop_ne_nil hs hn
  have hfeed := literal_append_of_length_eq_one (w := "\n") (t := t) rfl hrest
  exact andThen_append (bounded_literal _) hfeed fun _ _ => rfl

end Pattern

/-- No rule of the mode that is tried at the beginning of the text goes on beyond its end: lines are
ended, quotes and brackets closed, and in double quotes something comes that ends a string run. -/
structure Closed (mode : Mode) (s : List Char) : Prop where
  line : ∃ u, s = u ++ ['\n']
  quote : mode = .root ∨ mode = .tagArgs → s.head? = some '\'' → quoted s ≠ none
  dollar : mode = .root ∨ mode = .doubleString → ∀ v, s = '$' :: '[' :: v → ']' ∈ v
  dot : mode = .root → ∀ v, s = '.' :: '[' :: v → ']' ∈ v
  stringEnd : mode = .doubleString → ∃ c ∈ s, isOneOf "\\\"$" c

namespace Rule

theorem read?_taking_append {kind : Kind} {p : Pattern} {s t : List Char} (hb : p.Bounded)
    (hp : p (s ++ t) = p s) (depth : Nat) (passed : List Char) :
    (taking kind p).read? depth passed (s ++ t) = (taking kind p).read? depth passed s :=
  read?_append (lexemes?_cons_append hb hp fun _ _ => lexemes?_nil_append _ _) (fun _ _ _ => rfl)
    depth passed

theorem Scope.read?_append {mode : Mode} {rule : Rule} (h : Scope mode rule) {s t : List Char}
    (hs : Closed mode s) (ht : ∀ c ∈ t.head?, isBlank c = false) (depth : Nat)
    (passed : List Char) : rule.read? depth passed (s ++ t) = rule.read? depth passed s := by
  have hne := ne_nil_of_line hs.line
  have hline : ∀ {rule : Rule}, rule.StopsAt '\n' →
      rule.read? depth passed (s ++ t) = rule.read? depth passed s := by
    intro rule hrule
    obtain ⟨u, hu⟩ := hs.line
    rw [hu, List.append_assoc]
    exact read?_append_cons hrule hrule rfl depth passed u t []
  have hblanks : run1 isBlank (s ++ t) = run1 isBlank s := run1_append ht
  cases h with
  | line stops follow => exact hline (stops '\n' rfl)
  | specialComment => exact hline (stopsAt_taking (stopsAt_comment.passing hasMarker))
  | comment => exact hline (stopsAt_taking stopsAt_comment)
  | blanks => exact read?_taking_append (bounded_run1 isBlank) hblanks depth passed
  | mark =>
    refine Rule.read?_append ?_ (fun _ _ _ => rfl) depth passed
    refine lexemes?_cons_append (bounded_one _) (one_append hne) fun n _ => ?_
    exact lexemes?_cons_append (bounded_run1 isBlank) (run1_append ht) fun _ _ =>
      lexemes?_nil_append _ _
  | dollar hm =>
    have hp : reference "$" (s ++ t) = reference "$" s :=
      reference_append rfl (by decide) hs.line (hs.dollar hm)
    exact read?_taking_append (bounded_reference "$") hp depth passed
  | dot =>
    have hp : reference "." (s ++ t) = reference "." s :=
      reference_append rfl (by decide) hs.line (hs.dot rfl)
    exact read?_taking_append (bounded_reference ".") hp depth passed
  | quoted hm =>
    exact read?_taking_append bounded_quoted (quoted_append hne (hs.quote hm)) depth passed
  | stringRun =>
    obtain ⟨c, hc, hend⟩ := hs.stringEnd rfl
    have hstop : (!isOneOf "\\\"$" c) = false := by rw [hend]; rfl
    exact read?_taking_append (bounded_run1 _) (run1_append_of_mem hstop hc) depth passed
  | lineBreak =>
    exact read?_taking_append bounded_lineBreak (lineBreak_append hs.line) depth passed
  | leave =>
    refine Rule.read?_append rfl (fun ls rest hl => ?_) depth passed
    obtain ⟨-, rfl⟩ := Prod.mk.inj (Option.some.inj hl)
    obtain ⟨c, r, hc⟩ := List.exists_cons_of_ne_nil hne
    rw [hc]
    rfl

end Rule
end Tony
