import Tony.Proofs.Appending
import Tony.Proofs.Beginning
import Tony.Proofs.Locality

/-!
Carriage returns before line feeds. A text is compared with itself after they have been put in, and
most patterns take the same part of both: either they stop before a line end or they take all of it.
-/

namespace Tony

open Pattern
open Unicode (isBlank)

namespace Text

/-- The text with a carriage return before every line feed. -/
def crlf (s : List Char) : List Char :=
  s.flatMap fun c => if c = '\n' then ['\r', '\n'] else [c]

/-- All line ends are bare line feeds, and no backslash stands before one. -/
structure Plain (s : List Char) : Prop where
  noReturn : '\r' ∉ s
  noEscape : ¬ ['\\', '\n'] <:+: s

theorem crlf_lineFeed (s : List Char) : crlf ('\n' :: s) = '\r' :: '\n' :: crlf s := rfl

theorem crlf_cons {c : Char} (hc : c ≠ '\n') (s : List Char) : crlf (c :: s) = c :: crlf s := by
  rw [crlf, List.flatMap_cons, if_neg hc]
  rfl

theorem crlf_append (s t : List Char) : crlf (s ++ t) = crlf s ++ crlf t :=
  List.flatMap_append

theorem crlf_eq_self {s : List Char} (hs : '\n' ∉ s) : crlf s = s := by
  induction s with
  | nil => rfl
  | cons c s ih =>
    rw [List.mem_cons, not_or] at hs
    rw [crlf_cons (Ne.symm hs.1), ih hs.2]

theorem crlf_eq_nil_iff {s : List Char} : crlf s = [] ↔ s = [] := by
  cases s with
  | nil => exact Iff.rfl
  | cons c s =>
    by_cases hc : c = '\n'
    · subst hc
      rw [crlf_lineFeed]
      exact ⟨nofun, nofun⟩
    · rw [crlf_cons hc]
      exact ⟨nofun, nofun⟩

theorem head?_crlf {f : Option Char → Bool} (hf : f (some '\r') = f (some '\n')) (s : List Char) :
    f (crlf s).head? = f s.head? := by
  cases s with
  | nil => rfl
  | cons c s =>
    by_cases hc : c = '\n'
    · subst hc
      exact hf
    · rw [crlf_cons hc]
      rfl

theorem filter_crlf {s : List Char} (hs : '\r' ∉ s) : (crlf s).filter (· ≠ '\r') = s := by
  induction s with
  | nil => rfl
  | cons c s ih =>
    rw [List.mem_cons, not_or] at hs
    obtain ⟨hc, hs⟩ := hs
    by_cases hfeed : c = '\n'
    · subst hfeed
      exact congrArg ('\n' :: ·) (ih hs)
    · have hkeep : decide (c ≠ '\r') = true := decide_eq_true (Ne.symm hc)
      rw [crlf_cons hfeed, List.filter_cons, if_pos hkeep, ih hs]

theorem crlf_eq_take_append_drop (n : Nat) (s : List Char) :
    crlf s = crlf (s.take n) ++ crlf (s.drop n) := by
  rw [← crlf_append, List.take_append_drop]

theorem take_crlf (n : Nat) (s : List Char) :
    (crlf s).take (crlf (s.take n)).length = crlf (s.take n) := by
  rw [crlf_eq_take_append_drop n s, List.take_left]

theorem drop_crlf (n : Nat) (s : List Char) :
    (crlf s).drop (crlf (s.take n)).length = crlf (s.drop n) := by
  rw [crlf_eq_take_append_drop n s, List.drop_left]

theorem takeWhile_crlf {q : Char → Bool} (hq : q '\r' = q '\n') (s : List Char) :
    (crlf s).takeWhile q = crlf (s.takeWhile q) := by
  induction s with
  | nil => rfl
  | cons c s ih =>
    by_cases hc : c = '\n'
    · subst hc
      rw [crlf_lineFeed, List.takeWhile_cons, List.takeWhile_cons, List.takeWhile_cons, hq]
      split
      · rw [ih, crlf_lineFeed]
      · rfl
    · rw [crlf_cons hc, List.takeWhile_cons, List.takeWhile_cons]
      split
      · rw [ih, crlf_cons hc]
      · rfl

namespace Plain

theorem of_append {s t : List Char} (h : Plain (s ++ t)) : Plain s ∧ Plain t := by
  obtain ⟨hr, he⟩ := h
  rw [List.mem_append, not_or] at hr
  refine ⟨⟨hr.1, fun hs => he ?_⟩, ⟨hr.2, fun ht => he ?_⟩⟩
  · exact hs.trans (List.prefix_append s t).isInfix
  · exact ht.trans (List.suffix_append s t).isInfix

theorem drop {s : List Char} (h : Plain s) (n : Nat) : Plain (s.drop n) := by
  rw [← List.take_append_drop n s] at h
  exact h.of_append.2

end Plain

end Text

open Text (crlf Plain)

namespace Pattern

/-- From a text with the other line ends the pattern takes the same part. -/
def Even (p : Pattern) : Prop :=
  ∀ s, Plain s → p (crlf s) = (p s).map fun n => (crlf (s.take n)).length

theorem even_of_stopsAt {p : Pattern} (h : ∀ c, isLineEnd c → p.StopsAt c) : Even p := by
  intro s _
  have hr := h '\r' rfl
  have hn := h '\n' rfl
  have hself : ∀ u : List Char, '\n' ∉ u → ∀ n, p u = some n → (crlf (u.take n)).length = n := by
    intro u hu n hpu
    have htake : '\n' ∉ u.take n := fun hmem => hu (List.mem_of_mem_take hmem)
    rw [Text.crlf_eq_self htake, List.length_take, Nat.min_eq_left (hn.bounded u n hpu)]
  by_cases hs : '\n' ∈ s
  · obtain ⟨u, r, rfl, hu⟩ := List.eq_append_cons_of_mem hs
    rw [Text.crlf_append, Text.crlf_eq_self hu, Text.crlf_lineFeed, hr.append_cons, hn.append_cons]
    cases hpu : p u with
    | none => rfl
    | some n =>
      have hle : n ≤ u.length := hn.bounded u n hpu
      rw [Option.map_some, List.take_append_of_le_length hle, hself u hu n hpu]
  · rw [Text.crlf_eq_self hs]
    cases hps : p s with
    | none => rfl
    | some n => rw [Option.map_some, hself s hs n hps]

theorem even_nothing : Even nothing :=
  fun _ _ => rfl

theorem even_run1 {q : Char → Bool} (hq : q '\r' = q '\n') : Even (run1 q) := by
  intro s _
  have hzero : (crlf (s.takeWhile q)).length = 0 ↔ (s.takeWhile q).length = 0 := by
    rw [List.length_eq_zero_iff, List.length_eq_zero_iff, Text.crlf_eq_nil_iff]
  unfold run1
  rw [Text.takeWhile_crlf hq]
  by_cases h : (s.takeWhile q).length = 0
  · show (if _ then _ else _) = Option.map _ (if _ then _ else _)
    rw [if_pos (hzero.2 h), if_pos h]
    rfl
  · show (if _ then _ else _) = Option.map _ (if _ then _ else _)
    rw [if_neg (mt hzero.1 h), if_neg h, Option.map_some, take_length_takeWhile]

theorem Even.andThen {p q : Pattern} (hp : Even p) (hq : Even q) : Even (p.andThen q) := by
  intro s hs
  unfold Pattern.andThen
  rw [hp s hs]
  cases hps : p s with
  | none => rfl
  | some n =>
    show (q ((crlf s).drop (crlf (s.take n)).length)).map _ = _
    rw [Text.drop_crlf, hq _ (hs.drop n)]
    show _ = ((q (s.drop n)).map fun m => n + m).map _
    rw [Option.map_map, Option.map_map]
    congr 1
    funext m
    show _ = (crlf (s.take (n + m))).length
    rw [List.take_add, Text.crlf_append, List.length_append]
    rfl

theorem even_chain {ps : List Pattern} (h : ∀ p ∈ ps, Even p) : Even (chain ps) := by
  induction ps with
  | nil => exact even_nothing
  | cons p ps ih =>
    have hp := h p (List.mem_cons_self ..)
    exact hp.andThen (ih fun q hq => h q (List.mem_cons_of_mem p hq))

theorem even_one {q : Char → Bool} (hr : q '\r' = false) (hn : q '\n' = false) : Even (one q) :=
  even_of_stopsAt (forall_isLineEnd (stopsAt_one hr) (stopsAt_one hn))

theorem even_literal {w : String} (hr : '\r' ∉ w.toList) (hn : '\n' ∉ w.toList) :
    Even (literal w) :=
  even_of_stopsAt (stopsAt_literal_of_isLineEnd hr hn)

theorem even_reference {sigil : String} (hr : '\r' ∉ sigil.toList) (hn : '\n' ∉ sigil.toList) :
    Even (reference sigil) := by
  have hopen : Even (literal "[") := even_literal (by decide) (by decide)
  have hname : Even (run1 (· ≠ ']')) := even_run1 rfl
  have hclose : Even (literal "]") := even_literal (by decide) (by decide)
  apply even_chain
  simp only [List.forall_mem_cons]
  exact ⟨even_literal hr hn, hopen, hname, hclose, nofun⟩

theorem even_quotedRest : Even (quotedRest 0) := by
  intro s hs
  induction s using quotedRest_induction with
  | nil => rfl
  | backslash => rfl
  | lineFeed s =>
    -- This is what fails without the premise: the backslash takes the carriage return along.
    exact absurd (List.prefix_append _ s).isInfix hs.noEscape
  | escaped c s hc ih =>
    have ih := ih (hs.drop 2)
    rw [Text.crlf_cons (by decide), Text.crlf_cons hc, quotedRest, quotedRest, if_neg hc, if_neg hc,
      quotedRest_add 0 2, quotedRest_add 0 2, ih, Option.map_map, Option.map_map]
    congr 1
    funext m
    show _ = (crlf ('\\' :: c :: s.take m)).length
    rw [Text.crlf_cons (by decide), Text.crlf_cons hc]
    rfl
  | quote s =>
    rw [Text.crlf_cons (by decide), quotedRest_cons (by decide), quotedRest_cons (by decide),
      if_pos rfl, if_pos rfl]
    rfl
  | other c s hc hquote ih =>
    have ih := ih (hs.drop 1)
    by_cases hfeed : c = '\n'
    · subst hfeed
      rw [Text.crlf_lineFeed, quotedRest_cons (by decide), quotedRest_cons (by decide),
        quotedRest_cons hc, if_neg (by decide), if_neg hquote, if_neg hquote, quotedRest_add 0 1,
        quotedRest_add 0 2, ih, Option.map_map, Option.map_map]
      rfl
    · rw [Text.crlf_cons hfeed, quotedRest_cons hc, quotedRest_cons hc, if_neg hquote,
        if_neg hquote, quotedRest_add 0 1, quotedRest_add 0 1, ih, Option.map_map, Option.map_map]
      congr 1
      funext m
      show _ = (crlf (c :: s.take m)).length
      rw [Text.crlf_cons hfeed]
      rfl

theorem even_quoted : Even quoted := by
  rw [quoted_eq_andThen]
  exact (even_one rfl rfl).andThen even_quotedRest

theorem even_lineBreak : Even lineBreak := by
  intro s hs
  cases s with
  | nil => rfl
  | cons c s =>
    have hreturn : c ≠ '\r' := by
      rintro rfl
      exact hs.noReturn (List.mem_cons_self ..)
    by_cases hfeed : c = '\n'
    · subst hfeed
      rfl
    · have hend : isLineEnd c = false := by simp [isLineEnd, hreturn, hfeed]
      rw [Text.crlf_cons hfeed, lineBreak_eq_none hend, lineBreak_eq_none hend]
      rfl

end Pattern

theorem hasMarker_append_return (s : List Char) : hasMarker (s ++ ['\r']) = hasMarker s := by
  have hoccurs : ∀ w : List Char, '\r' ∉ w → occursIn w (s ++ ['\r']) = occursIn w s := by
    intro w hw
    induction s with
    | nil =>
      have hhead : w.isPrefixOf ['\r'] = w.isPrefixOf [] := isPrefixOf_append_cons hw [] []
      show (w.isPrefixOf ['\r'] || w.isEmpty) = w.isEmpty
      rw [hhead]
      cases w <;> rfl
    | cons c s ih =>
      have hhead : w.isPrefixOf (c :: (s ++ ['\r'])) = w.isPrefixOf (c :: s) :=
        isPrefixOf_append_cons hw (c :: s) []
      rw [List.cons_append, occursIn, occursIn, hhead, ih]
  have hmarkers : ∀ w ∈ markers, '\r' ∉ w.toList := by decide
  unfold hasMarker
  rw [Bool.eq_iff_iff, List.any_eq_true, List.any_eq_true]
  refine exists_congr fun w => and_congr_right fun hw => ?_
  rw [hoccurs w.toList (hmarkers w hw)]

def Lexeme.crlf (l : Lexeme) : Lexeme :=
  { l with text := Text.crlf l.text }

namespace Reading

def crlf (r : Reading) : Reading :=
  { r with lexemes := r.lexemes.map Lexeme.crlf }

theorem text_crlf (r : Reading) : r.crlf.text = Text.crlf r.text := by
  obtain ⟨ls, change⟩ := r
  show (ls.map Lexeme.crlf).flatMap Lexeme.text = Text.crlf (ls.flatMap Lexeme.text)
  induction ls with
  | nil => rfl
  | cons l ls ih =>
    rw [List.map_cons, List.flatMap_cons, List.flatMap_cons, ih, Text.crlf_append]
    rfl

theorem isProgress_crlf (depth : Nat) (r : Reading) :
    r.crlf.isProgress depth = r.isProgress depth := by
  have hempty : r.crlf.text.isEmpty = r.text.isEmpty := by
    rw [text_crlf, Bool.eq_iff_iff, List.isEmpty_iff, List.isEmpty_iff, Text.crlf_eq_nil_iff]
  rw [isProgress, isProgress, hempty]
  rfl

end Reading

namespace Rule

theorem lexemes?_crlf {parts : List (Kind × Pattern)} (h : ∀ part ∈ parts, part.2.Even)
    {s : List Char} (hs : Plain s) :
    lexemes? parts (crlf s) = (lexemes? parts s).map (Prod.map (List.map Lexeme.crlf) crlf) := by
  induction parts generalizing s with
  | nil => rfl
  | cons part parts ih =>
    obtain ⟨kind, p⟩ := part
    have hp : p.Even := h (kind, p) (List.mem_cons_self ..)
    have hparts := fun part hpart => h part (List.mem_cons_of_mem _ hpart)
    rw [lexemes?, lexemes?, hp s hs]
    cases hps : p s with
    | none => rfl
    | some n =>
      rw [Option.map_some, Option.bind_some, Option.bind_some, Text.take_crlf, Text.drop_crlf,
        ih hparts (hs.drop n)]
      cases lexemes? parts (s.drop n) <;> rfl

theorem read?_crlf {rule : Rule} (h : ∀ part ∈ rule.parts, part.2.Even)
    (hf : rule.follow (some '\r') = rule.follow (some '\n')) {p q s : List Char}
    (hp : Anchor.Agree p q) (hs : Plain s) (depth : Nat) :
    rule.read? depth q (crlf s) = (rule.read? depth p s).map Reading.crlf := by
  unfold read?
  rw [hp rule.anchor, lexemes?_crlf h hs]
  split
  · cases lexemes? rule.parts s with
    | none => rfl
    | some x =>
      obtain ⟨ls, rest⟩ := x
      -- The rule looks at what follows only to see whether the line ends.
      have hhead := Text.head?_crlf hf rest
      have hprogress := Reading.isProgress_crlf depth ⟨ls, rule.change⟩
      show (if rule.follow (crlf rest).head? && Reading.isProgress depth (Reading.crlf ⟨ls, _⟩) then
          some (Reading.crlf ⟨ls, rule.change⟩) else none) =
        Option.map Reading.crlf
          (if rule.follow rest.head? && _ then some ⟨ls, rule.change⟩ else none)
      rw [hhead, hprogress]
      split <;> rfl
  · rfl

theorem read?_taking_crlf {kind : Kind} {pattern : Pattern} (h : pattern.Even) {p q s : List Char}
    (hp : Anchor.Agree p q) (hs : Plain s) (depth : Nat) :
    (taking kind pattern).read? depth q (crlf s) =
      ((taking kind pattern).read? depth p s).map Reading.crlf := by
  refine read?_crlf (fun part hpart => ?_) rfl hp hs depth
  rw [List.mem_singleton.1 hpart]
  exact h

theorem Scope.read?_crlf {mode : Mode} {rule : Rule} (h : Scope mode rule) {p q s : List Char}
    (hp : Anchor.Agree p q) (hs : Plain s) (hhash : mode = .root → s.head? ≠ some '#')
    (depth : Nat) : rule.read? depth q (crlf s) = (rule.read? depth p s).map Reading.crlf := by
  have hnone : ∀ {rule : Rule}, lexemes? rule.parts s = none → lexemes? rule.parts (crlf s) = none →
      rule.read? depth q (crlf s) = (rule.read? depth p s).map Reading.crlf := by
    intro rule hrule hrule'
    rw [read?_eq_none hrule, read?_eq_none hrule']
    rfl
  have hhash' : mode = .root → (crlf s).head? ≠ some '#' := by
    intro hm hhead
    have hsame := Text.head?_crlf (f := (· == some '#')) rfl s
    rw [hhead] at hsame
    exact hhash hm (beq_iff_eq.1 hsame.symm)
  cases h with
  | line stops follow =>
    refine Rule.read?_crlf (fun part hpart => ?_) follow hp hs depth
    exact even_of_stopsAt fun c hc => stops c hc part hpart
  | specialComment =>
    have hhere := passing_eq_none (comment_eq_none (hhash rfl)) hasMarker
    have hthere := passing_eq_none (comment_eq_none (hhash' rfl)) hasMarker
    exact hnone (lexemes?_eq_none hhere) (lexemes?_eq_none hthere)
  | comment =>
    have hhere := comment_eq_none (hhash rfl)
    have hthere := comment_eq_none (hhash' rfl)
    exact hnone (lexemes?_eq_none hhere) (lexemes?_eq_none hthere)
  | blanks => exact read?_taking_crlf (even_run1 (by decide)) hp hs depth
  | mark =>
    have hmark : Even (one (isOneOf ":,-")) := even_one rfl rfl
    have hblanks : Even Pattern.blanks := even_run1 (by decide)
    refine Rule.read?_crlf ?_ rfl hp hs depth
    simp only [List.forall_mem_cons]
    exact ⟨hmark, hblanks, nofun⟩
  | dollar hm => exact read?_taking_crlf (even_reference (by decide) (by decide)) hp hs depth
  | dot => exact read?_taking_crlf (even_reference (by decide) (by decide)) hp hs depth
  | quoted hm => exact read?_taking_crlf even_quoted hp hs depth
  | stringRun => exact read?_taking_crlf (even_run1 rfl) hp hs depth
  | lineBreak => exact read?_taking_crlf even_lineBreak hp hs depth
  | leave =>
    refine Rule.read?_crlf (fun part hpart => ?_) (by decide) hp hs depth
    rw [List.mem_singleton.1 hpart]
    exact even_nothing

end Rule
end Tony
