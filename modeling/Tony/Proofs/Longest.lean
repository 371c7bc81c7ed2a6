import Tony.Proofs.MarkReading
import Tony.Proofs.Spelling

/-!
Longest beginnings. A pattern finds a form if it takes the longest text of the form that stands at
the beginning, and refuses only where there is none. Main statement: the patterns for tags,
references, texts in single quotes and numbers find their forms, although they go from the left and
never go back.
-/

namespace Tony

open Form (Run Segments QuotedBody Sign IsTagLetter)
open Pattern

namespace Form

/-- The longest text of a form that a text begins with. -/
structure Longest (F : Form) (s w : List Char) : Prop where
  form : F w
  beginning : w <+: s
  length_le : ∀ v, F v → v <+: s → v.length ≤ w.length

def Absent (F : Form) (s : List Char) : Prop :=
  ∀ v, F v → ¬ v <+: s

variable {F : Form} {s w v : List Char}

theorem Longest.eq (h : F.Longest s w) (h' : F.Longest s v) : w = v := by
  have hle := h.length_le v h'.form h'.beginning
  have hge := h'.length_le w h.form h.beginning
  exact (List.prefix_of_prefix_length_le h.beginning h'.beginning hge).eq_of_length
    (Nat.le_antisymm hge hle)

theorem Longest.not_absent (h : F.Longest s w) : ¬ F.Absent s :=
  fun habsent => habsent w h.form h.beginning

def Quoted : Form := fun s =>
  ∃ body, QuotedBody body ∧ s = '\'' :: body ++ ['\'']

def Reference (sigil : Char) : Form := fun s =>
  ∃ name, Run (· ≠ ']') name ∧ s = sigil :: '[' :: name ++ [']']

theorem Segments.forall_mem {q : Char → Prop} (h : Segments q s) : ∀ c ∈ s, q c ∨ c = ':' := by
  induction h with
  | single run => exact fun c hc => .inl (run.2 c hc)
  | @divided s t run _ ih =>
    intro c hc
    rcases List.mem_append.1 hc with hc | hc
    · exact .inl (run.2 c hc)
    · rcases List.mem_cons.1 hc with rfl | hc
      · exact .inr rfl
      · exact ih c hc

theorem Segments.exists_head? {q : Char → Prop} (h : Segments q s) :
    ∃ c, s.head? = some c ∧ q c := by
  have hrun : ∀ {u : List Char}, Run q u → ∃ c r, u = c :: r ∧ q c := by
    intro u hu
    obtain ⟨c, r, rfl⟩ := List.exists_cons_of_ne_nil hu.1
    exact ⟨c, r, rfl, hu.2 c (List.mem_cons_self ..)⟩
  cases h with
  | single run =>
    obtain ⟨c, r, rfl, hc⟩ := hrun run
    exact ⟨c, rfl, hc⟩
  | divided run _ =>
    obtain ⟨c, r, rfl, hc⟩ := hrun run
    exact ⟨c, rfl, hc⟩

end Form

open Form (Quoted Reference)

namespace Pattern

/-- The pattern takes texts of the form only, and at least as much as any of them that is there. -/
structure Finds (p : Pattern) (F : Form) : Prop where
  takes : p.Takes F
  reaches : ∀ v r, F v → ∃ n, p (v ++ r) = some n ∧ v.length ≤ n

section Finds

variable {p : Pattern} {F G : Form} {s : List Char} {n : Nat}

theorem Finds.congr (h : p.Finds F) (hFG : ∀ s, F s ↔ G s) : p.Finds G where
  takes := h.takes.mono fun s hs => (hFG s).1 hs
  reaches := fun v r hv => h.reaches v r ((hFG v).2 hv)

theorem Finds.longest (h : p.Finds F) (hn : p s = some n) : F.Longest s (s.take n) where
  form := h.takes s n hn
  beginning := List.take_prefix n s
  length_le := by
    rintro v hv ⟨r, rfl⟩
    obtain ⟨m, hm, hle⟩ := h.reaches v r hv
    obtain rfl := Option.some.inj (hn.symm.trans hm)
    rw [List.length_take, List.length_append]
    omega

theorem Finds.eq_none_iff (h : p.Finds F) : p s = none ↔ F.Absent s := by
  constructor
  · rintro hnone v hv ⟨r, rfl⟩
    obtain ⟨m, hm, -⟩ := h.reaches v r hv
    rw [hm] at hnone
    cases hnone
  · intro habsent
    cases hs : p s with
    | none => rfl
    | some n => exact absurd habsent (h.longest hs).not_absent

end Finds

section Parts

variable {q : Char → Bool} {w r : List Char}

theorem run1_of_run (hw : Run (q ·) w) : ∃ n, run1 q (w ++ r) = some n ∧ w.length ≤ n := by
  have htake : ((w ++ r).takeWhile q).length = w.length + (r.takeWhile q).length := by
    rw [List.takeWhile_append_of_pos hw.2, List.length_append]
  have hpos := List.length_pos_iff.2 hw.1
  refine ⟨w.length + (r.takeWhile q).length, ?_, Nat.le_add_right _ _⟩
  unfold run1
  rw [htake]
  exact if_neg (by omega)

theorem finds_run1 (q : Char → Bool) : (run1 q).Finds (Run (q ·)) where
  takes := takes_run1 q
  reaches := fun _ _ hv => run1_of_run hv

theorem run1_of_run_cons {d : Char} (hw : Run (q ·) w) (hd : q d = false) :
    run1 q (w ++ d :: r) = some w.length := by
  have htake : (w ++ d :: r).takeWhile q = w := by
    rw [takeWhile_append_cons hd, List.takeWhile_eq_self_iff]
    exact hw.2
  unfold run1
  rw [htake]
  exact if_neg fun h => hw.1 (List.length_eq_zero_iff.1 h)

theorem minus_append {sign v : List Char} (hsign : Sign sign) (hv : v.head? ≠ some '-') :
    minus (sign ++ v) = some sign.length := by
  rcases hsign with rfl | rfl
  · have hnone : literal "-" v = none := literal_eq_none rfl hv
    unfold minus Pattern.maybe
    rw [List.nil_append, hnone]
    rfl
  · rfl

theorem head?_ne_minus (hw : Run (isDigit ·) w) : (w ++ r).head? ≠ some '-' := by
  obtain ⟨c, w, rfl⟩ := List.exists_cons_of_ne_nil hw.1
  intro h
  obtain rfl : c = '-' := Option.some.inj h
  exact absurd (hw.2 '-' (List.mem_cons_self ..)) (by decide)

end Parts

section Numbers

theorem andThen_reaches {p q : Pattern} {u v w : List Char} (hp : p (u ++ v) = some u.length)
    (hv : ∃ n, q v = some n ∧ w.length ≤ n) :
    ∃ n, p.andThen q (u ++ v) = some n ∧ (u ++ w).length ≤ n := by
  obtain ⟨n, hn, hle⟩ := hv
  refine ⟨u.length + n, andThen_append_eq hp hn, ?_⟩
  rw [List.length_append]
  omega

theorem andThen_nothing (p : Pattern) : p.andThen nothing = p := by
  funext s
  unfold Pattern.andThen nothing
  cases p s <;> rfl

theorem finds_basedNumber {letters : String} {q : Char → Bool} :
    (chain [minus, literal "0", one (isOneOf letters), run1 q]).Finds fun s =>
      ∃ sign x digits, Sign sign ∧ isOneOf letters x ∧ Run (q ·) digits ∧
        s = sign ++ '0' :: x :: digits where
  takes := takes_basedNumber letters q
  reaches := by
    rintro _ r ⟨sign, x, digits, hsign, hx, hdigits, rfl⟩
    have hletter : one (isOneOf letters) ([x] ++ (digits ++ r)) = some 1 := if_pos hx
    have hrest := andThen_reaches hletter (andThen_nothing (run1 q) ▸ run1_of_run hdigits)
    have hzero := andThen_reaches (p := literal "0") (u := ['0']) rfl hrest
    have hall := andThen_reaches (minus_append hsign (by simp)) hzero
    rw [List.append_assoc]
    exact hall

theorem finds_floatNumber :
    floatNumber.Finds fun s =>
      ∃ sign whole part, Sign sign ∧ Run (isDigit ·) whole ∧ Run (isDigit ·) part ∧
        s = sign ++ whole ++ '.' :: part where
  takes := takes_floatNumber
  reaches := by
    rintro _ r ⟨sign, whole, part, hsign, hwhole, hpart, rfl⟩
    have hrest := andThen_reaches (p := literal ".") (u := ['.']) rfl
      (andThen_nothing (run1 isDigit) ▸ run1_of_run (r := r) hpart)
    have hdigits := andThen_reaches (run1_of_run_cons hwhole (d := '.') rfl) hrest
    have hall := andThen_reaches (minus_append hsign (head?_ne_minus hwhole)) hdigits
    rw [List.append_assoc, List.append_assoc, List.append_assoc]
    exact hall

theorem finds_integerNumber :
    integerNumber.Finds fun s =>
      ∃ sign digits, Sign sign ∧ Run (isDigit ·) digits ∧ s = sign ++ digits where
  takes := takes_integerNumber
  reaches := by
    rintro _ r ⟨sign, digits, hsign, hdigits, rfl⟩
    have hall := andThen_reaches (minus_append hsign (head?_ne_minus hdigits))
      (andThen_nothing (run1 isDigit) ▸ run1_of_run (r := r) hdigits)
    rw [List.append_assoc]
    exact hall

end Numbers

section Names

theorem length_le_tagRest {name : List Char} (h : Segments (isTagLetter ·) name) (r : List Char) :
    name.length ≤ tagRest 0 (name ++ r) := by
  have hrun : ∀ w t, (∀ c ∈ w, isTagLetter c) → tagRest 0 (w ++ t) = w.length + tagRest 0 t := by
    intro w t hw
    induction w with
    | nil => exact (Nat.zero_add _).symm
    | cons c w ih =>
      obtain ⟨hc, hw⟩ := List.forall_mem_cons.1 hw
      rw [List.cons_append, tagRest, hc, Bool.true_or, if_pos rfl, tagRest_add 0 1, ih hw,
        List.length_cons]
      omega
  induction h with
  | single run =>
    rw [hrun _ r run.2]
    exact Nat.le_add_right _ _
  | @divided w t run rest ih =>
    obtain ⟨c, hc, hletter⟩ := rest.exists_head?
    have hnext : (t ++ r).head?.any isTagLetter := by
      rw [List.head?_append, hc]
      exact hletter
    have hcolon : tagRest 0 (':' :: (t ++ r)) = tagRest 0 (t ++ r) + 1 := by
      rw [tagRest, hnext, ← tagRest_add 0 1]
      rfl
    rw [List.append_assoc, hrun _ _ run.2, List.cons_append, hcolon, List.length_append,
      List.length_cons]
    omega

theorem finds_tagName : tagName.Finds (Segments (isTagLetter ·)) where
  takes := takes_tagName
  reaches := by
    intro name r h
    obtain ⟨c, hc, hletter⟩ := h.exists_head?
    obtain ⟨w, rfl⟩ := List.head?_eq_some_iff.1 hc
    have hle := length_le_tagRest h r
    have htake : tagRest 0 (c :: (w ++ r)) = tagRest 1 (w ++ r) := by
      rw [tagRest, hletter]
      rfl
    refine ⟨tagRest 1 (w ++ r), if_pos hletter, ?_⟩
    rw [← htake]
    exact hle

theorem quotedRest_append_of_body {body : List Char} (h : QuotedBody body) (r : List Char) :
    quotedRest 0 (body ++ '\'' :: r) = some (body.length + 1) := by
  induction h with
  | nil =>
    rw [List.nil_append, quotedRest_cons (by decide)]
    rfl
  | @plain s c hslash hquote _ ih =>
    rw [List.cons_append, quotedRest_cons hslash, if_neg hquote, quotedRest_add 0 1, ih]
    rfl
  | @escaped s c hfeed _ ih =>
    rw [List.cons_append, List.cons_append, quotedRest, if_neg hfeed, quotedRest_add 0 2, ih]
    rfl

theorem finds_quoted : quoted.Finds Quoted where
  takes := takes_quoted
  reaches := by
    rintro _ r ⟨body, hbody, rfl⟩
    have hquoted : quoted ('\'' :: (body ++ '\'' :: r)) = quotedRest 1 (body ++ '\'' :: r) := by
      rw [quoted, if_pos rfl]
    refine ⟨body.length + 1 + 1, ?_, ?_⟩
    · rw [List.append_assoc, List.singleton_append, List.cons_append, hquoted, quotedRest_add 0 1,
        quotedRest_append_of_body hbody]
      rfl
    · rw [List.length_append]
      exact Nat.le_refl _

theorem finds_reference {sigil : String} {c : Char} (hsigil : sigil.toList = [c]) :
    (reference sigil).Finds (Reference c) where
  takes := (takes_reference sigil).mono fun s hs => by
    rw [hsigil] at hs
    exact hs
  reaches := by
    rintro _ r ⟨name, hname, rfl⟩
    have hrun : Run (fun c => decide (c ≠ ']') = true) name :=
      hname.mono fun c hc => decide_eq_true hc
    have hclose := andThen_reaches (p := literal "]") (q := nothing) (u := [']']) (v := r) (w := [])
      rfl ⟨0, rfl, Nat.le_refl 0⟩
    have hname' := andThen_reaches (run1_of_run_cons hrun (d := ']') (by decide)) hclose
    have hopen := andThen_reaches (p := literal "[") (u := ['[']) rfl hname'
    have hfirst : literal sigil ([c] ++ ('[' :: (name ++ ']' :: r))) = some [c].length := by
      unfold literal
      rw [hsigil]
      exact if_pos (List.isPrefixOf_iff_prefix.2 (List.prefix_append _ _))
    have hall := andThen_reaches hfirst hopen
    rw [List.append_assoc]
    exact hall

end Names

end Pattern
end Tony
