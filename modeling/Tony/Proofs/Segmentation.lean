import Tony.Proofs.Neighbours
import Tony.Proofs.Printing

/-!
Merging the tokens of a text as a way of cutting it up. Main statement: it cuts the text where the
kind changes and nowhere else, so it gives the only tokens over the text that keep the kind of every
byte and have no two neighbours of one kind. Tokens of kinds that stand alone come out as they were.
-/

namespace Tony

open Text (bytes)

namespace Token

def KindAt (ts : List Token) (q : Nat) (k : Kind) : Prop :=
  ∃ t ∈ ts, t.Covers q ∧ t.kind = k

def Alternates (ts : List Token) : Prop :=
  ts.IsChain fun t u => t.kind ≠ u.kind

/-- Tokens that cut a text where the kind of its bytes changes, the kinds being those that the bytes
have among `ts`. -/
structure IsSegmentation (source : List Char) (ts us : List Token) : Prop where
  tiles : Tiles 0 (bytes source) us
  isFrom : ∀ u ∈ us, u.IsFrom source
  kindAt : ∀ q k, KindAt us q k ↔ KindAt ts q k
  alternates : Alternates us

section Merging

variable {t u : Token} {ts us : List Token} {start stop q : Nat} {k : Kind}

theorem kindAt_cons : KindAt (t :: ts) q k ↔ (t.Covers q ∧ t.kind = k) ∨ KindAt ts q k := by
  rw [KindAt, List.exists_mem_cons_iff]
  rfl

theorem covers_extend (hside : t.span.stop = u.span.start) (ht : t.span.start ≤ t.span.stop)
    (hu : u.span.start ≤ u.span.stop) : (t.extend u).Covers q ↔ t.Covers q ∨ u.Covers q := by
  show t.span.start ≤ q ∧ q < u.span.stop ↔ _
  rw [Covers, Covers]
  omega

theorem kindAt_attach (ht : t.span.start ≤ t.span.stop) (h : Tiles t.span.stop stop ts) :
    KindAt (attach t ts) q k ↔ KindAt (t :: ts) q k := by
  cases ts with
  | nil => exact Iff.rfl
  | cons u us =>
    rw [attach]
    split
    · rename_i hcont
      obtain ⟨hkind, hside⟩ := continues_iff.1 hcont
      obtain ⟨-, hlt, -⟩ := h
      have hcovers := covers_extend (q := q) hside ht (by omega)
      have hextend : (t.extend u).kind = t.kind := rfl
      rw [kindAt_cons, kindAt_cons, kindAt_cons, hcovers, hextend, ← hkind, or_and_right, or_assoc]
    · exact Iff.rfl

theorem kindAt_merged (h : Tiles start stop ts) : KindAt (merged ts) q k ↔ KindAt ts q k := by
  induction ts generalizing start with
  | nil => exact Iff.rfl
  | cons t ts ih =>
    obtain ⟨rfl, hlt, htail⟩ := h
    rw [merged_cons, kindAt_attach (Nat.le_of_lt hlt) htail.merged, kindAt_cons, kindAt_cons,
      ih htail]

theorem Alternates.attach (h : Tiles t.span.stop stop ts) (halt : Alternates ts) :
    Alternates (attach t ts) := by
  cases ts with
  | nil => exact .singleton t
  | cons u us =>
    rw [Token.attach]
    split
    · rename_i hcont
      have hkind : (t.extend u).kind = u.kind := (continues_iff.1 hcont).1
      refine List.isChain_cons.2 ⟨fun v hv => ?_, List.IsChain.tail halt⟩
      rw [hkind]
      exact (List.isChain_cons.1 halt).1 v hv
    · rename_i hcont
      refine List.isChain_cons_cons.2 ⟨fun hkind => hcont ?_, halt⟩
      exact continues_iff.2 ⟨hkind, h.1.symm⟩

theorem alternates_merged (h : Tiles start stop ts) : Alternates (merged ts) := by
  induction ts generalizing start with
  | nil => exact .nil
  | cons t ts ih =>
    obtain ⟨-, -, htail⟩ := h
    exact (ih htail).attach htail.merged

theorem head?_kind_merged (ts : List Token) :
    (merged ts).head?.map kind = ts.head?.map kind := by
  cases ts with
  | nil => rfl
  | cons t ts =>
    rw [merged_cons]
    rcases merged ts with _ | ⟨u, us⟩
    · rfl
    · rw [attach]
      split <;> rfl

theorem filter_merged (h : (ts.map kind).IsChain Kind.Apart) :
    (merged ts).filter (fun t => t.kind.standsAlone) =
      ts.filter fun t => t.kind.standsAlone := by
  induction ts with
  | nil => rfl
  | cons t ts ih =>
    obtain ⟨hnext, htail⟩ := List.isChain_cons.1 h
    rw [List.head?_map, ← head?_kind_merged] at hnext
    rw [merged_cons, List.filter_cons, ← ih htail]
    rcases hm : merged ts with _ | ⟨u, us⟩
    · exact List.filter_cons
    · rw [attach]
      split
      · rename_i hcont
        obtain ⟨hkind, -⟩ := continues_iff.1 hcont
        have halone : t.kind.standsAlone = false := by
          rw [Bool.eq_false_iff]
          exact fun halone => hnext u.kind (by rw [hm]; rfl) halone hkind.symm
        have hextend : (t.extend u).kind.standsAlone = false := halone
        rw [List.filter_cons, hextend, halone, List.filter_cons, ← hkind, halone]
        rfl
      · exact List.filter_cons

end Merging

section Uniqueness

variable {source : List Char} {t u : Token} {ts us : List Token} {start stop q : Nat} {k : Kind}

theorem Tiles.kindAt_iff_of_lt (h : Tiles start stop (t :: ts)) (hstart : start ≤ q)
    (hq : q < t.span.stop) : KindAt (t :: ts) q k ↔ t.kind = k := by
  obtain ⟨rfl, -, htail⟩ := h
  have hrest : ¬ KindAt ts q k := by
    rintro ⟨u, hu, ⟨hle, -⟩, -⟩
    have hbounds := htail.bounds_of_mem u hu
    omega
  rw [kindAt_cons, or_iff_left hrest]
  exact and_iff_right ⟨hstart, hq⟩

theorem Tiles.kindAt_tail (h : Tiles start stop (t :: ts)) :
    KindAt ts q k ↔ t.span.stop ≤ q ∧ KindAt (t :: ts) q k := by
  obtain ⟨-, -, htail⟩ := h
  rw [kindAt_cons]
  constructor
  · rintro ⟨u, hu, hcovers, hkind⟩
    have hbounds := htail.bounds_of_mem u hu
    exact ⟨hbounds.1.trans hcovers.1, .inr ⟨u, hu, hcovers, hkind⟩⟩
  · rintro ⟨hq, ⟨⟨-, hlt⟩, -⟩ | hrest⟩
    · exact absurd hq (Nat.not_le.2 hlt)
    · exact hrest

theorem stop_le_of_kindAt (ht : Tiles start stop (t :: ts)) (hu : Tiles start stop (u :: us))
    (halt : Alternates (t :: ts)) (hkind : ∀ q k, KindAt (t :: ts) q k ↔ KindAt (u :: us) q k) :
    u.span.stop ≤ t.span.stop := by
  by_contra hlt
  rw [Nat.not_le] at hlt
  have hpos := ht.2.1
  have htail := ht.2.2
  have hsame : t.kind = u.kind := by
    rw [← ht.kindAt_iff_of_lt (Nat.le_refl start) hpos, hkind,
      hu.kindAt_iff_of_lt (Nat.le_refl start) (Nat.lt_trans hpos hlt)]
  -- Where the first token ends, the next one has the same kind.
  have hnext : KindAt ts t.span.stop u.kind := by
    rw [ht.kindAt_tail, hkind, hu.kindAt_iff_of_lt (Nat.le_of_lt hpos) hlt]
    exact ⟨Nat.le_refl _, rfl⟩
  cases ts with
  | nil => obtain ⟨v, hv, -⟩ := hnext; cases hv
  | cons v vs =>
    obtain ⟨hdiffer, -⟩ := List.isChain_cons_cons.1 halt
    rw [htail.kindAt_iff_of_lt (Nat.le_refl _) htail.2.1] at hnext
    exact hdiffer (hsame.trans hnext.symm)

theorem IsFrom.value_eq (ht : t.IsFrom source) (hu : u.IsFrom source) (h : t.span = u.span) :
    t.value = u.value := by
  rw [IsFrom, h] at ht
  exact Except.ok.inj (ht.symm.trans hu)

theorem eq_of_kindAt (ht : Tiles start stop ts) (hu : Tiles start stop us)
    (hfrom : ∀ t ∈ ts, t.IsFrom source) (hfrom' : ∀ u ∈ us, u.IsFrom source)
    (halt : Alternates ts) (halt' : Alternates us)
    (hkind : ∀ q k, KindAt ts q k ↔ KindAt us q k) : ts = us := by
  induction ts generalizing start us with
  | nil =>
    obtain rfl : start = stop := ht
    cases us with
    | nil => rfl
    | cons u us =>
      have hbounds := hu.bounds_of_mem u (List.mem_cons_self ..)
      omega
  | cons t ts ih =>
    cases us with
    | nil =>
      obtain rfl : start = stop := hu
      have hbounds := ht.bounds_of_mem t (List.mem_cons_self ..)
      omega
    | cons u us =>
      have hstop : t.span.stop = u.span.stop :=
        Nat.le_antisymm (stop_le_of_kindAt hu ht halt' fun q k => (hkind q k).symm)
          (stop_le_of_kindAt ht hu halt hkind)
      have hsame : t.kind = u.kind := by
        rw [← ht.kindAt_iff_of_lt (Nat.le_refl start) ht.2.1, hkind,
          hu.kindAt_iff_of_lt (Nat.le_refl start) hu.2.1]
      obtain ⟨ht₀, hts⟩ := List.forall_mem_cons.1 hfrom
      obtain ⟨hu₀, hus⟩ := List.forall_mem_cons.1 hfrom'
      have hspan : t.span = u.span := by
        obtain ⟨kind, value, ⟨_, _⟩⟩ := t
        obtain ⟨kind', value', ⟨_, _⟩⟩ := u
        exact congrArg₂ Span.mk (ht.1.trans hu.1.symm) hstop
      have hhead : t = u := by
        have hvalue := ht₀.value_eq hu₀ hspan
        obtain ⟨kind, value, span⟩ := t
        obtain ⟨kind', value', span'⟩ := u
        obtain rfl : kind = kind' := hsame
        obtain rfl : value = value' := hvalue
        obtain rfl : span = span' := hspan
        rfl
      have htail : ∀ q k, KindAt ts q k ↔ KindAt us q k := by
        intro q k
        rw [ht.kindAt_tail, hu.kindAt_tail, hstop, hkind]
      obtain ⟨-, -, htiles⟩ := ht
      obtain ⟨-, -, htiles'⟩ := hu
      rw [hstop] at htiles
      rw [hhead, ih htiles htiles' hts hus halt.tail halt'.tail htail]

end Uniqueness

theorem isSegmentation_merged (source : List Char) :
    IsSegmentation source (tokenize source) (merged (tokenize source)) where
  tiles := tiles_printed source true
  isFrom := isFrom_of_mem_merged fun _ => isFrom_of_mem_tokenize
  kindAt _ _ := kindAt_merged (tiles_printed source false)
  alternates := alternates_merged (tiles_printed source false)

theorem IsSegmentation.eq {source : List Char} {ts us vs : List Token}
    (hu : IsSegmentation source ts us) (hv : IsSegmentation source ts vs) : us = vs :=
  eq_of_kindAt hu.tiles hv.tiles hu.isFrom hv.isFrom hu.alternates hv.alternates fun q k =>
    (hu.kindAt q k).trans (hv.kindAt q k).symm

/-- Merging gives the one segmentation that there is. -/
theorem merge_tokenize (source : List Char) :
    ∃ ts, merge source (tokenize source) = .ok ts ∧
      (∀ us, IsSegmentation source (tokenize source) us ↔ us = ts) ∧
      ts.filter (fun t => t.kind.standsAlone) =
        (tokenize source).filter fun t => t.kind.standsAlone := by
  refine ⟨_, merge_eq_ok fun _ => isFrom_of_mem_tokenize, fun us => ?_,
    filter_merged (isChain_apart_tokenize source)⟩
  constructor
  · exact fun h => h.eq (isSegmentation_merged source)
  · rintro rfl
    exact isSegmentation_merged source

end Token
end Tony
