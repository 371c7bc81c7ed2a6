import Mathlib.Data.List.SplitBy
import Tony.Proofs.Boundary
import Tony.Proofs.Merging

/-!
Chains of tokens and what merging makes of them, for tokens that need not have anything to do with
the text. Main statement: the chains are the one way of cutting up the tokens where they stop to
continue each other. Merging gives a token for each chain, and fails just where a chain of two
tokens or more has to be cut out of the text and cannot be. It is the same as adding the tokens one
by one, each as a part of the latest if it continues that.
-/

namespace Tony

open Text (IsBoundary InsideCharacter SliceError bytes slice slice_eq_ok_iff)

section Except

variable {α β ε : Type} {f : α → Except ε β} {xs : List α}

theorem exists_error_iff {x : Except ε α} : (∃ e, x = .error e) ↔ ¬ ∃ a, x = .ok a := by
  cases x with
  | error e => exact iff_of_true ⟨e, rfl⟩ nofun
  | ok a => exact iff_of_false nofun (not_not.2 ⟨a, rfl⟩)

theorem bind_eq_ok_iff {x : Except ε α} {g : α → Except ε β} {y : β} :
    x >>= g = .ok y ↔ ∃ a, x = .ok a ∧ g a = .ok y := by
  constructor
  · intro h
    cases x with
    | error e => cases h
    | ok a => exact ⟨a, rfl, h⟩
  · rintro ⟨a, rfl, h⟩
    exact h

theorem mapM_eq_ok_iff {ys : List β} :
    xs.mapM f = .ok ys ↔ List.Forall₂ (fun x y => f x = .ok y) xs ys := by
  induction xs generalizing ys with
  | nil =>
    rw [List.forall₂_nil_left_iff]
    exact ⟨fun h => (Except.ok.inj h).symm, congrArg Except.ok ∘ Eq.symm⟩
  | cons x xs ih =>
    rw [List.mapM_cons, bind_eq_ok_iff, List.forall₂_cons_left_iff]
    constructor
    · rintro ⟨y, hx, h⟩
      obtain ⟨zs, hxs, h⟩ := bind_eq_ok_iff.1 h
      exact ⟨y, zs, hx, ih.1 hxs, (Except.ok.inj h).symm⟩
    · rintro ⟨y, zs, hx, hxs, rfl⟩
      exact ⟨y, hx, bind_eq_ok_iff.2 ⟨zs, ih.2 hxs, rfl⟩⟩

theorem exists_mapM_iff : (∃ ys, xs.mapM f = .ok ys) ↔ ∀ x ∈ xs, ∃ y, f x = .ok y := by
  induction xs with
  | nil => exact iff_of_true ⟨[], rfl⟩ (List.forall_mem_nil _)
  | cons x xs ih =>
    rw [List.forall_mem_cons, ← ih]
    simp only [mapM_eq_ok_iff, List.forall₂_cons_left_iff]
    constructor
    · rintro ⟨_, y, ys, hx, hxs, rfl⟩
      exact ⟨⟨y, hx⟩, ys, hxs⟩
    · rintro ⟨⟨y, hx⟩, ys, hxs⟩
      exact ⟨y :: ys, y, ys, hx, hxs, rfl⟩

end Except

namespace Token

namespace Chain

def last (c : Chain) : Token :=
  c.tokens.getLast (List.cons_ne_nil _ _)

/-- The bytes where a chain of two tokens or more has to be cut out of a text. Each token that is
added makes for a cut. -/
def cuts (c : Chain) : List Nat :=
  if c.later = [] then [] else c.first.span.start :: c.later.map fun t => t.span.stop

/-- The token that a chain becomes. Only that of a chain of two tokens or more has its value from
the text. -/
structure JoinsTo (source : List Char) (c : Chain) (t : Token) : Prop where
  kind : t.kind = c.first.kind
  span : t.span = ⟨c.first.span.start, c.last.span.stop⟩
  value : if c.later = [] then t.value = c.first.value else t.IsFrom source

end Chain

/-- Chains that tokens are cut into, none of which could go on with the next one. -/
structure IsChaining (ts : List Token) (cs : List Chain) : Prop where
  tokens : cs.flatMap Chain.tokens = ts
  linked : ∀ c ∈ cs, c.tokens.IsChain fun t u => t.continues u
  maximal : cs.IsChain fun c d => ¬ c.last.continues d.first

/-- Adds a token to merged ones, of which the latest comes first. If the token continues the latest,
that is made longer and gets the value that the text has over both. -/
def push (source : List Char) : List Token → Token → Except SliceError (List Token)
  | [], t => .ok [t]
  | u :: us, t =>
    if u.continues t then
      (ofSlice u.kind source ⟨u.span.start, t.span.stop⟩).map fun joined => joined :: us
    else .ok (t :: u :: us)

section Chaining

variable {ts : List Token} {cs ds : List Chain}

theorem last_cons (t u : Token) (us : List Token) :
    Chain.last ⟨t, u :: us⟩ = Chain.last ⟨u, us⟩ := rfl

theorem maximal_chains (ts : List Token) :
    (chains ts).IsChain fun c d => ¬ c.last.continues d.first := by
  induction ts with
  | nil => exact .nil
  | cons t ts ih =>
    rw [chains_cons]
    rcases hc : chains ts with _ | ⟨c, cs⟩
    · exact .singleton _
    · rw [hc] at ih
      rw [Chain.link]
      split
      · exact List.isChain_cons.2 ⟨(List.isChain_cons.1 ih).1, ih.tail⟩
      · rename_i hcont
        exact List.isChain_cons_cons.2 ⟨hcont, ih⟩

theorem isChaining_chains (ts : List Token) : IsChaining ts (chains ts) where
  tokens := flatMap_tokens_chains ts
  linked := fun _ => isChain_of_mem_chains
  maximal := maximal_chains ts

theorem IsChaining.splitBy_eq (h : IsChaining ts cs) :
    ts.splitBy continues = cs.map Chain.tokens := by
  refine List.splitBy_eq_iff.2 ⟨?_, ?_, ?_, ?_⟩
  · rw [← List.flatMap_def, h.tokens]
  · intro hmem
    obtain ⟨c, -, hc⟩ := List.mem_map.1 hmem
    exact absurd hc (List.cons_ne_nil _ _)
  · exact List.forall_mem_map.2 h.linked
  · rw [List.isChain_map]
    refine h.maximal.imp fun c d hcd => ?_
    exact ⟨List.cons_ne_nil _ _, List.cons_ne_nil _ _, Bool.eq_false_iff.2 hcd⟩

theorem Chain.tokens_injective : Function.Injective Chain.tokens := by
  rintro ⟨t, ts⟩ ⟨u, us⟩ h
  obtain ⟨rfl, rfl⟩ := List.cons.inj h
  rfl

theorem isChaining_iff : IsChaining ts cs ↔ cs = chains ts := by
  constructor
  · intro h
    refine Chain.tokens_injective.list_map ?_
    rw [← h.splitBy_eq, (isChaining_chains ts).splitBy_eq]
  · rintro rfl
    exact isChaining_chains ts

end Chaining

section Joining

variable {source : List Char} {c : Chain} {t u : Token} {us : List Token}

theorem ofSlice_eq_ok_iff {k : Kind} {span : Span} :
    ofSlice k source span = .ok t ↔ t.kind = k ∧ t.span = span ∧ t.IsFrom source := by
  rw [ofSlice, IsFrom]
  constructor
  · intro h
    rcases hs : slice source span.start span.stop with e | value
    · rw [hs] at h; cases h
    · rw [hs] at h
      obtain rfl := Except.ok.inj h
      exact ⟨rfl, rfl, hs⟩
  · rintro ⟨rfl, rfl, hs⟩
    rw [hs]
    rfl

theorem foldlM_ofSlice_eq_ok_iff {k : Kind} {start : Nat} :
    us.foldlM (fun _ v => ofSlice k source ⟨start, v.span.stop⟩) u = .ok t ↔
      (∀ v ∈ us, ∃ w, slice source start v.span.stop = .ok w) ∧
        if us = [] then t = u
        else ofSlice k source ⟨start, (Chain.last ⟨u, us⟩).span.stop⟩ = .ok t := by
  induction us generalizing u with
  | nil =>
    rw [if_pos rfl, and_iff_right (List.forall_mem_nil _)]
    exact ⟨fun h => (Except.ok.inj h).symm, congrArg Except.ok ∘ Eq.symm⟩
  | cons v us ih =>
    rw [List.foldlM_cons, List.forall_mem_cons, if_neg (List.cons_ne_nil v us)]
    rcases hs : slice source start v.span.stop with e | w
    · have hslice : ofSlice k source ⟨start, v.span.stop⟩ = .error e := by
        rw [ofSlice, hs]
        rfl
      rw [hslice]
      constructor
      · intro h
        cases h
      · rintro ⟨⟨⟨w, hw⟩, -⟩, -⟩
        cases hw
    · have hslice : ofSlice k source ⟨start, v.span.stop⟩ = .ok ⟨k, w, ⟨start, v.span.stop⟩⟩ :=
        ofSlice_eq_ok_iff.2 ⟨rfl, rfl, hs⟩
      rw [hslice]
      refine ih.trans ?_
      rw [and_iff_right (⟨w, rfl⟩ : ∃ x, Except.ok w = .ok x), last_cons]
      refine and_congr_right fun _ => ?_
      cases us with
      | nil =>
        rw [if_pos rfl]
        show _ ↔ ofSlice k source ⟨start, v.span.stop⟩ = .ok t
        rw [hslice]
        exact ⟨congrArg Except.ok ∘ Eq.symm, fun h => (Except.ok.inj h).symm⟩
      | cons x us => rw [if_neg (List.cons_ne_nil x us), last_cons, last_cons]

theorem Chain.join_eq_ok_iff :
    c.join source = .ok t ↔
      (∀ v ∈ c.later, ∃ w, slice source c.first.span.start v.span.stop = .ok w) ∧
        c.JoinsTo source t := by
  rw [join, foldlM_ofSlice_eq_ok_iff]
  refine and_congr_right fun _ => ?_
  split
  · rename_i hlater
    obtain ⟨first, later⟩ := c
    obtain rfl : later = [] := hlater
    constructor
    · rintro rfl
      exact ⟨rfl, rfl, rfl⟩
    · rintro ⟨hkind, hspan, hvalue⟩
      obtain ⟨kind, value, span⟩ := t
      obtain rfl : kind = first.kind := hkind
      obtain rfl : value = first.value := hvalue
      obtain rfl : span = first.span := hspan
      rfl
  · rename_i hlater
    rw [ofSlice_eq_ok_iff]
    constructor
    · rintro ⟨hkind, hspan, hfrom⟩
      exact ⟨hkind, hspan, by rwa [if_neg hlater]⟩
    · rintro ⟨hkind, hspan, hvalue⟩
      rw [if_neg hlater] at hvalue
      exact ⟨hkind, hspan, hvalue⟩

theorem Chain.exists_join_iff :
    (∃ t, c.join source = .ok t) ↔
      ∀ v ∈ c.later, ∃ w, slice source c.first.span.start v.span.stop = .ok w := by
  constructor
  · rintro ⟨t, ht⟩
    exact (join_eq_ok_iff.1 ht).1
  · intro h
    by_cases hlater : c.later = []
    · obtain ⟨first, later⟩ := c
      obtain rfl : later = [] := hlater
      exact ⟨first, rfl⟩
    · have hlast : c.last ∈ c.later := by
        show (c.first :: c.later).getLast (List.cons_ne_nil _ _) ∈ c.later
        rw [List.getLast_cons hlater]
        exact List.getLast_mem hlater
      obtain ⟨w, hw⟩ := h _ hlast
      refine ⟨⟨c.first.kind, w, ⟨c.first.span.start, c.last.span.stop⟩⟩, ?_⟩
      refine join_eq_ok_iff.2 ⟨h, rfl, rfl, ?_⟩
      rw [if_neg hlater]
      exact hw

theorem start_le_stop (h : ∀ v ∈ t :: us, v.span.start ≤ v.span.stop)
    (hchain : (t :: us).IsChain fun v w => v.continues w) :
    ∀ v ∈ t :: us, t.span.start ≤ v.span.stop := by
  induction us generalizing t with
  | nil => exact List.forall_mem_singleton.2 (h t (List.mem_cons_self ..))
  | cons u us ih =>
    obtain ⟨ht, hus⟩ := List.forall_mem_cons.1 h
    obtain ⟨hcont, htail⟩ := List.isChain_cons_cons.1 hchain
    refine List.forall_mem_cons.2 ⟨ht, fun v hv => ?_⟩
    have hle := ih hus htail v hv
    rw [← (continues_iff.1 hcont).2] at hle
    exact ht.trans hle

theorem Chain.exists_join_iff_cuts (h : ∀ t ∈ c.tokens, t.span.start ≤ t.span.stop)
    (hchain : c.tokens.IsChain fun t u => t.continues u) :
    (∃ t, c.join source = .ok t) ↔ ∀ q ∈ c.cuts, IsBoundary source q := by
  have hle := start_le_stop h hchain
  have hslice : ∀ v ∈ c.later,
      ((∃ w, slice source c.first.span.start v.span.stop = .ok w) ↔
        IsBoundary source c.first.span.start ∧ IsBoundary source v.span.stop) :=
    fun v hv => Text.exists_slice_iff (hle v (List.mem_cons_of_mem _ hv))
  rw [exists_join_iff, cuts]
  split
  · rename_i hlater
    rw [hlater]
    exact iff_of_true (List.forall_mem_nil _) (List.forall_mem_nil _)
  · rename_i hlater
    obtain ⟨v, hv⟩ := List.exists_mem_of_ne_nil _ hlater
    rw [List.forall_mem_cons, List.forall_mem_map]
    constructor
    · intro hall
      exact ⟨((hslice v hv).1 (hall v hv)).1, fun w hw => ((hslice w hw).1 (hall w hw)).2⟩
    · rintro ⟨hstart, hstops⟩ w hw
      exact (hslice w hw).2 ⟨hstart, hstops w hw⟩

end Joining

section Pushing

variable {source : List Char} {c : Chain} {t u : Token} {ts us ms : List Token} {cs : List Chain}

theorem push_of_continues (h : u.continues t) :
    push source (u :: ms) t =
      (ofSlice u.kind source ⟨u.span.start, t.span.stop⟩).map fun joined => joined :: ms :=
  if_pos h

theorem push_of_not_continues (h : ∀ u ∈ ms.head?, ¬ u.continues t) :
    push source ms t = .ok (t :: ms) := by
  cases ms with
  | nil => rfl
  | cons u ms => exact if_neg (h u rfl)

theorem isChain_of_head (hkind : u.kind = t.kind) (hstop : u.span.stop = t.span.stop)
    (h : (t :: us).IsChain fun v w => v.continues w) :
    (u :: us).IsChain fun v w => v.continues w := by
  obtain ⟨hnext, htail⟩ := List.isChain_cons.1 h
  refine List.isChain_cons.2 ⟨fun v hv => ?_, htail⟩
  rw [continues_iff, hkind, hstop]
  exact continues_iff.1 (hnext v hv)

theorem foldlM_push_of_chain (h : (u :: us).IsChain fun v w => v.continues w) :
    us.foldlM (push source) (u :: ms) =
      (us.foldlM (fun _ v => ofSlice u.kind source ⟨u.span.start, v.span.stop⟩) u).map
        fun joined => joined :: ms := by
  induction us generalizing u with
  | nil => rfl
  | cons v us ih =>
    obtain ⟨hcont, htail⟩ := List.isChain_cons_cons.1 h
    rw [List.foldlM_cons, List.foldlM_cons, push_of_continues hcont]
    cases hs : ofSlice u.kind source ⟨u.span.start, v.span.stop⟩ with
    | error e => rfl
    | ok w =>
      obtain ⟨hkind, hspan, -⟩ := ofSlice_eq_ok_iff.1 hs
      have hlatest : (w :: us).IsChain fun x y => x.continues y :=
        isChain_of_head (hkind.trans (continues_iff.1 hcont).1) (by rw [hspan]) htail
      have hnext := ih hlatest
      rw [hkind, hspan] at hnext
      exact hnext

theorem foldlM_push_tokens (h : c.tokens.IsChain fun t u => t.continues u)
    (hms : ∀ u ∈ ms.head?, ¬ u.continues c.first) :
    c.tokens.foldlM (push source) ms = (c.join source).map fun joined => joined :: ms := by
  rw [Chain.tokens, List.foldlM_cons, push_of_not_continues hms]
  exact foldlM_push_of_chain h

theorem Chain.kind_last (h : c.tokens.IsChain fun t u => t.continues u) :
    c.last.kind = c.first.kind := by
  obtain ⟨t, us⟩ := c
  induction us generalizing t with
  | nil => rfl
  | cons u us ih =>
    obtain ⟨hcont, htail⟩ := List.isChain_cons_cons.1 h
    rw [last_cons, ih u htail]
    exact (continues_iff.1 hcont).1.symm

theorem foldlM_push_chains (hlinked : ∀ c ∈ cs, c.tokens.IsChain fun t u => t.continues u)
    (hmaximal : cs.IsChain fun c d => ¬ c.last.continues d.first)
    (hms : ∀ u ∈ ms.head?, ∀ c ∈ cs.head?, ¬ u.continues c.first) :
    (cs.flatMap Chain.tokens).foldlM (push source) ms =
      (cs.mapM (Chain.join source)).map fun us => us.reverse ++ ms := by
  induction cs generalizing ms with
  | nil => rfl
  | cons c cs ih =>
    obtain ⟨hc, hcs⟩ := List.forall_mem_cons.1 hlinked
    obtain ⟨hnext, htail⟩ := List.isChain_cons.1 hmaximal
    rw [List.flatMap_cons, List.foldlM_append, List.mapM_cons,
      foldlM_push_tokens hc fun u hu => hms u hu c rfl]
    cases hj : c.join source with
    | error e => rfl
    | ok t =>
      obtain ⟨-, hkind, hspan, -⟩ := Chain.join_eq_ok_iff.1 hj
      have hlast : ∀ d ∈ cs.head?, ¬ t.continues d.first := by
        intro d hd hcont
        refine hnext d hd ?_
        rw [continues_iff, hkind, hspan, ← Chain.kind_last hc] at hcont
        exact continues_iff.2 hcont
      have hlatest : ∀ u ∈ (t :: ms).head?, ∀ d ∈ cs.head?, ¬ u.continues d.first := by
        intro u hu
        obtain rfl := Option.some.inj hu
        exact hlast
      refine (ih hcs htail hlatest).trans ?_
      cases hm : cs.mapM (Chain.join source) with
      | error e => rfl
      | ok us =>
        show Except.ok (us.reverse ++ t :: ms) = .ok ((t :: us).reverse ++ ms)
        rw [List.reverse_cons, List.append_assoc]
        rfl

theorem merge_eq_foldlM (source : List Char) (ts : List Token) :
    merge source ts = (ts.foldlM (push source) []).map List.reverse := by
  have h := isChaining_chains ts
  have hms : ∀ u ∈ ([] : List Token).head?, ∀ c ∈ (chains ts).head?, ¬ u.continues c.first :=
    nofun
  have hfold : ((chains ts).flatMap Chain.tokens).foldlM (push source) [] =
      ((chains ts).mapM (Chain.join source)).map fun us => us.reverse ++ [] :=
    foldlM_push_chains h.linked h.maximal hms
  rw [h.tokens] at hfold
  rw [hfold, merge_eq]
  cases (chains ts).mapM (Chain.join source) with
  | error e => rfl
  | ok us => simp [Except.map]

end Pushing

/-- What merging gives, and when it fails. -/
theorem merge_chains {source : List Char} {ts : List Token}
    (h : ∀ t ∈ ts, t.span.start ≤ t.span.stop) :
    merge source ts = (ts.foldlM (push source) []).map List.reverse ∧
    ∃ cs, (∀ ds, IsChaining ts ds ↔ ds = cs) ∧
      ((∃ e, merge source ts = .error e) ↔
        ∃ c ∈ cs, ∃ q ∈ c.cuts, bytes source < q ∨ InsideCharacter source q) ∧
      ∀ us, merge source ts = .ok us → List.Forall₂ (Chain.JoinsTo source) cs us := by
  refine ⟨merge_eq_foldlM source ts, chains ts, fun ds => isChaining_iff, ?_, fun us hus => ?_⟩
  · have hjoin : ∀ c ∈ chains ts,
        ((∃ t, c.join source = .ok t) ↔ ∀ q ∈ c.cuts, IsBoundary source q) := by
      intro c hc
      refine Chain.exists_join_iff_cuts (fun t ht => h t ?_) (isChain_of_mem_chains hc)
      rw [← flatMap_tokens_chains ts]
      exact List.mem_flatMap_of_mem hc ht
    rw [exists_error_iff, merge_eq, exists_mapM_iff, forall₂_congr hjoin]
    simp only [Text.isBoundary_or, not_forall, not_not, exists_prop]
  · rw [merge_eq] at hus
    exact (mapM_eq_ok_iff.1 hus).imp fun c t ht => (Chain.join_eq_ok_iff.1 ht).2

/-- The first two tokens meet inside the accent, where the text is never cut, and the third one is
past the end of the text, where nothing is cut out for a token by itself. -/
theorem merge_chains_accent :
    let ts : List Token :=
      [⟨.name, ['x'], ⟨0, 1⟩⟩, ⟨.name, ['y'], ⟨1, 2⟩⟩, ⟨.string, ['z'], ⟨7, 9⟩⟩]
    let us : List Token := [⟨.name, ['é'], ⟨0, 2⟩⟩, ⟨.string, ['z'], ⟨7, 9⟩⟩]
    (∀ t ∈ ts, t.span.start ≤ t.span.stop) ∧ merge ['é'] ts = .ok us ∧
      ∃ cs, IsChaining ts cs ∧ List.Forall₂ (Chain.JoinsTo ['é']) cs us ∧
        ∀ c ∈ cs, ∀ q ∈ c.cuts, ¬ (bytes ['é'] < q ∨ InsideCharacter ['é'] q) := by
  intro ts us
  have hspans : ∀ t ∈ ts, t.span.start ≤ t.span.stop := by decide
  have hmerge : merge ['é'] ts = .ok us := by rfl
  obtain ⟨-, cs, hcs, herror, hjoins⟩ := @merge_chains ['é'] ts hspans
  refine ⟨hspans, hmerge, cs, (hcs cs).2 rfl, hjoins us hmerge, fun c hc q hq hout => ?_⟩
  obtain ⟨e, he⟩ := herror.2 ⟨c, hc, q, hq, hout⟩
  rw [hmerge] at he
  cases he

end Token
end Tony
