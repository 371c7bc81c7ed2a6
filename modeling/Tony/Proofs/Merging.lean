import Mathlib.Data.List.Chain
import Tony.Proofs.Coverage
import Tony.Token.Merge

/-!
Merging of tokens that have the values of their text. Main statements: such tokens can always be
merged, a merged token has the values of its chain one after the other, and the merged tokens cover
what the tokens cover. Tokens may be merged in two parts before they are merged as a whole.
-/

namespace Tony.Token

open Text (SliceError bytes slice slice_eq_ok_iff)

theorem continues_iff {t u : Token} :
    t.continues u ↔ t.kind = u.kind ∧ t.span.stop = u.span.start := by
  rw [continues, Bool.and_eq_true, decide_eq_true_iff, decide_eq_true_iff]

namespace Chain

def tokens (c : Chain) : List Token :=
  c.first :: c.later

end Chain

theorem chains_cons (t : Token) (ts : List Token) :
    chains (t :: ts) = Chain.link t (chains ts) := rfl

theorem flatMap_tokens_chains (ts : List Token) : (chains ts).flatMap Chain.tokens = ts := by
  induction ts with
  | nil => rfl
  | cons t ts ih =>
    rw [chains_cons]
    rcases hc : chains ts with _ | ⟨c, cs⟩
    · rw [hc] at ih
      rw [← ih]
      rfl
    · rw [hc] at ih
      rw [Chain.link]
      split
      · rw [← ih]
        rfl
      · rw [← ih]
        rfl

theorem isChain_of_mem_chains {ts : List Token} {c : Chain} (h : c ∈ chains ts) :
    c.tokens.IsChain fun t u => t.continues u := by
  induction ts generalizing c with
  | nil => cases h
  | cons t ts ih =>
    rw [chains_cons] at h
    rcases hc : chains ts with _ | ⟨d, ds⟩
    · rw [hc] at h
      obtain rfl := List.mem_singleton.1 h
      exact List.isChain_singleton t
    · rw [hc] at h ih
      rw [Chain.link] at h
      have hd := ih (List.mem_cons_self ..)
      split at h
      · rename_i hcont
        rcases List.mem_cons.1 h with rfl | h
        · exact List.isChain_cons_cons.2 ⟨hcont, hd⟩
        · exact ih (List.mem_cons_of_mem d h)
      · rcases List.mem_cons.1 h with rfl | h
        · exact List.isChain_singleton t
        · exact ih h

def extend (t u : Token) : Token :=
  ⟨t.kind, t.value ++ u.value, ⟨t.span.start, u.span.stop⟩⟩

theorem extend_assoc (t u v : Token) : (t.extend u).extend v = t.extend (u.extend v) := by
  simp only [extend, List.append_assoc]

theorem foldl_extend (t u : Token) (us : List Token) :
    us.foldl extend (t.extend u) = t.extend (us.foldl extend u) := by
  induction us generalizing u with
  | nil => rfl
  | cons v us ih => rw [List.foldl_cons, extend_assoc, ih, List.foldl_cons]

theorem IsFrom.extend {source : List Char} {t u : Token} (ht : t.IsFrom source)
    (hu : u.IsFrom source) (h : t.span.stop = u.span.start) : (t.extend u).IsFrom source := by
  obtain ⟨p, r, hsource, hstart, hstop⟩ := slice_eq_ok_iff.1 ht
  obtain ⟨q, w, hsource', hmid, hend⟩ := slice_eq_ok_iff.1 hu
  have hcut : p ++ t.value ++ r = q ++ (u.value ++ w) := by
    rw [← hsource', hsource, List.append_assoc]
  obtain ⟨rfl, rfl⟩ := Text.cut_unique hcut (by rw [hstop, hmid, h])
  refine slice_eq_ok_iff.2 ⟨p, w, ?_, hstart, ?_⟩
  · rw [hsource, Token.extend, List.append_assoc]
  · rw [Token.extend, ← List.append_assoc, hend]

namespace Chain

def whole (c : Chain) : Token :=
  c.later.foldl extend c.first

theorem whole_cons (t u : Token) (us : List Token) :
    whole ⟨t, u :: us⟩ = t.extend (whole ⟨u, us⟩) :=
  foldl_extend t u us

theorem kind_whole (c : Chain) : c.whole.kind = c.first.kind := by
  obtain ⟨t, _ | ⟨u, us⟩⟩ := c
  · rfl
  · rw [whole_cons]
    rfl

theorem start_whole (c : Chain) : c.whole.span.start = c.first.span.start := by
  obtain ⟨t, _ | ⟨u, us⟩⟩ := c
  · rfl
  · rw [whole_cons]
    rfl

theorem foldlM_ofSlice_eq_ok {source : List Char} {t u : Token} {us : List Token}
    (hu : u.IsFrom source) (hus : ∀ v ∈ us, v.IsFrom source)
    (hchain : (u :: us).IsChain fun v w => v.continues w) (hkind : u.kind = t.kind)
    (hstart : u.span.start = t.span.start) :
    us.foldlM (fun _ v => ofSlice t.kind source ⟨t.span.start, v.span.stop⟩) u =
      .ok (us.foldl extend u) := by
  induction us generalizing u with
  | nil => rfl
  | cons v us ih =>
    obtain ⟨huv, htail⟩ := List.isChain_cons_cons.1 hchain
    obtain ⟨-, hside⟩ := continues_iff.1 huv
    -- The joined token takes the place of the first two, and the chain goes on from it.
    have hjoined := hu.extend (hus v (List.mem_cons_self ..)) hside
    have hslice : ofSlice t.kind source ⟨t.span.start, v.span.stop⟩ = .ok (u.extend v) := by
      rw [IsFrom, Token.extend] at hjoined
      rw [ofSlice, ← hstart, hjoined, ← hkind]
      rfl
    have hnext : (u.extend v :: us).IsChain fun v w => v.continues w := by
      cases us with
      | nil => exact List.isChain_singleton _
      | cons w us =>
        obtain ⟨hvw, hrest⟩ := List.isChain_cons_cons.1 htail
        refine List.isChain_cons_cons.2 ⟨?_, hrest⟩
        rw [continues_iff] at huv hvw ⊢
        exact ⟨huv.1.trans hvw.1, hvw.2⟩
    rw [List.foldlM_cons, hslice]
    exact ih hjoined (fun w hw => hus w (List.mem_cons_of_mem v hw)) hnext hkind hstart

theorem join_eq_ok {source : List Char} {c : Chain} (hfrom : ∀ t ∈ c.tokens, t.IsFrom source)
    (hchain : c.tokens.IsChain fun t u => t.continues u) : c.join source = .ok c.whole :=
  foldlM_ofSlice_eq_ok (hfrom c.first (List.mem_cons_self ..))
    (fun t ht => hfrom t (List.mem_cons_of_mem c.first ht)) hchain rfl rfl

theorem mapM_join_eq_ok {source : List Char} {cs : List Chain}
    (h : ∀ c ∈ cs, c.join source = .ok c.whole) :
    cs.mapM (join source) = .ok (cs.map whole) := by
  induction cs with
  | nil => rfl
  | cons c cs ih =>
    obtain ⟨hc, hcs⟩ := List.forall_mem_cons.1 h
    rw [List.mapM_cons, hc, ih hcs]
    rfl

end Chain

def attach (t : Token) : List Token → List Token
  | [] => [t]
  | u :: us => if t.continues u then t.extend u :: us else t :: u :: us

/-- Tokens with the neighbours of one kind made one, without a look at the text. -/
def merged (ts : List Token) : List Token :=
  ts.foldr attach []

@[simp] theorem merged_nil : merged [] = [] := rfl

@[simp] theorem merged_cons (t : Token) (ts : List Token) :
    merged (t :: ts) = attach t (merged ts) := rfl

theorem map_whole_chains (ts : List Token) : (chains ts).map Chain.whole = merged ts := by
  induction ts with
  | nil => rfl
  | cons t ts ih =>
    rw [chains_cons, merged_cons, ← ih]
    rcases chains ts with _ | ⟨c, cs⟩
    · rfl
    · have hcont : t.continues c.whole = t.continues c.first := by
        rw [continues, c.kind_whole, c.start_whole, continues]
      rw [Chain.link, List.map_cons, attach, hcont]
      split
      · rw [List.map_cons, Chain.whole_cons]
      · rfl

theorem merge_eq_ok {source : List Char} {ts : List Token} (h : ∀ t ∈ ts, t.IsFrom source) :
    merge source ts = .ok (merged ts) := by
  have hjoin : ∀ c ∈ chains ts, c.join source = .ok c.whole := by
    intro c hc
    refine Chain.join_eq_ok (fun t ht => h t ?_) (isChain_of_mem_chains hc)
    rw [← flatMap_tokens_chains ts]
    exact List.mem_flatMap_of_mem hc ht
  rw [merge_eq, Chain.mapM_join_eq_ok hjoin, map_whole_chains]

theorem flatMap_value_attach (t : Token) (ts : List Token) :
    (attach t ts).flatMap value = t.value ++ ts.flatMap value := by
  cases ts with
  | nil => rfl
  | cons u us =>
    rw [attach]
    split
    · exact List.append_assoc ..
    · rfl

theorem flatMap_value_merged (ts : List Token) :
    (merged ts).flatMap value = ts.flatMap value := by
  induction ts with
  | nil => rfl
  | cons t ts ih => rw [merged_cons, flatMap_value_attach, ih, List.flatMap_cons]

theorem Tiles.attach {start stop : Nat} {t : Token} {ts : List Token} (hstart : t.span.start = start)
    (hlt : start < t.span.stop) (h : Tiles t.span.stop stop ts) :
    Tiles start stop (attach t ts) := by
  cases ts with
  | nil => exact ⟨hstart, hlt, h⟩
  | cons u us =>
    rw [Token.attach]
    split
    · obtain ⟨-, hu, htail⟩ := h
      exact ⟨hstart, Nat.lt_trans hlt hu, htail⟩
    · exact ⟨hstart, hlt, h⟩

theorem Tiles.merged {start stop : Nat} {ts : List Token} (h : Tiles start stop ts) :
    Tiles start stop (merged ts) := by
  induction ts generalizing start with
  | nil => exact h
  | cons t ts ih =>
    obtain ⟨hstart, hlt, htail⟩ := h
    exact Tiles.attach hstart hlt (ih htail)

theorem isFrom_of_mem_merged {source : List Char} {ts : List Token} (h : ∀ t ∈ ts, t.IsFrom source) :
    ∀ t ∈ merged ts, t.IsFrom source := by
  induction ts with
  | nil => exact List.forall_mem_nil _
  | cons t ts ih =>
    obtain ⟨ht, hts⟩ := List.forall_mem_cons.1 h
    have hmerged := ih hts
    rw [merged_cons]
    rcases hm : merged ts with _ | ⟨u, us⟩
    · exact List.forall_mem_singleton.2 ht
    · rw [hm] at hmerged
      obtain ⟨hu, hus⟩ := List.forall_mem_cons.1 hmerged
      rw [Token.attach]
      split
      · rename_i hcont
        exact List.forall_mem_cons.2 ⟨ht.extend hu (continues_iff.1 hcont).2, hus⟩
      · exact List.forall_mem_cons.2 ⟨ht, hmerged⟩

section Parts

variable {source : List Char} {t u : Token} {ts us : List Token}

theorem attach_extend (h : t.continues u) (ts : List Token) :
    attach (t.extend u) ts = attach t (attach u ts) := by
  obtain ⟨hkind, -⟩ := continues_iff.1 h
  cases ts with
  | nil => exact (if_pos h).symm
  | cons v vs =>
    have hnext : (t.extend u).continues v = u.continues v := by
      rw [continues, continues, ← hkind]
      rfl
    rw [attach, hnext, attach]
    split
    · have hfirst : t.continues (u.extend v) := h
      rw [attach, if_pos hfirst, extend_assoc]
    · rw [attach, if_pos h]

theorem foldr_attach_attach (t : Token) (ts us : List Token) :
    (attach t ts).foldr attach us = attach t (ts.foldr attach us) := by
  cases ts with
  | nil => rfl
  | cons v vs =>
    rw [attach]
    split
    · rename_i hcont
      exact attach_extend hcont _
    · rfl

theorem foldr_attach_merged (ts us : List Token) :
    (merged ts).foldr attach us = ts.foldr attach us := by
  induction ts with
  | nil => rfl
  | cons t ts ih => rw [merged_cons, foldr_attach_attach, ih, List.foldr_cons]

theorem merged_merged (ts : List Token) : merged (merged ts) = merged ts :=
  foldr_attach_merged ts []

theorem merged_append_merged (ts us : List Token) :
    merged (merged ts ++ merged us) = merged (ts ++ us) := by
  calc merged (merged ts ++ merged us)
      = (merged ts).foldr attach (merged (merged us)) := List.foldr_append
    _ = ts.foldr attach (merged us) := by rw [foldr_attach_merged, merged_merged]
    _ = merged (ts ++ us) := List.foldr_append.symm

/-- Merging again changes nothing, and it makes no difference where the tokens are cut in two to be
merged in parts. -/
theorem merge_append (hts : ∀ t ∈ ts, t.IsFrom source) (hus : ∀ u ∈ us, u.IsFrom source) :
    ∃ vs ws ms, merge source ts = .ok vs ∧ merge source us = .ok ws ∧
      merge source (ts ++ us) = .ok ms ∧ merge source vs = .ok vs ∧
      merge source (vs ++ ws) = .ok ms := by
  have hvs := isFrom_of_mem_merged hts
  have hws := isFrom_of_mem_merged hus
  refine ⟨merged ts, merged us, merged (ts ++ us), merge_eq_ok hts, merge_eq_ok hus,
    merge_eq_ok (List.forall_mem_append.2 ⟨hts, hus⟩), ?_, ?_⟩
  · rw [merge_eq_ok hvs, merged_merged]
  · rw [merge_eq_ok (List.forall_mem_append.2 ⟨hvs, hws⟩), merged_append_merged]

theorem merge_append_name :
    let ts : List Token := [⟨.name, ['a'], ⟨0, 1⟩⟩, ⟨.name, [], ⟨1, 1⟩⟩]
    let us : List Token := [⟨.name, ['é'], ⟨1, 3⟩⟩, ⟨.name, ['a'], ⟨0, 1⟩⟩]
    let vs : List Token := [⟨.name, ['a'], ⟨0, 1⟩⟩]
    let ms : List Token := [⟨.name, ['a', 'é'], ⟨0, 3⟩⟩, ⟨.name, ['a'], ⟨0, 1⟩⟩]
    (∀ t ∈ ts, t.IsFrom ['a', 'é']) ∧ (∀ u ∈ us, u.IsFrom ['a', 'é']) ∧
      merge ['a', 'é'] ts = .ok vs ∧ merge ['a', 'é'] vs = .ok vs ∧
      merge ['a', 'é'] (ts ++ us) = .ok ms ∧ merge ['a', 'é'] (vs ++ us) = .ok ms := by
  intro ts us vs ms
  have hts : ∀ t ∈ ts, t.IsFrom ['a', 'é'] := by
    rw [List.forall_mem_cons, List.forall_mem_singleton]
    exact ⟨rfl, rfl⟩
  have hus : ∀ u ∈ us, u.IsFrom ['a', 'é'] := by
    rw [List.forall_mem_cons, List.forall_mem_singleton]
    exact ⟨rfl, rfl⟩
  have hfirst : merge ['a', 'é'] ts = .ok vs := rfl
  have hsecond : merge ['a', 'é'] us = .ok us := rfl
  have hwhole : merge ['a', 'é'] (ts ++ us) = .ok ms := rfl
  obtain ⟨_, _, _, hv, hw, hm, hagain, hparts⟩ := merge_append hts hus
  obtain rfl := Except.ok.inj (hfirst.symm.trans hv)
  obtain rfl := Except.ok.inj (hsecond.symm.trans hw)
  obtain rfl := Except.ok.inj (hwhole.symm.trans hm)
  exact ⟨hts, hus, hfirst, hagain, hwhole, hparts⟩

end Parts

end Tony.Token
