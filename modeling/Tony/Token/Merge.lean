import Tony.Text.Cursor
import Tony.Token.Basic

/-!
Merging of neighbours. Tokens are cut into chains, in which each next token is of the same kind and
begins where the one before it ends. A chain of one token is left as it is, and a longer one becomes
a token with the value that the text has over the whole of it. Main statement: merging goes through
the text once, and gives what cutting the text anew for each join gives.
-/

namespace Tony.Token

open Text (Cursor SliceError bytes cut)

def continues (t next : Token) : Bool :=
  t.kind = next.kind && t.span.stop = next.span.start

structure Chain where
  first : Token
  later : List Token := []
  deriving DecidableEq, Repr

namespace Chain

def link (t : Token) : List Chain → List Chain
  | [] => [⟨t, []⟩]
  | chain :: chains =>
    if t.continues chain.first then ⟨t, chain.first :: chain.later⟩ :: chains
    else ⟨t, []⟩ :: chain :: chains

/-- Joins the later tokens to the first one by one, each time with the value of `source`. -/
def join (source : List Char) (chain : Chain) : Except SliceError Token :=
  chain.later.foldlM
    (fun _ t => ofSlice chain.first.kind source ⟨chain.first.span.start, t.span.stop⟩) chain.first

def reachEnd (start : Nat) (here : Cursor) (t : Token) : Except SliceError Cursor :=
  if t.span.stop < start then .error .reversed else here.reach t.span.stop

/-- Joins a chain with a cursor over the text, which is left at the end of the chain. All ends are
gone to, and the value is read once. -/
def joinAt (here : Cursor) (chain : Chain) : Except SliceError (Token × Cursor) :=
  if chain.later.isEmpty then .ok (chain.first, here)
  else do
    let start := chain.first.span.start
    let begun ← here.reach start
    let ended ← chain.later.foldlM (reachEnd start) begun
    let (value, _) ← cut [] (ended.offset - start) begun.ahead
    return (⟨chain.first.kind, value.reverse, ⟨start, ended.offset⟩⟩, ended)

def readFrom (chain : Chain) (begun ended : Cursor) : Except SliceError Token :=
  (cut [] (ended.offset - chain.first.span.start) begun.ahead).map fun (value, _) =>
    ⟨chain.first.kind, value.reverse, ⟨chain.first.span.start, ended.offset⟩⟩

theorem ofSlice_eq_of_reach {chain : Chain} {here begun cur : Cursor} (t : Token)
    (hb : here.reach chain.first.span.start = .ok begun) (hc : cur.text = here.text) :
    ofSlice chain.first.kind here.text ⟨chain.first.span.start, t.span.stop⟩ =
      (reachEnd chain.first.span.start cur t).bind (chain.readFrom begun) := by
  rw [ofSlice, Cursor.slice_eq_reach, hb, reachEnd]
  by_cases hlt : t.span.stop < chain.first.span.start
  · simp only [Except.bind, bind, if_pos hlt]
  · have h := Cursor.cut_ahead_eq_reach hb hc (Nat.le_of_not_lt hlt)
    simp only [Except.bind, bind, if_neg hlt]
    rcases hr : cur.reach t.span.stop with e | d
    · rw [hr] at h
      cases hcut : cut [] (t.span.stop - chain.first.span.start) begun.ahead with
      | error e' =>
        rw [hcut] at h
        cases h
        rfl
      | ok v => rw [hcut] at h; cases h
    · simp only [readFrom, (Cursor.text_of_reach hr).2]
      cases cut [] (t.span.stop - chain.first.span.start) begun.ahead <;> rfl

theorem readFrom_of_reachEnd {chain : Chain} {here begun cur next : Cursor} {t : Token}
    (hb : here.reach chain.first.span.start = .ok begun) (hc : cur.text = here.text)
    (hn : reachEnd chain.first.span.start cur t = .ok next) :
    next.text = here.text ∧ ∃ u, chain.readFrom begun next = .ok u := by
  rw [reachEnd] at hn
  split at hn
  · cases hn
  · rename_i hle
    obtain ⟨ht, ho⟩ := Cursor.text_of_reach hn
    refine ⟨ht.trans hc, ?_⟩
    have h := Cursor.cut_ahead_eq_reach hb hc (Nat.le_of_not_lt hle)
    rw [hn] at h
    rw [readFrom, ho]
    cases hcut : cut [] (t.span.stop - chain.first.span.start) begun.ahead with
    | error e => rw [hcut] at h; cases h
    | ok v => exact ⟨_, rfl⟩

/-- Joining one by one is going to all ends and reading once. -/
theorem foldlM_ofSlice_eq {chain : Chain} {here begun cur : Cursor} {t : Token} (ts : List Token)
    (hb : here.reach chain.first.span.start = .ok begun) (hc : cur.text = here.text)
    (ht : chain.readFrom begun cur = .ok t) :
    ts.foldlM (fun _ t =>
        ofSlice chain.first.kind here.text ⟨chain.first.span.start, t.span.stop⟩) t =
      (ts.foldlM (reachEnd chain.first.span.start) cur).bind (chain.readFrom begun) := by
  induction ts generalizing cur t with
  | nil => exact ht.symm
  | cons u ts ih =>
    rw [List.foldlM_cons, List.foldlM_cons, ofSlice_eq_of_reach u hb hc]
    cases hn : reachEnd chain.first.span.start cur u with
    | error e => rfl
    | ok next =>
      obtain ⟨htext, v, hv⟩ := readFrom_of_reachEnd hb hc hn
      simp only [Except.bind, bind, hv]
      exact ih htext hv

theorem joinAt_eq (chain : Chain) (here : Cursor) :
    (chain.joinAt here).map Prod.fst = chain.join here.text := by
  rw [joinAt, join]
  cases hl : chain.later with
  | nil => rfl
  | cons u us =>
    rw [List.foldlM_cons]
    simp only [List.isEmpty_cons, Bool.false_eq_true, if_false, bind, Except.bind]
    rcases hb : here.reach chain.first.span.start with e | begun
    · rw [ofSlice, Cursor.slice_eq_reach, hb]
      rfl
    · rw [ofSlice_eq_of_reach u hb (Cursor.text_of_reach hb).1]
      simp only [List.foldlM_cons, bind, Except.bind]
      rcases hn : reachEnd chain.first.span.start begun u with e | next
      · rfl
      · obtain ⟨htext, v, hv⟩ := readFrom_of_reachEnd hb (Cursor.text_of_reach hb).1 hn
        simp only [hv]
        rw [foldlM_ofSlice_eq us hb htext hv]
        rcases us.foldlM (reachEnd chain.first.span.start) next with e | ended
        · rfl
        · simp only [readFrom, Except.bind]
          cases cut [] (ended.offset - chain.first.span.start) begun.ahead <;> rfl

theorem text_of_joinAt {chain : Chain} {here next : Cursor} {t : Token}
    (h : chain.joinAt here = .ok (t, next)) : next.text = here.text := by
  rw [joinAt] at h
  split at h
  · cases h; rfl
  · rcases hb : here.reach chain.first.span.start with e | begun
    · simp only [hb, bind, Except.bind] at h; cases h
    · have key : ∀ (ts : List Token) (cur ended : Cursor), cur.text = here.text →
          ts.foldlM (reachEnd chain.first.span.start) cur = .ok ended →
          ended.text = here.text := by
        intro ts
        induction ts with
        | nil => intro cur ended hc he; cases he; exact hc
        | cons u us ih =>
          intro cur ended hc he
          rw [List.foldlM_cons] at he
          rcases hn : reachEnd chain.first.span.start cur u with e | mid
          · rw [hn] at he; cases he
          · rw [hn] at he
            exact ih mid ended (readFrom_of_reachEnd hb hc hn).1 he
      simp only [hb, bind, Except.bind] at h
      rcases hf : chain.later.foldlM (reachEnd chain.first.span.start) begun with e | ended
      · rw [hf] at h; cases h
      · simp only [hf] at h
        rcases hcut : cut [] (ended.offset - chain.first.span.start) begun.ahead with e | v
        · rw [hcut] at h; cases h
        · rw [hcut] at h
          cases h
          exact key _ _ _ (Cursor.text_of_reach hb).1 hf

end Chain

def chains (tokens : List Token) : List Chain :=
  tokens.foldr Chain.link []

def absorb (merged : List Token × Cursor) (chain : Chain) :
    Except SliceError (List Token × Cursor) := do
  let (t, here) ← chain.joinAt merged.2
  return (t :: merged.1, here)

def merge (source : List Char) (tokens : List Token) : Except SliceError (List Token) := do
  let (merged, _) ← (chains tokens).foldlM absorb ([], Cursor.start source)
  return merged.reverse

theorem foldlM_absorb_eq (cs : List Chain) (merged : List Token) (here : Cursor) :
    (cs.foldlM absorb (merged, here)).map Prod.fst =
      (cs.mapM (Chain.join here.text)).map fun ts => ts.reverse ++ merged := by
  induction cs generalizing merged here with
  | nil => rfl
  | cons chain cs ih =>
    have hj := chain.joinAt_eq here
    rw [List.foldlM_cons, List.mapM_cons, ← hj, absorb]
    rcases h : chain.joinAt here with e | ⟨t, next⟩
    · rfl
    · have hi := ih (t :: merged) next
      rw [Chain.text_of_joinAt h] at hi
      simp only [bind, Except.bind, Except.map, pure, Except.pure] at hi ⊢
      rw [hi]
      cases cs.mapM (Chain.join here.text) <;> simp

theorem merge_eq (source : List Char) (tokens : List Token) :
    merge source tokens = (chains tokens).mapM (Chain.join source) := by
  have h := foldlM_absorb_eq (chains tokens) [] (Cursor.start source)
  rw [Cursor.text_start] at h
  rw [merge]
  rcases hf : (chains tokens).foldlM absorb ([], Cursor.start source) with e | ⟨ts, c⟩
  · rw [hf] at h
    cases hm : (chains tokens).mapM (Chain.join source) with
    | error e' => rw [hm] at h; cases h; rfl
    | ok us => rw [hm] at h; cases h
  · rw [hf] at h
    cases hm : (chains tokens).mapM (Chain.join source) with
    | error e' => rw [hm] at h; cases h
    | ok us =>
      rw [hm] at h
      cases h
      simp [bind, Except.bind, pure, Except.pure]

end Tony.Token
