import Tony.Proofs.CarriageReturn

/-!
Line ends make no difference to the tokens. Main statement: a text and the text with a carriage
return before every line feed have tokens of the same kinds, and of the same values but for the
carriage returns, and leave the same modes.
-/

namespace Tony

open Pattern
open Text (bytes crlf Plain)
open Unicode (isBlank)

structure Lexeme.Twin (l m : Lexeme) : Prop where
  kind : m.kind = l.kind
  text : m.text.filter (· ≠ '\r') = l.text
  isEmpty : m.text.isEmpty = l.text.isEmpty

structure Token.Twin (t u : Token) : Prop where
  kind : u.kind = t.kind
  value : u.value.filter (· ≠ '\r') = t.value

namespace Lexeme

theorem twin_crlf {l : Lexeme} (hl : '\r' ∉ l.text) : Twin l l.crlf where
  kind := rfl
  text := Text.filter_crlf hl
  isEmpty := by
    show (Text.crlf l.text).isEmpty = l.text.isEmpty
    rw [Bool.eq_iff_iff, List.isEmpty_iff, List.isEmpty_iff, Text.crlf_eq_nil_iff]

theorem Twin.layout {ls ms : List Lexeme} (h : List.Forall₂ Twin ls ms) (n m : Nat) :
    List.Forall₂ Token.Twin (Lexeme.layout n ls) (Lexeme.layout m ms) := by
  induction h generalizing n m with
  | nil => exact .nil
  | @cons l l' ls ms hl _ ih =>
    rw [Lexeme.layout, Lexeme.layout, hl.isEmpty]
    split
    · exact ih _ _
    · exact .cons ⟨hl.kind, hl.text⟩ (ih _ _)

end Lexeme

namespace Anchor.Agree

theorem append_crlf {p q : List Char} (h : Agree p q) (s : List Char) :
    Agree (s.reverse ++ p) ((crlf s).reverse ++ q) := by
  induction s generalizing p q with
  | nil => exact h
  | cons c s ih =>
    rw [List.reverse_cons, List.append_assoc]
    by_cases hc : c = '\n'
    · subst hc
      rw [Text.crlf_lineFeed, List.reverse_cons, List.reverse_cons, List.append_assoc,
        List.append_assoc]
      -- The line feed hides the carriage return before it from all anchors.
      exact ih (of_lineFeed p ('\r' :: q))
    · rw [Text.crlf_cons hc, List.reverse_cons, List.append_assoc]
      exact ih (h.cons c)

end Anchor.Agree

namespace Station

/-- Stations in a text and in the text with carriage returns. Behind a comment the second one stands
behind a carriage return as well, which was part of the comment, until both take the line feed. -/
inductive Twin : Station → Station → Prop
  | even {modes : ModeStack} {p q s : List Char} (anchors : Anchor.Agree p q) (plain : Plain s) :
      Twin ⟨modes, p, s⟩ ⟨modes, q, crlf s⟩
  | odd {modes : ModeStack} {p q s : List Char} (root : modes.top = .root)
      (plain : Plain ('\n' :: s)) : Twin ⟨modes, p, '\n' :: s⟩ ⟨modes, q, '\n' :: crlf s⟩

section Even

variable {modes : ModeStack} {p q s : List Char}

theorem twin_next_of_crlf (ha : Anchor.Agree p q) (hs : Plain s)
    (h : reading ⟨modes, q, crlf s⟩ = (reading ⟨modes, p, s⟩).crlf) :
    Twin (next ⟨modes, p, s⟩) (next ⟨modes, q, crlf s⟩) ∧
      List.Forall₂ Lexeme.Twin (reading ⟨modes, p, s⟩).lexemes
        (reading ⟨modes, q, crlf s⟩).lexemes := by
  have htake : s.take (reading ⟨modes, p, s⟩).text.length = (reading ⟨modes, p, s⟩).text :=
    take_ahead ⟨modes, p, s⟩
  have htext : (reading ⟨modes, q, crlf s⟩).text = crlf (reading ⟨modes, p, s⟩).text := by
    rw [h, Reading.text_crlf]
  constructor
  · have hdrop := Text.drop_crlf (reading ⟨modes, p, s⟩).text.length s
    rw [htake, ← htext] at hdrop
    show Twin ⟨_, _, _⟩ ⟨modes.change (reading ⟨modes, q, crlf s⟩).change,
      (reading ⟨modes, q, crlf s⟩).text.reverse ++ q,
      (crlf s).drop (reading ⟨modes, q, crlf s⟩).text.length⟩
    rw [hdrop, htext, h]
    exact .even (ha.append_crlf _) (hs.drop _)
  · rw [h]
    refine List.forall₂_map_right_iff.2 (List.forall₂_same.2 fun l hl => ?_)
    apply Lexeme.twin_crlf
    intro hmem
    have hr : '\r' ∈ (reading ⟨modes, p, s⟩).text := List.mem_flatMap.2 ⟨l, hl, hmem⟩
    rw [← htake] at hr
    exact hs.noReturn (List.mem_of_mem_take hr)

theorem reading?_crlf (ha : Anchor.Agree p q) (hs : Plain s)
    (hhash : modes.top = .root → s.head? ≠ some '#') :
    reading? ⟨modes, q, crlf s⟩ = (reading? ⟨modes, p, s⟩).map Reading.crlf := by
  unfold reading?
  rw [List.map_findSome?]
  exact findSome?_congr fun rule hrule =>
    (Rule.scope_of_mem hrule).read?_crlf ha hs hhash modes.depth

theorem reading_crlf (ha : Anchor.Agree p q) (hs : Plain s)
    (hhash : modes.top = .root → s.head? ≠ some '#') (hne : s ≠ []) :
    reading ⟨modes, q, crlf s⟩ = (reading ⟨modes, p, s⟩).crlf := by
  have hread := reading?_crlf ha hs hhash
  cases hr : reading? ⟨modes, p, s⟩ with
  | some r =>
    rw [hr] at hread
    rw [reading, reading, hread, hr]
    rfl
  | none =>
    rw [hr] at hread
    obtain ⟨c, r, rfl⟩ := List.exists_cons_of_ne_nil hne
    -- A line feed that is left alone would come apart from its carriage return.
    have hc : c ≠ '\n' := by
      rintro rfl
      exact reading?_ne_none_of_lineFeed rfl hr
    have hchar : crlf [c] = [c] := Text.crlf_cons hc []
    rw [reading, reading, hread, hr]
    show (⟨[⟨.plainText, (crlf (c :: r)).take 1⟩], .stay⟩ : Reading) =
      ⟨[⟨.plainText, crlf [c]⟩], .stay⟩
    rw [Text.crlf_cons hc, hchar]
    rfl

end Even

theorem takeWhile_line {u : List Char} (hu : '\n' ∉ u) (r : List Char) :
    (u ++ '\n' :: r).takeWhile (· ≠ '\n') = u := by
  rw [takeWhile_append_cons (by decide), List.takeWhile_eq_self_iff]
  intro c hc
  exact decide_eq_true fun h => hu (h ▸ hc)

theorem twin_next_of_comment {modes : ModeStack} {p q u r : List Char} (hu : '\n' ∉ u)
    (hs : Plain ('#' :: (u ++ '\n' :: r))) (hm : modes.top = .root) :
    Twin (next ⟨modes, p, '#' :: (u ++ '\n' :: r)⟩)
        (next ⟨modes, q, crlf ('#' :: (u ++ '\n' :: r))⟩) ∧
      List.Forall₂ Lexeme.Twin (reading ⟨modes, p, '#' :: (u ++ '\n' :: r)⟩).lexemes
        (reading ⟨modes, q, crlf ('#' :: (u ++ '\n' :: r))⟩).lexemes := by
  have hfeed : crlf ('#' :: (u ++ '\n' :: r)) = '#' :: (u ++ ['\r'] ++ '\n' :: crlf r) := by
    rw [Text.crlf_cons (by decide), Text.crlf_append, Text.crlf_eq_self hu, Text.crlf_lineFeed,
      List.append_assoc]
    rfl
  have hu' : '\n' ∉ u ++ ['\r'] := by simp [hu]
  have hkind : commentKind ('#' :: (u ++ ['\r'])) = commentKind ('#' :: u) := by
    unfold commentKind
    rw [← List.cons_append, hasMarker_append_return]
  have hx : reading ⟨modes, p, '#' :: (u ++ '\n' :: r)⟩ =
      ⟨[⟨commentKind ('#' :: u), '#' :: u⟩], .stay⟩ := by
    rw [reading_of_comment hm rfl, takeWhile_line hu]
  have hy : reading ⟨modes, q, '#' :: (u ++ ['\r'] ++ '\n' :: crlf r)⟩ =
      ⟨[⟨commentKind ('#' :: u), '#' :: (u ++ ['\r'])⟩], .stay⟩ := by
    rw [reading_of_comment hm rfl, takeWhile_line hu', hkind]
  have hplain : Plain ('#' :: u) ∧ Plain ('\n' :: r) := Plain.of_append hs
  rw [hfeed]
  constructor
  · have hdrop : ∀ {u r : List Char}, ('#' :: (u ++ r)).drop ('#' :: u).length = r :=
      fun {u r} => @List.drop_left _ ('#' :: u) r
    rw [next_of_reading hx, next_of_reading hy, hdrop, hdrop]
    exact .odd hm hplain.2
  · rw [hx, hy]
    refine .cons ⟨rfl, ?_, rfl⟩ .nil
    have hreturn : ('#' :: u).filter (· ≠ '\r') = '#' :: u := by
      rw [List.filter_eq_self]
      exact fun c hc => decide_eq_true fun h => hplain.1.noReturn (h ▸ hc)
    show ('#' :: u ++ ['\r']).filter (· ≠ '\r') = '#' :: u
    rw [List.filter_append, hreturn]
    exact List.append_nil _

theorem reading_crlf_of_last_comment {modes : ModeStack} {p q r : List Char} (hr : '\n' ∉ r)
    (hm : modes.top = .root) :
    reading ⟨modes, q, crlf ('#' :: r)⟩ = (reading ⟨modes, p, '#' :: r⟩).crlf := by
  have hself : crlf ('#' :: r) = '#' :: r := Text.crlf_eq_self (by simp [hr])
  have htext : '\n' ∉ '#' :: r.takeWhile (· ≠ '\n') := by
    intro hmem
    rcases List.mem_cons.1 hmem with h | h
    · exact absurd h (by decide)
    · exact hr ((List.takeWhile_sublist _).subset h)
  rw [hself, reading_of_comment hm rfl, reading_of_comment hm rfl]
  show _ = (⟨[⟨_, crlf ('#' :: r.takeWhile (· ≠ '\n'))⟩], .stay⟩ : Reading)
  rw [Text.crlf_eq_self htext]

theorem twin_next_of_lineFeed {modes : ModeStack} {p q r : List Char} (hs : Plain ('\n' :: r))
    (hm : modes.top = .root) :
    Twin (next ⟨modes, p, '\n' :: r⟩) (next ⟨modes, q, '\n' :: crlf r⟩) ∧
      List.Forall₂ Lexeme.Twin (reading ⟨modes, p, '\n' :: r⟩).lexemes
        (reading ⟨modes, q, '\n' :: crlf r⟩).lexemes := by
  let w := r.takeWhile isBlank
  have hw : (crlf r).takeWhile isBlank = crlf w := Text.takeWhile_crlf (by decide) r
  have htake : r.take w.length = w := take_length_takeWhile isBlank r
  have hx : reading ⟨modes, p, '\n' :: r⟩ = ⟨[⟨.plainText, '\n' :: w⟩], .stay⟩ := by
    rw [reading, reading?_of_lineFeed hm rfl]
    rfl
  have hy : reading ⟨modes, q, '\n' :: crlf r⟩ = ⟨[⟨.plainText, '\n' :: crlf w⟩], .stay⟩ := by
    rw [reading, reading?_of_lineFeed hm rfl, hw]
    rfl
  have hr : '\r' ∉ w := by
    intro hmem
    rw [← htake] at hmem
    exact hs.noReturn (List.mem_cons_of_mem _ (List.mem_of_mem_take hmem))
  constructor
  · have hdrop : (crlf r).drop (crlf w).length = crlf (r.drop w.length) := by
      have h := Text.drop_crlf w.length r
      rwa [htake] at h
    rw [next_of_reading hx, next_of_reading hy]
    show Twin ⟨modes, ('\n' :: w).reverse ++ p, r.drop w.length⟩
      ⟨modes, ('\n' :: crlf w).reverse ++ q, (crlf r).drop (crlf w).length⟩
    rw [hdrop, List.reverse_cons, List.reverse_cons, List.append_assoc, List.append_assoc]
    exact .even ((Anchor.Agree.of_lineFeed p q).append_crlf w) (hs.drop (w.length + 1))
  · rw [hx, hy]
    refine .cons ⟨rfl, ?_, rfl⟩ .nil
    exact congrArg ('\n' :: ·) (Text.filter_crlf hr)

theorem Twin.next {x y : Station} (h : Twin x y) (hx : x.ahead ≠ []) :
    Twin x.next y.next ∧ List.Forall₂ Lexeme.Twin x.reading.lexemes y.reading.lexemes := by
  cases h with
  | @even modes p q s ha hs =>
    by_cases hhash : modes.top = .root ∧ s.head? = some '#'
    · obtain ⟨hm, hhead⟩ := hhash
      obtain ⟨r, rfl⟩ := List.head?_eq_some_iff.1 hhead
      by_cases hline : '\n' ∈ r
      · obtain ⟨u, r, rfl, hu⟩ := List.eq_append_cons_of_mem hline
        exact twin_next_of_comment hu hs hm
      · exact twin_next_of_crlf ha hs (reading_crlf_of_last_comment hline hm)
    · have hhash' : modes.top = .root → s.head? ≠ some '#' := fun hm hhead => hhash ⟨hm, hhead⟩
      exact twin_next_of_crlf ha hs (reading_crlf ha hs hhash' hx)
  | odd hm hs => exact twin_next_of_lineFeed hs hm

theorem Twin.modes_eq {x y : Station} (h : Twin x y) : y.modes = x.modes := by
  cases h <;> rfl

theorem Twin.ahead_eq_nil_iff {x y : Station} (h : Twin x y) : y.ahead = [] ↔ x.ahead = [] := by
  cases h with
  | even ha hs => exact Text.crlf_eq_nil_iff
  | odd hm hs => exact ⟨nofun, nofun⟩

theorem Twin.run {x y : Station} (h : Twin x y) :
    List.Forall₂ Token.Twin (x.stations.flatMap tokens) (y.stations.flatMap tokens) ∧
      y.last.modes = x.last.modes := by
  induction x using run_induction generalizing y with
  | last x hx =>
    have hy := h.ahead_eq_nil_iff.2 hx
    rw [stations_of_end hx, stations_of_end hy, last_of_end hx, last_of_end hy]
    exact ⟨.nil, h.modes_eq⟩
  | round x hx ih =>
    have hy := mt h.ahead_eq_nil_iff.1 hx
    obtain ⟨hnext, hlexemes⟩ := h.next hx
    obtain ⟨htokens, hmodes⟩ := ih hnext
    rw [stations_of_ahead hx, stations_of_ahead hy, last_of_ahead hx, last_of_ahead hy]
    refine ⟨?_, hmodes⟩
    rw [List.flatMap_cons, List.flatMap_cons]
    exact List.rel_append (Lexeme.Twin.layout hlexemes _ _) htokens

end Station

/-- Carriage returns before the line feeds of a text change nothing but the values that they are in.
After a backslash one would be taken along with it, and the line feed would be left. -/
theorem tokenize_crlf {s : List Char} (hr : '\r' ∉ s) (he : ¬ ['\\', '\n'] <:+: s) :
    List.Forall₂ (fun t u => u.kind = t.kind ∧ u.value.filter (· ≠ '\r') = t.value)
        (tokenize s) (tokenize (crlf s)) ∧
      (Lexer.ofText (crlf s)).rest.lexer.modes = (Lexer.ofText s).rest.lexer.modes := by
  have hstart : Station.Twin { ahead := s } { ahead := crlf s } := .even (fun _ => rfl) ⟨hr, he⟩
  obtain ⟨htokens, hmodes⟩ := hstart.run
  rw [tokenize_eq, tokenize_eq, modes_rest_ofText, modes_rest_ofText]
  exact ⟨htokens.imp fun t u h => ⟨h.kind, h.value⟩, hmodes⟩

theorem tokenize_crlf_comment :
    let s := ['#', 'é', '\n', '|', '\n', ' ', '\\', 'n', '\n', '"', '\n']
    '\r' ∉ s ∧ ¬ ['\\', '\n'] <:+: s ∧
      List.Forall₂ (fun t u => u.kind = t.kind ∧ u.value.filter (· ≠ '\r') = t.value)
        (tokenize s) (tokenize (crlf s)) ∧
      (Lexer.ofText (crlf s)).rest.lexer.modes = ⟨.doubleString, [.root]⟩ := by
  intro s
  -- The comment takes the carriage return along, the block stops before it.
  have hr : '\r' ∉ s := by decide
  have he : ¬ ['\\', '\n'] <:+: s := by decide
  have hmodes : (Lexer.ofText s).rest.lexer.modes = ⟨.doubleString, [.root]⟩ := by
    rw [modes_rest_ofText]
    decide +kernel
  obtain ⟨htokens, hsame⟩ := tokenize_crlf hr he
  exact ⟨hr, he, htokens, hsame.trans hmodes⟩

end Tony
