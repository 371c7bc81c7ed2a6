import Mathlib.Data.List.Chain
import Tony.Proofs.Progress

/-!
Neighbours of one kind. Main statement: names, comments, merge keys and constants of a text never
stand right after one of their own kind. A name is read up to the end of its letters, a comment up to
the end of its line, a constant up to the end of its word, and before a merge key its line has only
blanks.
-/

namespace Tony

open Pattern

def Kind.standsAlone : Kind → Bool
  | .name | .comment | .commentSpecial | .operator | .keywordConstant => true
  | _ => false

def Kind.Apart (k next : Kind) : Prop :=
  k.standsAlone → next ≠ k

instance (k next : Kind) : Decidable (k.Apart next) :=
  inferInstanceAs (Decidable (_ → _))

def Mode.isLetter : Mode → Char → Bool
  | .tagArgs => isArgumentLetter
  | _ => isNameLetter

namespace Rule

inductive Alone : Mode → Kind → Rule → Prop
  | separator : Alone .root .commentSpecial separator
  | specialComment : Alone .root .commentSpecial (taking .commentSpecial (comment.passing hasMarker))
  | comment : Alone .root .comment (taking .comment comment)
  | mergeKey : Alone .root .operator mergeKey
  | constant {mode : Mode} (hm : mode = .root ∨ mode = .tagArgs) :
      Alone mode .keywordConstant constantWord
  | name {mode : Mode} (hm : mode = .root ∨ mode = .tagArgs) :
      Alone mode .name (taking .name (run1 mode.isLetter))

theorem kinds_of_lexemes? {parts : List (Kind × Pattern)} {s rest : List Char} {ls : List Lexeme}
    (h : lexemes? parts s = some (ls, rest)) : ls.map Lexeme.kind = parts.map Prod.fst := by
  induction parts generalizing s ls with
  | nil =>
    obtain ⟨rfl, -⟩ := Prod.mk.inj (Option.some.inj h)
    rfl
  | cons part parts ih =>
    obtain ⟨n, ms, -, hms, rfl⟩ := exists_of_lexemes?_cons h
    rw [List.map_cons, List.map_cons, ih hms]

theorem pairwise_apart_of_mem {mode : Mode} :
    ∀ rule ∈ mode.rules, (rule.parts.map Prod.fst).Pairwise Kind.Apart := by
  cases mode <;> decide

def aloneKinds (rule : Rule) : List Kind :=
  (rule.parts.map Prod.fst).filter Kind.standsAlone

theorem alone_of_eq_nil {mode : Mode} {rule : Rule} (h : rule.aloneKinds = []) :
    ∀ kind ∈ rule.aloneKinds, Alone mode kind rule := by
  rw [h]
  exact List.forall_mem_nil _

theorem alone_of_mem_numbers {mode : Mode} :
    ∀ rule ∈ numbers, ∀ kind ∈ rule.aloneKinds, Alone mode kind rule := by
  simp only [numbers, List.forall_mem_cons]
  exact ⟨alone_of_eq_nil rfl, alone_of_eq_nil rfl, alone_of_eq_nil rfl, alone_of_eq_nil rfl,
    List.forall_mem_nil _⟩

theorem alone_of_mem_root : ∀ rule ∈ root, ∀ kind ∈ rule.aloneKinds, Alone .root kind rule := by
  simp only [root, List.forall_mem_append, List.forall_mem_cons]
  exact ⟨⟨⟨List.forall_mem_singleton.2 .separator, List.forall_mem_singleton.2 .specialComment,
    List.forall_mem_singleton.2 .comment, List.forall_mem_singleton.2 .mergeKey,
    alone_of_eq_nil rfl, alone_of_eq_nil rfl, alone_of_eq_nil rfl, alone_of_eq_nil rfl,
    alone_of_eq_nil rfl, alone_of_eq_nil rfl, alone_of_eq_nil rfl, List.forall_mem_nil _⟩,
    alone_of_mem_numbers⟩, List.forall_mem_singleton.2 (.constant (.inl rfl)),
    alone_of_eq_nil rfl, alone_of_eq_nil rfl, alone_of_eq_nil rfl,
    List.forall_mem_singleton.2 (.name (.inl rfl)), List.forall_mem_nil _⟩

theorem alone_of_mem_tagArgs :
    ∀ rule ∈ tagArgs, ∀ kind ∈ rule.aloneKinds, Alone .tagArgs kind rule := by
  simp only [tagArgs, List.forall_mem_append, List.forall_mem_cons]
  exact ⟨⟨⟨alone_of_eq_nil rfl, alone_of_eq_nil rfl, List.forall_mem_nil _⟩, alone_of_mem_numbers⟩,
    List.forall_mem_singleton.2 (.constant (.inr rfl)),
    List.forall_mem_singleton.2 (.name (.inr rfl)), alone_of_eq_nil rfl, alone_of_eq_nil rfl,
    alone_of_eq_nil rfl, List.forall_mem_nil _⟩

theorem alone_of_mem {mode : Mode} :
    ∀ rule ∈ mode.rules, ∀ kind ∈ rule.aloneKinds, Alone mode kind rule := by
  cases mode with
  | root => exact alone_of_mem_root
  | tagArgs => exact alone_of_mem_tagArgs
  | doubleString =>
    simp only [Mode.rules, doubleString, List.forall_mem_cons]
    exact ⟨alone_of_eq_nil rfl, alone_of_eq_nil rfl, alone_of_eq_nil rfl, alone_of_eq_nil rfl,
      List.forall_mem_nil _⟩
  | blockLiteral =>
    simp only [Mode.rules, blockLiteral, List.forall_mem_cons]
    exact ⟨alone_of_eq_nil rfl, alone_of_eq_nil rfl, alone_of_eq_nil rfl, List.forall_mem_nil _⟩

theorem Alone.mode_eq {mode : Mode} {kind : Kind} {rule : Rule} (h : Alone mode kind rule) :
    mode = .root ∨ mode = .tagArgs := by
  cases h with
  | separator | specialComment | comment | mergeKey => exact .inl rfl
  | constant hm | name hm => exact hm

theorem Alone.change_eq {mode : Mode} {kind : Kind} {rule : Rule} (h : Alone mode kind rule) :
    rule.change = .stay := by
  cases h <;> rfl

end Rule

theorem Lexeme.kinds_layout_sublist (offset : Nat) (ls : List Lexeme) :
    ((layout offset ls).map Token.kind).Sublist (ls.map kind) := by
  induction ls generalizing offset with
  | nil => exact .slnil
  | cons l ls ih =>
    rw [layout]
    split
    · exact (ih _).cons _
    · exact (ih _).cons_cons _

namespace Station

variable {s : Station} {kind : Kind} {rule : Rule}

theorem head?_ahead (h : s.reading.text ≠ []) : s.ahead.head? = s.reading.text.head? := by
  rw [← s.text_append_ahead, List.head?_append_of_ne_nil _ h]

def Admits (s : Station) : Kind → Prop
  | .name => ∃ c ∈ s.ahead.head?, s.modes.top.isLetter c
  | .comment | .commentSpecial => ∃ c ∈ s.ahead.head?, c = '#' ∨ c = '-'
  | .operator => Anchor.afterIndent.holds s.passed
  | .keywordConstant => ∃ c ∈ s.ahead.head?, Unicode.isWordPart c
  | _ => True

theorem admits_of_readBy (h : s.ReadBy rule) (halone : Rule.Alone s.modes.top kind rule) :
    s.Admits kind := by
  have hhead := head?_ahead (h.text_ne_nil (by rw [halone.change_eq]; decide))
  generalize htop : s.modes.top = mode at halone
  cases halone with
  | separator =>
    obtain ⟨-, w, -, htext⟩ := h.lexemes_of_parts rfl takes_separator
    exact ⟨'-', by rw [hhead, htext]; rfl, .inr rfl⟩
  | specialComment =>
    obtain ⟨-, ⟨r, htext, -⟩, -⟩ := h.lexemes_of_parts rfl (takes_comment.passing hasMarker)
    exact ⟨'#', by rw [hhead, htext]; rfl, .inl rfl⟩
  | comment =>
    obtain ⟨-, r, htext, -⟩ := h.lexemes_of_parts rfl takes_comment
    exact ⟨'#', by rw [hhead, htext]; rfl, .inl rfl⟩
  | mergeKey => exact h.anchor
  | constant =>
    obtain ⟨-, hword⟩ := h.lexemes_of_parts rfl takes_constant
    have hbegin : ∀ w ∈ ["true".toList, "false".toList, "null".toList],
        ∃ c ∈ w.head?, Unicode.isWordPart c := by
      simp only [List.forall_mem_cons]
      exact ⟨⟨'t', rfl, by decide +kernel⟩, ⟨'f', rfl, by decide +kernel⟩,
        ⟨'n', rfl, by decide +kernel⟩, List.forall_mem_nil _⟩
    rw [Admits, hhead]
    exact hbegin _ hword
  | name =>
    obtain ⟨-, hne, hletters⟩ := h.lexemes_of_parts rfl (takes_run1 _)
    obtain ⟨c, r, htext⟩ := List.exists_cons_of_ne_nil hne
    rw [Admits, hhead, htext, htop]
    exact ⟨c, rfl, hletters c (by rw [htext]; exact List.mem_cons_self ..)⟩

theorem stop_of_run1 {q : Char → Bool} (h : s.ReadBy (Rule.taking kind (run1 q))) :
    ∀ c ∈ s.next.ahead.head?, q c = false := by
  obtain ⟨n, ms, hn, hms, -⟩ := Rule.exists_of_lexemes?_cons h.lexemes
  obtain ⟨-, hrest⟩ := Prod.mk.inj (Option.some.inj hms)
  rw [← hrest, (run1_eq_some hn).1]
  exact stop_of_takeWhile

theorem stop_of_comment (hm : s.modes.top = .root) (hhash : s.ahead.head? = some '#') :
    ∀ c ∈ s.next.ahead.head?, c = '\n' := by
  obtain ⟨r, hr⟩ := List.head?_eq_some_iff.1 hhash
  have hstop : ∀ c ∈ (r.drop (r.takeWhile (· ≠ '\n')).length).head?, decide (c ≠ '\n') = false :=
    stop_of_takeWhile
  rw [next_of_reading (reading_of_comment hm hr), hr]
  exact fun c hc => by simpa using hstop c hc

theorem passed_of_mergeKey (h : s.ReadBy Rule.mergeKey) : s.next.passed.head? = some ':' := by
  obtain ⟨n, ms, -, hms, hls⟩ := Rule.exists_of_lexemes?_cons h.lexemes
  obtain ⟨m, ns, hm, hns, rfl⟩ := Rule.exists_of_lexemes?_cons hms
  obtain ⟨rfl, -⟩ := Prod.mk.inj (Option.some.inj hns)
  have htext : s.reading.text = s.ahead.take n ++ "<<:".toList := by
    rw [Reading.text, hls, ← takes_literal "<<:" _ m hm]
    simp
  rw [next, htext, List.reverse_append]
  rfl

theorem modes_next_of_alone (h : s.ReadBy rule) (halone : Rule.Alone s.modes.top kind rule) :
    s.next.modes = s.modes := by
  rw [h.modes_next, halone.change_eq]
  rfl

theorem not_admits_next (h : s.ReadBy rule) (halone : Rule.Alone s.modes.top kind rule) :
    ¬ s.next.Admits kind := by
  have hmodes := modes_next_of_alone h halone
  have hhead := head?_ahead (h.text_ne_nil (by rw [halone.change_eq]; decide))
  have hends : ∀ c, c = '\r' ∨ c = '\n' → ¬ (c = '#' ∨ c = '-') := by
    rintro c (rfl | rfl)
    · decide
    · decide
  generalize htop : s.modes.top = mode at halone
  cases halone with
  | separator =>
    rintro ⟨c, hc, hbegin⟩
    have hstop := h.follow
    rw [Option.mem_def.1 hc] at hstop
    exact hends c (isLineEnd_iff.1 hstop) hbegin
  | specialComment =>
    rintro ⟨c, hc, hbegin⟩
    obtain ⟨-, ⟨r, htext, -⟩, -⟩ := h.lexemes_of_parts rfl (takes_comment.passing hasMarker)
    rw [htext] at hhead
    exact hends c (.inr (stop_of_comment htop hhead c hc)) hbegin
  | comment =>
    rintro ⟨c, hc, hbegin⟩
    obtain ⟨-, r, htext, -⟩ := h.lexemes_of_parts rfl takes_comment
    rw [htext] at hhead
    exact hends c (.inr (stop_of_comment htop hhead c hc)) hbegin
  | mergeKey =>
    intro hafter
    obtain ⟨p, hp⟩ := List.head?_eq_some_iff.1 (passed_of_mergeKey h)
    rw [Admits, hp] at hafter
    cases hafter
  | constant =>
    rintro ⟨c, hc, hbegin⟩
    have hstop := h.follow
    rw [Option.mem_def.1 hc] at hstop
    have hnot : (!Unicode.isWordPart c) = true := hstop
    rw [hbegin] at hnot
    cases hnot
  | name =>
    rintro ⟨c, hc, hbegin⟩
    rw [hmodes, htop, stop_of_run1 h c hc] at hbegin
    cases hbegin

theorem ReadBy.kinds_eq (h : s.ReadBy rule) :
    s.reading.lexemes.map Lexeme.kind = rule.parts.map Prod.fst :=
  Rule.kinds_of_lexemes? h.lexemes

theorem kinds_sublist (s : Station) :
    (s.tokens.map Token.kind).Sublist (s.reading.lexemes.map Lexeme.kind) :=
  Lexeme.kinds_layout_sublist _ _

theorem pairwise_apart_tokens (hs : s.ahead ≠ []) :
    (s.tokens.map Token.kind).Pairwise Kind.Apart := by
  refine List.Pairwise.sublist s.kinds_sublist ?_
  rcases readBy_or_leftAlone hs with ⟨rule, h⟩ | ⟨c, h⟩
  · rw [h.kinds_eq]
    exact Rule.pairwise_apart_of_mem rule h.mem
  · rw [h.reading_eq]
    exact List.pairwise_singleton _ _

theorem exists_alone (hs : s.ahead ≠ []) (hkind : kind ∈ s.tokens.map Token.kind)
    (halone : kind.standsAlone) : ∃ rule, s.ReadBy rule ∧ Rule.Alone s.modes.top kind rule := by
  have hmem := s.kinds_sublist.subset hkind
  rcases readBy_or_leftAlone hs with ⟨rule, h⟩ | ⟨c, h⟩
  · rw [h.kinds_eq] at hmem
    exact ⟨rule, h, Rule.alone_of_mem rule h.mem kind (List.mem_filter.2 ⟨hmem, halone⟩)⟩
  · rw [h.reading_eq] at hmem
    obtain rfl : kind = .plainText := List.mem_singleton.1 hmem
    cases halone

theorem head?_stations_of_alone (hm : s.modes ∈ ModeStack.usual) (h : s.ReadBy rule)
    (halone : Rule.Alone s.modes.top kind rule) {t : Token}
    (ht : t ∈ (s.next.stations.flatMap tokens).head?) :
    s.next.modes = s.modes ∧ s.next.ahead ≠ [] ∧ t ∈ s.next.tokens := by
  have hmodes := modes_next_of_alone h halone
  have hahead : s.next.ahead ≠ [] := by
    intro hend
    rw [stations_of_end hend] at ht
    cases ht
  have htext : s.next.reading.text ≠ [] := by
    refine (turn hahead (modes_next_mem_usual hm)).takes_or_leaves.resolve_right fun hleave => ?_
    have htop : s.modes.top = .blockLiteral := by rw [← hmodes, hleave.1]
    rcases halone.mode_eq with hmode | hmode <;> exact absurd (hmode.symm.trans htop) (by decide)
  rw [stations_of_ahead hahead, List.flatMap_cons,
    List.head?_append_of_ne_nil _ (tokens_ne_nil htext)] at ht
  exact ⟨hmodes, hahead, List.mem_of_mem_head? ht⟩

theorem isChain_apart_stations (hm : s.modes ∈ ModeStack.usual) :
    ((s.stations.flatMap tokens).map Token.kind).IsChain Kind.Apart := by
  induction s using run_induction with
  | last s h =>
    rw [stations_of_end h]
    exact .nil
  | round s h ih =>
    rw [stations_of_ahead h, List.flatMap_cons, List.map_append]
    refine List.isChain_append.2
      ⟨(pairwise_apart_tokens h).isChain, ih (modes_next_mem_usual hm), ?_⟩
    rintro k hk k' hk' halone rfl
    obtain ⟨rule, hrule, hrules⟩ := exists_alone h (List.mem_of_mem_getLast? hk) halone
    rw [List.head?_map] at hk'
    obtain ⟨t, ht, hkind⟩ := Option.map_eq_some_iff.1 hk'
    obtain ⟨hmodes, hahead, hmem⟩ := head?_stations_of_alone hm hrule hrules ht
    obtain ⟨rule', hrule', hrules'⟩ :=
      exists_alone hahead (List.mem_map.2 ⟨t, hmem, hkind⟩) halone
    exact not_admits_next hrule hrules (admits_of_readBy hrule' hrules')

end Station

theorem isChain_apart_tokenize (source : List Char) :
    ((tokenize source).map Token.kind).IsChain Kind.Apart := by
  rw [tokenize_eq]
  exact Station.isChain_apart_stations (List.mem_cons_self ..)

end Tony
