import Tony.Proofs.Pattern

/-!
How far rules look. Most rules stay within a line: for all their patterns and for the test after
them the end of the line is like the end of the text. The table of each mode is taken apart here
once, into rules of that form and the few others, which are named.
-/

namespace Tony

open Pattern

namespace Rule

def StopsAt (rule : Rule) (c : Char) : Prop :=
  ∀ part ∈ rule.parts, part.2.StopsAt c

/-- The rules of a mode, by how far they look. -/
inductive Scope : Mode → Rule → Prop
  | line {mode : Mode} {rule : Rule} (stops : ∀ c, isLineEnd c → rule.StopsAt c)
      (follow : rule.follow (some '\r') = rule.follow (some '\n')) : Scope mode rule
  | specialComment : Scope .root (taking .commentSpecial (comment.passing hasMarker))
  | comment : Scope .root (taking .comment comment)
  | blanks {mode : Mode} : Scope mode (taking .plainText blanks)
  | mark :
      Scope .root { parts := [(.punctuation, one (isOneOf ":,-")), (.plainText, Pattern.blanks)] }
  | dollar {mode : Mode} (hm : mode = .root ∨ mode = .doubleString) :
      Scope mode (taking .variableName (reference "$"))
  | dot : Scope .root (taking .variableName (reference "."))
  | quoted {mode : Mode} (hm : mode = .root ∨ mode = .tagArgs) : Scope mode (taking .string quoted)
  | stringRun : Scope .doubleString (taking .string (run1 fun c => !isOneOf "\\\"$" c))
  | lineBreak : Scope .blockLiteral (taking .plainText lineBreak)
  | leave :
      Scope .blockLiteral
        { taking .plainText nothing with
          anchor := .lineStart
          follow := beginsUnindented
          change := .pop }

theorem stopsAt_taking {kind : Kind} {p : Pattern} {c : Char} (h : p.StopsAt c) :
    (taking kind p).StopsAt c := by
  intro part hpart
  rw [List.mem_singleton.1 hpart]
  exact h

theorem Scope.taking {mode : Mode} {kind : Kind} {p : Pattern}
    (h : ∀ c, isLineEnd c → p.StopsAt c) : Scope mode (taking kind p) :=
  .line (fun c hc => stopsAt_taking (h c hc)) rfl

theorem scope_openingQuote {mode : Mode} : Scope mode openingQuote := by
  have hquote : ∀ c, isLineEnd c → (literal "\"").StopsAt c :=
    stopsAt_literal_of_isLineEnd (by decide) (by decide)
  exact .line (fun c hc => @stopsAt_taking .string _ c (hquote c hc)) rfl

theorem scope_constantWord {mode : Mode} : Scope mode constantWord :=
  .line (fun c hc => @stopsAt_taking .keywordConstant _ c (stopsAt_constant hc)) (by decide)

theorem scope_of_mem_numbers {mode : Mode} : ∀ rule ∈ numbers, Scope mode rule := by
  simp only [numbers, List.forall_mem_cons]
  exact ⟨.taking fun _ => stopsAt_hexNumber, .taking fun _ => stopsAt_octalNumber,
    .taking fun _ => stopsAt_floatNumber, .taking fun _ => stopsAt_integerNumber, nofun⟩

theorem scope_root : ∀ rule ∈ Rule.root, Scope .root rule := by
  have hmergeKey : ∀ c, isLineEnd c → (literal "<<:").StopsAt c :=
    stopsAt_literal_of_isLineEnd (by decide) (by decide)
  have hparen : ∀ c, isLineEnd c → (literal "(").StopsAt c :=
    stopsAt_literal_of_isLineEnd (by decide) (by decide)
  have hbracket : ∀ c, isLineEnd c → (one (isOneOf "[]\x7b\x7d")).StopsAt c :=
    forall_isLineEnd (stopsAt_one rfl) (stopsAt_one rfl)
  have hname : ∀ c, isLineEnd c → (run1 isNameLetter).StopsAt c :=
    forall_isLineEnd (stopsAt_run1 rfl) (stopsAt_run1 rfl)
  have hnumbers : ∀ rule ∈ numbers, Scope .root rule := scope_of_mem_numbers
  simp only [Rule.root, List.forall_mem_append, List.forall_mem_cons]
  refine ⟨⟨⟨.line ?_ rfl, .specialComment, .comment, .line ?_ rfl, .line ?_ rfl, .line ?_ rfl,
    .dollar (.inl rfl), .dot, .line ?_ rfl, scope_openingQuote, .quoted (.inl rfl), nofun⟩,
    hnumbers⟩, scope_constantWord, .taking hbracket, .mark, .blanks, .taking hname, nofun⟩
  all_goals
    intro c hc
    simp only [StopsAt, Rule.taking, List.forall_mem_cons]
  · exact ⟨stopsAt_separator hc, nofun⟩
  · exact ⟨stopsAt_indent hc, hmergeKey c hc, nofun⟩
  · exact ⟨stopsAt_tag hc, nofun⟩
  · exact ⟨(stopsAt_tag hc).andThen (hparen c hc), nofun⟩
  · exact ⟨stopsAt_indent hc, stopsAt_blockMark hc, stopsAt_indent hc, nofun⟩

theorem scope_tagArgs : ∀ rule ∈ Rule.tagArgs, Scope .tagArgs rule := by
  have hname : ∀ c, isLineEnd c → (run1 isArgumentLetter).StopsAt c :=
    forall_isLineEnd (stopsAt_run1 rfl) (stopsAt_run1 rfl)
  have hcomma : ∀ c, isLineEnd c → (literal ",").StopsAt c :=
    stopsAt_literal_of_isLineEnd (by decide) (by decide)
  have hparen : ∀ c, isLineEnd c → (literal ")").StopsAt c :=
    stopsAt_literal_of_isLineEnd (by decide) (by decide)
  have hnumbers : ∀ rule ∈ numbers, Scope .tagArgs rule := scope_of_mem_numbers
  simp only [Rule.tagArgs, List.forall_mem_append, List.forall_mem_cons]
  refine ⟨⟨⟨scope_openingQuote, .quoted (.inr rfl), nofun⟩, hnumbers⟩, scope_constantWord,
    .taking hname, .taking hcomma, .line ?_ rfl, .blanks, nofun⟩
  intro c hc
  simp only [StopsAt, Rule.taking, List.forall_mem_cons]
  exact ⟨hparen c hc, nofun⟩

theorem scope_doubleString : ∀ rule ∈ Rule.doubleString, Scope .doubleString rule := by
  have hquote : ∀ c, isLineEnd c → (literal "\"").StopsAt c :=
    stopsAt_literal_of_isLineEnd (by decide) (by decide)
  simp only [Rule.doubleString, List.forall_mem_cons]
  refine ⟨.taking fun _ => stopsAt_escaped, .dollar (.inr rfl), .line ?_ rfl, .stringRun, nofun⟩
  intro c hc
  simp only [StopsAt, Rule.taking, List.forall_mem_cons]
  exact ⟨hquote c hc, nofun⟩

theorem scope_blockLiteral : ∀ rule ∈ Rule.blockLiteral, Scope .blockLiteral rule := by
  simp only [Rule.blockLiteral, List.forall_mem_cons]
  refine ⟨.line ?_ rfl, .lineBreak, .leave, nofun⟩
  intro c hc
  simp only [StopsAt, Rule.taking, List.forall_mem_cons]
  exact ⟨stopsAt_indentedLine hc, nofun⟩

theorem scope_of_mem {mode : Mode} {rule : Rule} (h : rule ∈ mode.rules) : Scope mode rule := by
  cases mode with
  | root => exact scope_root rule h
  | tagArgs => exact scope_tagArgs rule h
  | doubleString => exact scope_doubleString rule h
  | blockLiteral => exact scope_blockLiteral rule h

theorem lexemes?_cons_append {kind : Kind} {p : Pattern} {parts : List (Kind × Pattern)}
    {s t : List Char} (hb : p.Bounded) (hp : p (s ++ t) = p s)
    (hparts : ∀ n, p s = some n →
      lexemes? parts (s.drop n ++ t) = (lexemes? parts (s.drop n)).map (Prod.map id (· ++ t))) :
    lexemes? ((kind, p) :: parts) (s ++ t) =
      (lexemes? ((kind, p) :: parts) s).map (Prod.map id (· ++ t)) := by
  rw [lexemes?, lexemes?, hp]
  cases hs : p s with
  | none => rfl
  | some n =>
    have hn := hb s n hs
    simp only [Option.bind_some]
    rw [List.drop_append_of_le_length hn, List.take_append_of_le_length hn, hparts n hs]
    cases lexemes? parts (s.drop n) <;> rfl

theorem lexemes?_nil_append (s t : List Char) :
    lexemes? [] (s ++ t) = (lexemes? [] s).map (Prod.map id (· ++ t)) := rfl

theorem lexemes?_append_of_stopsAt {c : Char} {parts : List (Kind × Pattern)}
    (h : ∀ part ∈ parts, part.2.StopsAt c) (u r : List Char) :
    lexemes? parts (u ++ c :: r) = (lexemes? parts u).map (Prod.map id (· ++ c :: r)) := by
  induction parts generalizing u with
  | nil => rfl
  | cons part parts ih =>
    obtain ⟨kind, p⟩ := part
    have hp : p.StopsAt c := h (kind, p) (List.mem_cons_self ..)
    have hparts := ih fun part hpart => h part (List.mem_cons_of_mem _ hpart)
    exact lexemes?_cons_append hp.bounded (hp.append_cons u r) fun n _ => hparts (u.drop n)

theorem read?_append {rule : Rule} {s t : List Char}
    (hl : lexemes? rule.parts (s ++ t) = (lexemes? rule.parts s).map (Prod.map id (· ++ t)))
    (hf : ∀ ls rest, lexemes? rule.parts s = some (ls, rest) →
      rule.follow (rest ++ t).head? = rule.follow rest.head?) (depth : Nat) (passed : List Char) :
    rule.read? depth passed (s ++ t) = rule.read? depth passed s := by
  unfold read?
  rw [hl]
  split
  · cases hs : lexemes? rule.parts s with
    | none => rfl
    | some x =>
      obtain ⟨ls, rest⟩ := x
      simp only [Option.map_some, Option.bind_some, Prod.map, id_eq]
      rw [hf ls rest hs]
  · rfl

theorem read?_append_cons {rule : Rule} {c d : Char} (hc : rule.StopsAt c) (hd : rule.StopsAt d)
    (hf : rule.follow (some c) = rule.follow (some d)) (depth : Nat) (passed u r r' : List Char) :
    rule.read? depth passed (u ++ c :: r) = rule.read? depth passed (u ++ d :: r') := by
  unfold read?
  rw [lexemes?_append_of_stopsAt hc, lexemes?_append_of_stopsAt hd]
  cases lexemes? rule.parts u with
  | none => rfl
  | some x =>
    obtain ⟨ls, rest⟩ := x
    have hhead : rule.follow (rest ++ c :: r).head? = rule.follow (rest ++ d :: r').head? := by
      cases rest with
      | nil => exact hf
      | cons e rest => rfl
    simp only [Option.map_some, Option.bind_some, Prod.map, id_eq, hhead]

end Rule
end Tony
