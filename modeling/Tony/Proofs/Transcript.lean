import Tony.Proofs.Printing
import Tony.Proofs.Unquoting

/-!
What is printed read back. Main statement: the output of a run has one line for each token, and the
tokens can be found from it in either format, so that two texts are never printed alike. Dotted
lines say nothing about places, but the tokens of a text stand side by side from its beginning.
-/

namespace Tony

open Text (Place bytes slice_eq_ok_iff)

namespace Text

def field (stop : Char) (s : List Char) : List Char × List Char :=
  (s.takeWhile fun c => c ≠ stop, (s.dropWhile fun c => c ≠ stop).tail)

theorem field_append {stop : Char} {u : List Char} (h : stop ∉ u) (v : List Char) :
    field stop (u ++ stop :: v) = (u, v) := by
  have hne : ∀ c ∈ u, decide (c ≠ stop) = true := by
    intro c hc
    exact decide_eq_true fun heq => h (heq ▸ hc)
  rw [field, List.takeWhile_append_of_pos hne, List.dropWhile_append_of_pos hne,
    List.takeWhile_cons_of_neg (by simp), List.dropWhile_cons_of_neg (by simp), List.append_nil,
    List.tail_cons]

end Text

open Text (field field_append)

def Lexeme.ofLine? (line : List Char) : Option Lexeme := do
  let (name, quoted) := field '\t' line
  let kind ← Kind.all.find? fun k => k.qualifiedName.toList == name
  let text ← Text.Quoted.decode quoted
  return ⟨kind, text⟩

def Token.lexeme (t : Token) : Lexeme :=
  ⟨t.kind, t.value⟩

def Token.ofLine? (line : List Char) : Option Token := do
  let (_, line) := field ' ' line
  let (start, line) := field '.' line
  let (stop, line) := field ' ' line.tail
  let (title, quoted) := field ' ' line
  let kind ← Kind.ofTitle? (String.ofList title)
  let value ← Text.Quoted.decode quoted
  return ⟨kind, value, ⟨Nat.ofDigitChars 10 start 0, Nat.ofDigitChars 10 stop 0⟩⟩

/-- The tokens that lines have been printed for. Dotted lines are taken for a text from its beginning. -/
def Command.Format.tokens? (lines : List (List Char)) : Format → Option (List Token)
  | raw => (lines.mapM Lexeme.ofLine?).map (Lexeme.layout 0)
  | spans => lines.mapM Token.ofLine?

def Command.Format.readBack? (f : Format) (output : String) : Option (List Token) :=
  f.tokens? (output.toList.splitOn '\n').dropLast

theorem Kind.not_mem_qualifiedName (k : Kind) :
    '\t' ∉ k.qualifiedName.toList ∧ '\n' ∉ k.qualifiedName.toList := by
  cases k <;> decide

theorem Kind.not_mem_title (k : Kind) : ' ' ∉ k.title.toList ∧ '\n' ∉ k.title.toList := by
  cases k <;> decide

theorem Kind.find?_qualifiedName (k : Kind) :
    all.find? (fun j => j.qualifiedName.toList == k.qualifiedName.toList) = some k := by
  cases k <;> decide

theorem Kind.ofTitle?_title (k : Kind) : ofTitle? k.title = some k := by
  cases k <;> decide

theorem not_mem_toDigits {c : Char} (h : c.isDigit = false) (n : Nat) : c ∉ Nat.toDigits 10 n := by
  intro hc
  rw [Nat.isDigit_of_mem_toDigits (by decide) (by decide) hc] at h
  cases h

def Text.Place.digits (p : Place) : List Char :=
  Nat.toDigits 10 p.line ++ ':' :: Nat.toDigits 10 p.column

theorem Text.Place.blank_not_mem_digits (p : Place) : ' ' ∉ p.digits := by
  rw [digits, List.mem_append, List.mem_cons]
  rintro (h | h | h)
  · exact not_mem_toDigits rfl _ h
  · exact absurd h (by decide)
  · exact not_mem_toDigits rfl _ h

namespace Command

theorem toList_of_prints_raw {source : List Char} {t : Token} {line : String}
    (h : Format.raw.Prints source t line) :
    line.toList = t.kind.qualifiedName.toList ++ '\t' :: Text.Quoted.encode '"' t.value := by
  obtain rfl : line = _ := h
  simp [Text.Quoted.text]

theorem toList_spanLine (p : Place) (t : Token) :
    (spanLine p t).toList = p.digits ++ ' ' ::
      (Nat.toDigits 10 t.span.start ++ '.' :: '.' ::
        (Nat.toDigits 10 t.span.stop ++ ' ' ::
          (t.kind.title.toList ++ ' ' :: Text.Quoted.encode '"' t.value))) := by
  have hparts : spanLine p t = toString p.line ++ ":" ++ toString p.column ++ " " ++
      toString t.span.start ++ ".." ++ toString t.span.stop ++ " " ++ t.kind.title ++ " " ++
      Text.Quoted.text t.value := rfl
  rw [hparts]
  simp [Place.digits, Text.Quoted.text, Nat.toString_eq_repr, Nat.toList_repr]

theorem exists_spanLine_of_prints {source : List Char} {t : Token} {line : String}
    (h : Format.spans.Prints source t line) : ∃ p, line = spanLine p t := by
  obtain ⟨u, -, rfl⟩ := h
  exact ⟨⟨1 + u.count '\n', 1 + (Text.lastLine u).length⟩, rfl⟩

theorem ofLine?_of_prints_raw {source : List Char} {t : Token} {line : String}
    (h : Format.raw.Prints source t line) :
    Lexeme.ofLine? line.toList = some t.lexeme := by
  rw [toList_of_prints_raw h, Lexeme.ofLine?, field_append t.kind.not_mem_qualifiedName.1]
  simp [t.kind.find?_qualifiedName, Text.Quoted.decode_encode, Token.lexeme]

theorem ofLine?_of_prints_spans {source : List Char} {t : Token} {line : String}
    (h : Format.spans.Prints source t line) : Token.ofLine? line.toList = some t := by
  obtain ⟨p, rfl⟩ := exists_spanLine_of_prints h
  rw [toList_spanLine, Token.ofLine?, field_append p.blank_not_mem_digits]
  simp only [field_append (not_mem_toDigits (c := '.') rfl _), List.tail_cons,
    field_append (not_mem_toDigits (c := ' ') rfl _), field_append t.kind.not_mem_title.1,
    String.ofList_toList, t.kind.ofTitle?_title, Text.Quoted.decode_encode,
    Nat.ofDigitChars_ten_toDigits]
  rfl

theorem Format.lineFeed_not_mem {source : List Char} {t : Token} {line : String} {f : Format}
    (h : f.Prints source t line) : '\n' ∉ line.toList := by
  have hvalue := Text.Quoted.lineFeed_not_mem_encode t.value
  have hdigits := fun n => not_mem_toDigits (c := '\n') rfl n
  cases f with
  | raw =>
    rw [toList_of_prints_raw h]
    simp [t.kind.not_mem_qualifiedName.2, hvalue]
  | spans =>
    obtain ⟨p, rfl⟩ := exists_spanLine_of_prints h
    rw [toList_spanLine]
    simp [Place.digits, t.kind.not_mem_title.2, hdigits, hvalue]

theorem splitOn_unlines {lines : List String} (h : ∀ line ∈ lines, '\n' ∉ line.toList) :
    (unlines lines).toList.splitOn '\n' = lines.map String.toList ++ [[]] := by
  induction lines with
  | nil => rfl
  | cons line lines ih =>
    obtain ⟨hline, hlines⟩ := List.forall_mem_cons.1 h
    have hout : (unlines (line :: lines)).toList = line.toList ++ '\n' :: (unlines lines).toList := by
      simp [unlines, String.toList_join]
    rw [hout, List.splitOn_append_cons_self_of_not_mem hline, ih hlines, List.map_cons,
      List.cons_append]

end Command

theorem mapM_eq_some_of_forall₂ {α β γ : Type} {f : α → Option β} {g : γ → β} {xs : List α}
    {ys : List γ} (h : List.Forall₂ (fun y x => f x = some (g y)) ys xs) :
    xs.mapM f = some (ys.map g) := by
  induction h with
  | nil => rfl
  | cons hxy _ ih => rw [List.mapM_cons, hxy, ih]; rfl

theorem Lexeme.layout_of_tiles {source : List Char} {start stop : Nat} {ts : List Token}
    (h : Token.Tiles start stop ts) (hfrom : ∀ t ∈ ts, t.IsFrom source) :
    layout start (ts.map Token.lexeme) = ts := by
  induction ts generalizing start with
  | nil => rfl
  | cons t ts ih =>
    obtain ⟨rfl, hlt, htail⟩ := h
    obtain ⟨ht, hts⟩ := List.forall_mem_cons.1 hfrom
    obtain ⟨u, v, -, hu, hstop⟩ := slice_eq_ok_iff.1 ht
    rw [Text.bytes_append, hu] at hstop
    have hne : ¬ t.value.isEmpty := by
      intro hempty
      rw [List.isEmpty_iff.1 hempty, Text.bytes_nil] at hstop
      omega
    rw [List.map_cons, Token.lexeme, layout, if_neg hne, hstop, ih htail hts]

namespace Command

theorem Format.lineFeed_not_mem_lines {source : List Char} {ts : List Token} (f : Format)
    (h : ∀ t ∈ ts, t.IsFrom source) : ∀ line ∈ f.lines source ts, '\n' ∉ line.toList := by
  have hprints := f.forall₂_prints_lines h
  generalize f.lines source ts = lines at hprints
  induction hprints with
  | nil => exact List.forall_mem_nil _
  | cons ht _ ih =>
    exact List.forall_mem_cons.2 ⟨lineFeed_not_mem ht, ih fun t ht => h t (List.mem_cons_of_mem _ ht)⟩

theorem Format.readBack?_unlines (f : Format) (merge : Bool) (source : List Char) :
    f.readBack? (unlines (f.lines source (Token.printed source merge))) =
      some (Token.printed source merge) := by
  have hfrom : ∀ t ∈ Token.printed source merge, t.IsFrom source :=
    fun _ => Token.isFrom_of_mem_printed
  have hprints := f.forall₂_prints_lines hfrom
  rw [readBack?, splitOn_unlines (f.lineFeed_not_mem_lines hfrom), List.dropLast_concat]
  cases f with
  | raw =>
    have hread := mapM_eq_some_of_forall₂ (f := Lexeme.ofLine?) (g := Token.lexeme)
      (List.forall₂_map_right_iff.2 (hprints.imp fun _ _ => ofLine?_of_prints_raw))
    rw [tokens?, hread, Option.map_some,
      Lexeme.layout_of_tiles (Token.tiles_printed source merge) hfrom]
  | spans =>
    have hread := mapM_eq_some_of_forall₂ (f := Token.ofLine?) (g := id)
      (List.forall₂_map_right_iff.2 (hprints.imp fun _ _ => ofLine?_of_prints_spans))
    rw [tokens?, hread, List.map_id]

theorem Format.source_eq_of_unlines_eq {f : Format} {merge : Bool} {source other : List Char}
    (h : unlines (f.lines other (Token.printed other merge)) =
      unlines (f.lines source (Token.printed source merge))) : other = source := by
  have hread := f.readBack?_unlines merge other
  rw [h, readBack?_unlines, Option.some_inj] at hread
  rw [← Token.flatMap_value_printed other merge, ← hread, Token.flatMap_value_printed]

/-- An output is as good as the tokens that it shows. -/
theorem run_lossless (format : Format) (merge : Bool) (source : List Char) :
    ∃ ts lines,
      (if merge then Token.merge source (tokenize source) else .ok (tokenize source)) = .ok ts ∧
      lines.length = ts.length ∧ (∀ line ∈ lines, '\n' ∉ line.toList) ∧
      (unlines lines).toList.splitOn '\n' = lines.map String.toList ++ [[]] ∧
      format.readBack? (unlines lines) = some ts ∧
      (∀ arguments e, Requests arguments e format merge source →
        ∃ r, run arguments e = .ok r ∧ r.stdout = unlines lines) ∧
      ∀ arguments e other, Requests arguments e format merge other →
        (run arguments e).map Response.stdout = .ok (unlines lines) → other = source := by
  have hfrom : ∀ t ∈ Token.printed source merge, t.IsFrom source :=
    fun _ => Token.isFrom_of_mem_printed
  have hfeed := format.lineFeed_not_mem_lines hfrom
  refine ⟨_, format.lines source (Token.printed source merge), Token.merge_eq_printed source merge,
    (format.forall₂_prints_lines hfrom).length_eq.symm, hfeed, splitOn_unlines hfeed,
    format.readBack?_unlines merge source, ?_, ?_⟩
  · intro arguments e h
    obtain ⟨r, hrun, -, hout⟩ := h.exists_response
    exact ⟨r, hrun, hout⟩
  · intro arguments e other h hsame
    obtain ⟨r, hrun, -, hout⟩ := h.exists_response
    rw [hrun] at hsame
    exact Format.source_eq_of_unlines_eq (hout.symm.trans (Except.ok.inj hsame))

/-- An accent that joins the letter before it is shown by its code point, and yet a text in which this
is spelled out is printed in another way. -/
theorem run_lossless_accent :
    ∃ ts lines, Token.merge "e\u0301".toList (tokenize "e\u0301".toList) = .ok ts ∧
      Format.raw.readBack? (unlines lines) = some ts ∧
      (∃ r, run ["--merge".toList] { standard := "e\u0301".toUTF8 } = .ok r ∧
        r.stdout = unlines lines) ∧
      (run ["--merge".toList] { standard := "e\\u\x7b301\x7d".toUTF8 }).map Response.stdout ≠
        .ok (unlines lines) := by
  obtain ⟨ts, lines, hts, -, -, -, hback, hrun, hother⟩ := run_lossless .raw true "e\u0301".toList
  let o : Options := { merge := true }
  have hread : read ["--merge".toList] = .ok (.run o) := by decide +kernel
  refine ⟨ts, lines, hts, hback, hrun _ _ ⟨o, ⟨.tony, none⟩, hread, rfl, rfl, rfl, rfl, rfl⟩, ?_⟩
  intro hsame
  have hspelled : Requests ["--merge".toList] { standard := "e\\u\x7b301\x7d".toUTF8 } .raw true
      "e\\u\x7b301\x7d".toList := ⟨o, ⟨.tony, none⟩, hread, rfl, rfl, rfl, rfl, rfl⟩
  exact absurd (hother _ _ _ hspelled hsame) (by decide)

end Command
end Tony
