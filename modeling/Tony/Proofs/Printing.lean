import Mathlib.Data.List.Forall2
import Tony.Command.Run
import Tony.Proofs.Merging
import Tony.Proofs.Places

/-!
What a run of the command prints. Main statement: a run that gets at a text prints its tokens one to
a line, each as its format has it. The lines are given by the text, the format and the merging alone,
and their places are counted from the top of the text.
-/

namespace Tony

open Text (Locator Place bytes lastLine slice slice_eq_ok_iff)

theorem isFrom_of_mem_tokenize {source : List Char} {t : Token} (h : t ∈ tokenize source) :
    t.IsFrom source := by
  rw [tokenize_eq] at h
  exact Station.isFrom_of_mem_stations h

namespace Token

def printed (source : List Char) (merge : Bool) : List Token :=
  if merge then merged (tokenize source) else tokenize source

theorem isFrom_of_mem_printed {source : List Char} {merge : Bool} {t : Token}
    (h : t ∈ printed source merge) : t.IsFrom source := by
  cases merge with
  | false => exact isFrom_of_mem_tokenize h
  | true => exact isFrom_of_mem_merged (fun _ => isFrom_of_mem_tokenize) t h

theorem tiles_printed (source : List Char) (merge : Bool) :
    Tiles 0 (bytes source) (printed source merge) := by
  have htiles : Tiles 0 (bytes source) (tokenize source) := by
    have h := Station.tiles_stations { ahead := source }
    rwa [← tokenize_eq, Text.bytes_nil, Nat.zero_add] at h
  cases merge with
  | false => exact htiles
  | true => exact htiles.merged

theorem flatMap_value_printed (source : List Char) (merge : Bool) :
    (printed source merge).flatMap value = source := by
  have hvalue : (tokenize source).flatMap value = source := by
    rw [tokenize_eq, Station.flatMap_value_stations]
  cases merge with
  | false => exact hvalue
  | true => exact (flatMap_value_merged _).trans hvalue

theorem merge_eq_printed (source : List Char) (merge : Bool) :
    (if merge then Token.merge source (tokenize source) else .ok (tokenize source)) =
      .ok (printed source merge) := by
  cases merge with
  | false => rfl
  | true => exact merge_eq_ok fun _ => isFrom_of_mem_tokenize

end Token

namespace Command

/-- What a token of a text is printed as. The line and the column are counted in the text before the
token. -/
def Format.Prints (source : List Char) : Format → Token → String → Prop
  | raw, t, line => line = t.kind.qualifiedName ++ "\t" ++ Text.Quoted.text t.value
  | spans, t, line =>
    ∃ u, slice source 0 t.span.start = .ok u ∧
      line = toString (1 + u.count '\n') ++ ":" ++ toString (1 + (lastLine u).length) ++ " " ++
        toString t.span.start ++ ".." ++ toString t.span.stop ++ " " ++ t.kind.title ++ " " ++
        Text.Quoted.text t.value

theorem prints_spanLine {source u a : List Char} {t : Token} (hsource : source = u ++ a)
    (hstart : bytes u = t.span.start) :
    Format.spans.Prints source t (spanLine (Place.endOf u) t) := by
  refine ⟨u, ?_, ?_⟩
  · rw [← hstart]
    exact slice_eq_ok_iff.2 ⟨[], a, hsource, rfl, rfl⟩
  · rw [Place.endOf_eq]
    rfl

theorem forall₂_prints_zipWith {source u : List Char} {l : Locator} {ts : List Token}
    (hl : l.source = source) (hu : l.StandsAfter u) (h : ∀ t ∈ ts, t.IsFrom source) :
    List.Forall₂ (Format.spans.Prints source) ts
      (List.zipWith spanLine (l.places (ts.map fun t => t.span.start)) ts) := by
  induction ts generalizing l u with
  | nil => exact .nil
  | cons t ts ih =>
    obtain ⟨ht, hts⟩ := List.forall_mem_cons.1 h
    obtain ⟨p, v, hsource, hstart, -⟩ := slice_eq_ok_iff.1 ht
    obtain ⟨hnext, hstands⟩ := hu.moveTo (hl.trans hsource)
    rw [List.map_cons, Locator.places_cons, List.zipWith_cons_cons, ← hstart, hstands.place_eq]
    exact .cons (prints_spanLine hsource hstart) (ih (hnext.trans hl) hstands hts)

theorem Format.forall₂_prints_lines {source : List Char} {ts : List Token} (f : Format)
    (h : ∀ t ∈ ts, t.IsFrom source) : List.Forall₂ (f.Prints source) ts (f.lines source ts) := by
  cases f with
  | raw =>
    rw [lines, List.forall₂_map_right_iff, List.forall₂_same]
    exact fun t _ => rfl
  | spans => exact forall₂_prints_zipWith rfl (Locator.standsAfter_start source) h

theorem Options.lines_eq (o : Options) (l : Language) (source : List Char) :
    o.lines l source = (o.format.getD .raw).lines source (Token.printed source o.merge) := by
  rw [lines, Language.tokenize, Token.printed]
  cases o.merge with
  | false => rfl
  | true => rw [Token.merge_eq_ok fun _ => isFrom_of_mem_tokenize]; rfl

def Options.text (o : Options) (e : Environment) : Except ReadFailure (List Char) :=
  if o.demo then .ok sample else e.read o.input

/-- Arguments that are accepted, ask for no list and find a language, with the text that they lead to
and the way in which it is to be printed. -/
def Requests (arguments : List (List Char)) (e : Environment) (format : Format) (merge : Bool)
    (source : List Char) : Prop :=
  ∃ o j, read arguments = .ok (.run o) ∧ o.list = false ∧ o.job = .ok j ∧
    o.text e = .ok source ∧ o.format.getD .raw = format ∧ o.merge = merge

theorem run_eq_ok {arguments : List (List Char)} {o : Options} {e : Environment}
    (h : read arguments = .ok (.run o)) :
    run arguments e = .ok (Id.run (o.respond fun input => pure (e.read input))) := by
  rw [run, h]
  rfl

theorem respond_of_job {o : Options} {e : Environment} {j : Job} (hlist : o.list = false)
    (hjob : o.job = .ok j) :
    Id.run (o.respond fun input => pure (e.read input)) = j.respond o (o.text e) := by
  rw [Options.respond, hlist, hjob, Options.text]
  cases o.demo <;> rfl

theorem Requests.exists_response {arguments : List (List Char)} {e : Environment} {format : Format}
    {merge : Bool} {source : List Char} (h : Requests arguments e format merge source) :
    ∃ r, Command.run arguments e = .ok r ∧ r.code = 0 ∧
      r.stdout = unlines (format.lines source (Token.printed source merge)) := by
  obtain ⟨o, j, hread, hlist, hjob, htext, rfl, rfl⟩ := h
  refine ⟨j.respond o (.ok source), ?_, rfl, ?_⟩
  · rw [run_eq_ok hread, respond_of_job hlist hjob, htext]
  · rw [← o.lines_eq j.language]
    rfl

end Command
end Tony
