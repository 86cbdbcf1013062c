import Mathlib.Tactic.Common

/-!
# Loops

A loop repeats a step until the step gives a result. The number of turns is limited
by fuel, so that the definition is total; a loop that is still going when the fuel is
used up has no result. A measure that every turn lowers shows that this cannot happen.
-/

namespace Starfish.Loop

variable {σ ρ : Type} {step : σ → σ ⊕ ρ} {fuel : Nat} {s t : σ} {r : ρ}

/-- Repeat `step` at most `fuel` times. -/
def run (step : σ → σ ⊕ ρ) : Nat → σ → Option ρ
  | 0, _ => none
  | fuel + 1, s =>
    match step s with
    | .inl t => run step fuel t
    | .inr r => some r

theorem run_next (h : step s = .inl t) : run step (fuel + 1) s = run step fuel t := by
  simp only [run, h]

theorem run_done (h : step s = .inr r) : run step (fuel + 1) s = some r := by
  simp only [run, h]

/-- A loop whose every turn keeps an invariant and lowers a measure ends, and its result is one
that the invariant allows. -/
theorem run_total {I : σ → Prop} {post : ρ → Prop} (measure : σ → Nat)
    (hstep : ∀ s t, I s → step s = .inl t → I t ∧ measure t < measure s)
    (hdone : ∀ s r, I s → step s = .inr r → post r) (hinit : I s) (hfuel : measure s < fuel) :
    ∃ r, run step fuel s = some r ∧ post r := by
  induction fuel generalizing s with
  | zero => omega
  | succ fuel ih =>
    cases hs : step s with
    | inl t =>
      grind [run_next]
    | inr r => exact ⟨r, run_done hs, hdone s r hinit hs⟩

end Starfish.Loop
