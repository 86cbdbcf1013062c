import Mathlib.Tactic.Common

/-!
# Runs of a state machine

A machine answers every event with a response and a new state, or refuses it. A
run is a finite sequence of accepted events; its trace lists them with their
responses, so what an observer has seen is a function of the trace. Every event
of a run may be required to meet a condition on the state it is applied to.
-/

namespace Starfish

universe u v w

variable {σ : Type u} {ε : Type v} {ρ : Type w}

/-- `Run step ok s tr t`: from `s` the machine reaches `t` by the events of `tr`,
each of which met `ok` in the state before it. -/
inductive Run (step : σ → ε → Option (ρ × σ)) (ok : σ → ε → Prop) (s : σ) :
    List (ε × ρ) → σ → Prop
  | nil : Run step ok s [] s
  | snoc {tr : List (ε × ρ)} {t u : σ} {e : ε} {r : ρ} :
      Run step ok s tr t → ok t e → step t e = some (r, u) → Run step ok s (tr ++ [(e, r)]) u

namespace Run

variable {step : σ → ε → Option (ρ × σ)} {ok : σ → ε → Prop} {s t : σ} {tr : List (ε × ρ)}

/-- A relation between traces and states that every permitted step keeps holds
along every run. -/
theorem invariant {I : List (ε × ρ) → σ → Prop} (hrun : Run step ok s tr t) (hinit : I [] s)
    (hstep : ∀ tr t e r u, I tr t → ok t e → step t e = some (r, u) → I (tr ++ [(e, r)]) u) :
    I tr t := by
  induction hrun with
  | nil => exact hinit
  | snoc _ hok hs ih => exact hstep _ _ _ _ _ ih hok hs

/-- Extend a run by a given event. -/
theorem push {u : σ} {r : ρ} (hrun : Run step ok s tr t) (e : ε) (hs : step t e = some (r, u))
    (hok : ok t e) : Run step ok s (tr ++ [(e, r)]) u :=
  .snoc hrun hok hs

theorem trans {u : σ} {tr' : List (ε × ρ)} (hrun : Run step ok s tr t)
    (hnext : Run step ok t tr' u) : Run step ok s (tr ++ tr') u := by
  induction hnext with
  | nil =>
    rw [List.append_nil]
    exact hrun
  | snoc _ hok hs ih =>
    rw [← List.append_assoc]
    exact .snoc ih hok hs

/-- Two machines in lockstep: what a step of the first answers, the second answers too. The
relation between their states may depend on the trace, and on it being part of the whole one. -/
theorem lockstep {σ' : Type*} {step' : σ' → ε → Option (ρ × σ')} {ok' : σ' → ε → Prop}
    {R : List (ε × ρ) → σ → σ' → Prop} {s' : σ'} {whole : List (ε × ρ)}
    (hrun : Run step ok s tr t) (hwhole : tr <+: whole) (hinit : R [] s s')
    (hstep : ∀ tr t t' e r u, R tr t t' → tr ++ [(e, r)] <+: whole → ok t e →
      step t e = some (r, u) →
        ∃ u', ok' t' e ∧ step' t' e = some (r, u') ∧ R (tr ++ [(e, r)]) u u') :
    ∃ t', Run step' ok' s' tr t' ∧ R tr t t' := by
  induction hrun with
  | nil => exact ⟨s', .nil, hinit⟩
  | snoc _ hok hs ih =>
    obtain ⟨t', hrun', hrel⟩ := ih ((List.prefix_append _ _).trans hwhole)
    obtain ⟨u', hok', hs', hrel'⟩ := hstep _ _ _ _ _ _ hrel hwhole hok hs
    exact ⟨u', .snoc hrun' hok' hs', hrel'⟩

end Run

end Starfish
