import Starfish.Lib.Run

/-!
# Two machines and a network

Two machines take their steps in any order. What one of them is given may depend on what has
happened at both: the condition on the events of a run says what a network between them can
deliver.
-/

namespace Starfish

variable {σ ε ρ τ δ π : Type*}

/-- Two machines, with what has happened at each of them. -/
structure Peers (σ ε ρ τ δ π : Type*) where
  left : σ
  right : τ
  leftTrace : List (ε × ρ) := []
  rightTrace : List (δ × π) := []

inductive PeersEvent (ε δ : Type*)
  | left (e : ε)
  | right (e : δ)

namespace Peers

def goLeft (p : Peers σ ε ρ τ δ π) (e : ε) (r : ρ) (s : σ) : Peers σ ε ρ τ δ π :=
  { p with left := s, leftTrace := p.leftTrace ++ [(e, r)] }

def goRight (p : Peers σ ε ρ τ δ π) (e : δ) (r : π) (t : τ) : Peers σ ε ρ τ δ π :=
  { p with right := t, rightTrace := p.rightTrace ++ [(e, r)] }

/-- The responses are in the traces of the machines. -/
def step (f : σ → ε → Option (ρ × σ)) (g : τ → δ → Option (π × τ)) (p : Peers σ ε ρ τ δ π) :
    PeersEvent ε δ → Option (Unit × Peers σ ε ρ τ δ π)
  | .left e => (f p.left e).map fun next => ((), p.goLeft e next.1 next.2)
  | .right e => (g p.right e).map fun next => ((), p.goRight e next.1 next.2)

/-- What the steps of both machines keep holds however they are interleaved. -/
theorem invariant {f : σ → ε → Option (ρ × σ)} {g : τ → δ → Option (π × τ)}
    {ok : Peers σ ε ρ τ δ π → PeersEvent ε δ → Prop} {I : Peers σ ε ρ τ δ π → Prop}
    {p q : Peers σ ε ρ τ δ π} {tr : List (PeersEvent ε δ × Unit)}
    (hrun : Run (step f g) ok p tr q) (hinit : I p)
    (hleft : ∀ p e r s, I p → ok p (.left e) → f p.left e = some (r, s) → I (p.goLeft e r s))
    (hright : ∀ p e r t, I p → ok p (.right e) → g p.right e = some (r, t) →
      I (p.goRight e r t)) : I q := by
  refine hrun.invariant (I := fun _ q => I q) hinit ?_
  intro _ p e _ _ hinv hok hstep
  cases e with
  | left e =>
    obtain ⟨next, hnext, heq⟩ := Option.map_eq_some_iff.mp hstep
    cases heq
    exact hleft p e _ _ hinv hok hnext
  | right e =>
    obtain ⟨next, hnext, heq⟩ := Option.map_eq_some_iff.mp hstep
    cases heq
    exact hright p e _ _ hinv hok hnext

end Peers

end Starfish
