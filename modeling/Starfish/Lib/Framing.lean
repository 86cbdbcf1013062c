import Starfish.Lib.Cursor

/-!
# Streams of frames

A decoder reads one frame from the front of a buffer, or says that the frame is not
complete yet. `drain` is the loop around it: frames are taken from the buffer until an
incomplete one is left, and each of them is passed to a step function that may refuse it.
For a decoder whose answers do not change when more bytes arrive (`Framed`) the loop ends,
and it does not see where the buffer was cut (`drain_append`).
-/

namespace Starfish.Framing

open Outcome

variable {β α σ ε : Type}

/-- Take frames from the front of the buffer while there are complete ones; `none` if the
fuel does not suffice. -/
def drainFrom (decode : List β → Outcome ε (Option (α × Nat))) (step : σ → α → Except ε σ) :
    Nat → σ → List β → Option (Outcome ε (σ × List β))
  | 0, _, _ => none
  | fuel + 1, s, buf =>
    match decode buf with
    | .panic => some .panic
    | .error e => some (.error e)
    | .ok none => some (.ok (s, buf))
    | .ok (some (frame, consumed)) =>
      match (Outcome.range buf consumed buf.length : Outcome ε (List β)) with
      | .panic => some .panic
      | .error e => some (.error e)
      | .ok rest =>
        match step s frame with
        | .error e => some (.error e)
        | .ok t => drainFrom decode step fuel t rest

/-- A decoder whose answers are final: more bytes change neither a frame nor an error. -/
structure Framed (decode : List β → Outcome ε (Option (α × Nat))) : Prop where
  ne_panic : ∀ buf, decode buf ≠ .panic
  bounds : ∀ {buf frame consumed}, decode buf = .ok (some (frame, consumed)) →
    0 < consumed ∧ consumed ≤ buf.length
  append_some : ∀ {buf r}, decode buf = .ok (some r) → ∀ more, decode (buf ++ more) = .ok (some r)
  append_error : ∀ {buf e}, decode buf = .error e → ∀ more, decode (buf ++ more) = .error e

/-- The loop with enough fuel: every round takes at least one byte. -/
def drain (decode : List β → Outcome ε (Option (α × Nat))) (step : σ → α → Except ε σ) (s : σ)
    (buf : List β) : Option (Outcome ε (σ × List β)) :=
  drainFrom decode step (buf.length + 1) s buf

variable {decode : List β → Outcome ε (Option (α × Nat))} {step : σ → α → Except ε σ}

variable {buf : List β}

theorem Framed.range_consumed (h : Framed decode) {frame : α} {consumed : Nat}
    (hdecode : decode buf = .ok (some (frame, consumed))) :
    (Outcome.range buf consumed buf.length : Outcome ε (List β)) = .ok (buf.drop consumed) :=
  Outcome.range_to_end (h.bounds hdecode).2

variable {s : σ}

/-- More fuel than bytes gives the same result as just enough. -/
theorem Framed.drainFrom_eq (h : Framed decode) {fuel : Nat} (hfuel : buf.length < fuel) :
    drainFrom decode step fuel s buf = drain decode step s buf := by
  suffices ∀ fuel fuel' (s : σ) (buf : List β), buf.length < fuel → buf.length < fuel' →
      drainFrom decode step fuel s buf = drainFrom decode step fuel' s buf from
    this _ _ s buf hfuel (Nat.lt_succ_self _)
  intro fuel
  induction fuel with
  | zero => intro _ _ _ hlt; omega
  | succ fuel ih =>
    intro fuel' s buf hlt hlt'
    cases fuel' with
    | zero => omega
    | succ fuel' =>
      simp only [drainFrom]
      cases hdecode : decode buf with
      | panic => rfl
      | error e => rfl
      | ok answer =>
        cases answer with
        | none => rfl
        | some r =>
          have hbounds := h.bounds hdecode
          simp only [h.range_consumed hdecode]
          grind

theorem drain_of_none (hdecode : decode buf = .ok none) :
    drain decode step s buf = some (.ok (s, buf)) := by
  simp [drain, drainFrom, hdecode]

theorem drain_of_error {e : ε} (hdecode : decode buf = .error e) :
    drain decode step s buf = some (.error e) := by
  simp [drain, drainFrom, hdecode]

section Equations

variable (h : Framed decode)
include h

theorem drain_of_some {frame : α} {consumed : Nat}
    (hdecode : decode buf = .ok (some (frame, consumed))) : drain decode step s buf =
      match step s frame with
      | .error e => some (.error e)
      | .ok t => drain decode step t (buf.drop consumed) := by
  rw [drain, drainFrom, hdecode]
  simp only [h.range_consumed hdecode]
  cases step s frame with
  | error e => rfl
  | ok t =>
    have hbounds := h.bounds hdecode
    exact h.drainFrom_eq (by simp; omega)

/-- Induction along the frames of a buffer. -/
theorem frames_induction {motive : List β → Prop}
    (incomplete : ∀ buf, decode buf = .ok none → motive buf)
    (failed : ∀ buf e, decode buf = .error e → motive buf)
    (frame : ∀ buf frame consumed, decode buf = .ok (some (frame, consumed)) →
      motive (buf.drop consumed) → motive buf) (buf : List β) : motive buf := by
  induction hn : buf.length using Nat.strongRecOn generalizing buf with
  | ind n ih =>
    cases hdecode : decode buf with
    | panic => exact absurd hdecode (h.ne_panic buf)
    | error e => exact failed buf e hdecode
    | ok answer =>
      cases answer with
      | none => exact incomplete buf hdecode
      | some r =>
        have hbounds := h.bounds hdecode
        exact frame buf r.1 r.2 hdecode (ih _ (by simp; omega) _ rfl)

/-- The loop ends, and without a panic. -/
theorem drain_ends (s : σ) (buf : List β) :
    ∃ result, drain decode step s buf = some result ∧ result ≠ .panic := by
  induction buf using frames_induction h generalizing s with
  | incomplete buf hdecode => exact ⟨_, drain_of_none hdecode, by simp⟩
  | failed buf e hdecode => exact ⟨_, drain_of_error hdecode, by simp⟩
  | frame buf frame consumed hdecode ih =>
    rw [drain_of_some h hdecode]
    cases step s frame with
    | error e => exact ⟨_, rfl, by simp⟩
    | ok t => exact ih t

/-- What the loop leaves in the buffer is an incomplete frame, and no longer than before. -/
theorem drain_rest {t : σ} {rest : List β}
    (hdrain : drain decode step s buf = some (.ok (t, rest))) :
    decode rest = .ok none ∧ rest.length ≤ buf.length := by
  induction buf using frames_induction h generalizing s with
  | incomplete buf hdecode =>
    rw [drain_of_none hdecode] at hdrain
    cases hdrain
    exact ⟨hdecode, Nat.le_refl _⟩
  | failed buf e hdecode =>
    rw [drain_of_error hdecode] at hdrain
    cases hdrain
  | frame buf frame consumed hdecode ih =>
    rw [drain_of_some h hdecode] at hdrain
    cases hstep : step s frame with
    | error e => simp [hstep] at hdrain
    | ok t' =>
      rw [hstep] at hdrain
      have := ih hdrain
      simp only [List.length_drop] at this
      exact ⟨this.1, by omega⟩

/-- A buffer that arrives in two pieces is drained as it would be in one. -/
theorem drain_append (s : σ) (buf more : List β) :
    drain decode step s (buf ++ more) =
      match drain decode step s buf with
      | some (.ok (t, rest)) => drain decode step t (rest ++ more)
      | other => other := by
  induction buf using frames_induction h generalizing s with
  | incomplete buf hdecode => rw [drain_of_none hdecode]
  | failed buf e hdecode =>
    rw [drain_of_error hdecode, drain_of_error (h.append_error hdecode more)]
  | frame buf frame consumed hdecode ih =>
    rw [drain_of_some h hdecode, drain_of_some h (h.append_some hdecode more)]
    cases step s frame with
    | error e => rfl
    | ok t =>
      have hbounds := h.bounds hdecode
      simp only [List.drop_append_of_le_length hbounds.2]
      exact ih t

end Equations

/-! ## Sequences of frames -/

/-- A buffer that consists of complete frames. -/
inductive Frames (decode : List β → Outcome ε (Option (α × Nat))) : List β → List α → Prop
  | nil : Frames decode [] []
  | cons {bytes rest : List β} {frame : α} {frames : List α}
      (hdecode : decode bytes = .ok (some (frame, bytes.length)))
      (hrest : Frames decode rest frames) : Frames decode (bytes ++ rest) (frame :: frames)

/-- A frame read from a longer buffer is read from its own bytes alone. -/
def Local (decode : List β → Outcome ε (Option (α × Nat))) : Prop :=
  ∀ {buf frame consumed}, decode buf = .ok (some (frame, consumed)) →
    decode (buf.take consumed) = .ok (some (frame, consumed))

theorem drain_of_frames (h : Framed decode) {front rest : List β} {frames : List α} {t : σ}
    (hframes : Frames decode front frames) (hfold : frames.foldlM step s = .ok t) :
    drain decode step s (front ++ rest) = drain decode step t rest := by
  induction hframes generalizing s with
  | nil =>
    cases hfold
    rfl
  | @cons bytes tail frame frames hdecode _ ih =>
    rw [List.append_assoc, drain_of_some h (h.append_some hdecode _), List.drop_left]
    rw [List.foldlM_cons] at hfold
    cases hstep : step s frame with
    | error e =>
      rw [hstep] at hfold
      cases hfold
    | ok s' =>
      rw [hstep] at hfold
      exact ih hfold

/-- The loop succeeds on a sequence of frames that the step function lets through, followed by
an incomplete one. -/
theorem drain_eq_ok_iff (h : Framed decode) (hlocal : Local decode) {t : σ} {rest : List β} :
    drain decode step s buf = some (.ok (t, rest)) ↔
      ∃ front frames, Frames decode front frames ∧ buf = front ++ rest ∧
        decode rest = .ok none ∧ frames.foldlM step s = .ok t := by
  constructor
  · intro hdrain
    induction buf using frames_induction h generalizing s with
    | incomplete buf hdecode =>
      rw [drain_of_none hdecode] at hdrain
      cases hdrain
      exact ⟨[], [], .nil, rfl, hdecode, rfl⟩
    | failed buf e hdecode =>
      rw [drain_of_error hdecode] at hdrain
      cases hdrain
    | frame buf frame consumed hdecode ih =>
      rw [drain_of_some h hdecode] at hdrain
      cases hstep : step s frame with
      | error e => simp [hstep] at hdrain
      | ok s' =>
        rw [hstep] at hdrain
        obtain ⟨front, frames, hframes, hbuf, hrest, hfold⟩ := ih hdrain
        have hbounds := h.bounds hdecode
        have hlength : (buf.take consumed).length = consumed := by
          rw [List.length_take]
          omega
        refine ⟨buf.take consumed ++ front, frame :: frames, .cons ?_ hframes, ?_, hrest, ?_⟩
        · rw [hlength]
          exact hlocal hdecode
        · rw [List.append_assoc, ← hbuf, List.take_append_drop]
        · rw [List.foldlM_cons, hstep]
          exact hfold
  · rintro ⟨front, frames, hframes, rfl, hrest, hfold⟩
    rw [drain_of_frames h hframes hfold, drain_of_none hrest]

end Starfish.Framing
