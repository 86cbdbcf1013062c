import Starfish.Quic.Recovery.LossDetection

/-!
# Bounds of the round-trip time estimate

The estimator is run with the checks of its durations: a sum or a product above the
largest duration and a difference below zero panic. Whatever delays the peer reports,
the estimate stays between the smallest and the largest sample.
-/

namespace Starfish.Quic

/-! ## Checked durations -/

inductive DurationPanic
  | overflow
  | underflow
deriving DecidableEq, Repr

namespace Duration

def add (a b : Nat) : Except DurationPanic Nat :=
  if a + b ≤ durationMax then .ok (a + b) else .error .overflow

def sub (a b : Nat) : Except DurationPanic Nat :=
  if b ≤ a then .ok (a - b) else .error .underflow

def mul (a n : Nat) : Except DurationPanic Nat :=
  if a * n ≤ durationMax then .ok (a * n) else .error .overflow

theorem mul_add (a n b : Nat) :
    (mul a n >>= fun c => add c b) =
      if a * n + b ≤ durationMax then .ok (a * n + b) else .error .overflow := by
  unfold mul
  split
  · rfl
  · rw [if_neg (by omega)]
    rfl

end Duration

namespace RttEstimator

def adjust (minRtt rttSample ackDelay : Nat) : Except DurationPanic Nat := do
  let floor ← Duration.add minRtt ackDelay
  if floor < rttSample then Duration.sub rttSample ackDelay else return rttSample

def checkedUpdate (rtt : RttEstimator) (rttSample ackDelay : Nat) :
    Except DurationPanic RttEstimator :=
  let minRtt := min rtt.minRtt rttSample
  if rtt.firstSample then .ok ⟨rttSample, rttSample / 2, minRtt, rttSample, false⟩
  else do
    let adjustedRtt ← adjust minRtt rttSample ackDelay
    let diff := max rtt.smoothedRtt adjustedRtt - min rtt.smoothedRtt adjustedRtt
    let rttvar ← Duration.mul rtt.rttvar 3 >>= fun product => Duration.add product diff
    let smoothedRtt ←
      Duration.mul rtt.smoothedRtt 7 >>= fun product => Duration.add product adjustedRtt
    return ⟨smoothedRtt / 8, rttvar / 4, minRtt, rttSample, false⟩

def checkedPto (rtt : RttEstimator) : Except DurationPanic Nat := do
  Duration.add rtt.smoothedRtt (← Duration.mul (max rtt.rttvar (millis 1)) 4)

/-- Samples with their delays, taken into account one after the other. -/
def checkedUpdates (rtt : RttEstimator) (acks : List (Nat × Nat)) :
    Except DurationPanic RttEstimator :=
  acks.foldlM (fun rtt ack => rtt.checkedUpdate ack.1 ack.2) rtt

def updates (rtt : RttEstimator) (acks : List (Nat × Nat)) : RttEstimator :=
  acks.foldl (fun rtt ack => rtt.update ack.1 ack.2) rtt

variable {rtt : RttEstimator} {low high : Nat}

def adjustedRtt (minRtt rttSample ackDelay : Nat) : Nat :=
  if minRtt + ackDelay < rttSample then rttSample - ackDelay else rttSample

theorem adjustedRtt_bounds {minRtt rttSample : Nat} (h : minRtt ≤ rttSample) (ackDelay : Nat) :
    minRtt ≤ adjustedRtt minRtt rttSample ackDelay ∧
      adjustedRtt minRtt rttSample ackDelay ≤ rttSample := by
  unfold adjustedRtt
  split <;> omega

/-! ## What can fail -/

theorem adjust_eq (minRtt rttSample ackDelay : Nat) :
    adjust minRtt rttSample ackDelay =
      if minRtt + ackDelay ≤ durationMax then .ok (adjustedRtt minRtt rttSample ackDelay)
      else .error .overflow := by
  unfold adjust adjustedRtt Duration.add
  split
  · change (if minRtt + ackDelay < rttSample then _ else _) = _
    split
    · exact if_pos (by omega)
    · rfl
  · rfl

theorem checkedUpdate_eq (hfirst : rtt.firstSample = false) (rttSample ackDelay : Nat) :
    rtt.checkedUpdate rttSample ackDelay =
      let adjusted := adjustedRtt (min rtt.minRtt rttSample) rttSample ackDelay
      if min rtt.minRtt rttSample + ackDelay ≤ durationMax ∧
          rtt.rttvar * 3 + (max rtt.smoothedRtt adjusted - min rtt.smoothedRtt adjusted) ≤
            durationMax ∧
          rtt.smoothedRtt * 7 + adjusted ≤ durationMax then
        .ok (rtt.update rttSample ackDelay)
      else .error .overflow := by
  simp only [checkedUpdate, update, hfirst, Bool.false_eq_true, if_false, adjust_eq,
    Duration.mul_add]
  rw [← adjustedRtt]
  generalize adjustedRtt (min rtt.minRtt rttSample) rttSample ackDelay = adjusted
  by_cases hadjust : min rtt.minRtt rttSample + ackDelay ≤ durationMax
  · simp only [hadjust, true_and, if_true, bind, Except.bind]
    generalize max rtt.smoothedRtt adjusted - min rtt.smoothedRtt adjusted = diff
    by_cases hvar : rtt.rttvar * 3 + diff ≤ durationMax
    · by_cases hsmoothed : rtt.smoothedRtt * 7 + adjusted ≤ durationMax
      · simp only [hvar, hsmoothed, and_self, if_true]
        rfl
      · simp only [hvar, hsmoothed, and_false, if_true, if_false]
    · simp only [hvar, false_and, if_false]
  · simp only [hadjust, false_and, if_false, bind, Except.bind]

theorem checkedUpdate_cases (rtt : RttEstimator) (rttSample ackDelay : Nat) :
    rtt.checkedUpdate rttSample ackDelay = .ok (rtt.update rttSample ackDelay) ∨
      rtt.checkedUpdate rttSample ackDelay = .error .overflow := by
  cases hfirst : rtt.firstSample with
  | true =>
    left
    simp only [checkedUpdate, update, hfirst, if_true]
  | false =>
    rw [checkedUpdate_eq hfirst]
    exact ite_eq_or_eq _ _ _

theorem checkedUpdates_cases (rtt : RttEstimator) (acks : List (Nat × Nat)) :
    rtt.checkedUpdates acks = .ok (rtt.updates acks) ∨
      rtt.checkedUpdates acks = .error .overflow := by
  induction acks generalizing rtt with
  | nil => exact .inl rfl
  | cons ack acks ih =>
    rw [checkedUpdates, List.foldlM_cons]
    rcases rtt.checkedUpdate_cases ack.1 ack.2 with hstep | hstep <;> rw [hstep]
    · exact ih _
    · exact .inr rfl

/-! ## The bounds -/

/-- The estimate after samples of which `low` is the smallest and `high` the largest. -/
structure Within (low high : Nat) (rtt : RttEstimator) : Prop where
  sampled : rtt.firstSample = false
  minRtt_eq : rtt.minRtt = low
  le_smoothedRtt : low ≤ rtt.smoothedRtt
  smoothedRtt_le : rtt.smoothedRtt ≤ high
  rttvar_le : rtt.rttvar ≤ high

theorem within_first {rttSample : Nat} (h : rttSample ≤ durationMax) (ackDelay : Nat) :
    Within rttSample rttSample (new.update rttSample ackDelay) where
  sampled := rfl
  minRtt_eq := Nat.min_eq_right h
  le_smoothedRtt := Nat.le_refl _
  smoothedRtt_le := Nat.le_refl _
  rttvar_le := Nat.div_le_self _ _

theorem Within.update (h : Within low high rtt) (rttSample ackDelay : Nat) :
    Within (min low rttSample) (max high rttSample) (rtt.update rttSample ackDelay) := by
  obtain ⟨hfirst, rfl, hlow, hhigh, hvar⟩ := h
  have hadjusted := adjustedRtt_bounds (Nat.min_le_right rtt.minRtt rttSample) ackDelay
  simp only [RttEstimator.update, hfirst, Bool.false_eq_true, if_false]
  rw [← adjustedRtt]
  refine ⟨rfl, rfl, ?_, ?_, ?_⟩ <;> dsimp only <;> omega

theorem Within.updates (h : Within low high rtt) (acks : List (Nat × Nat)) :
    Within ((acks.map Prod.fst).foldl min low) ((acks.map Prod.fst).foldl max high)
      (rtt.updates acks) := by
  induction acks generalizing low high rtt with
  | nil => exact h
  | cons ack acks ih => exact ih (h.update ack.1 ack.2)

theorem Within.pto_le (h : Within low high rtt) : rtt.pto ≤ 5 * high + millis 4 := by
  have hsmoothed := h.smoothedRtt_le
  have hvar := h.rttvar_le
  unfold pto millis
  omega

/-! ## Durations far below the largest one -/

/-- Eight times the sample and the sample with its delay are durations. -/
def Representable (ack : Nat × Nat) : Prop :=
  8 * ack.1 ≤ durationMax ∧ ack.1 + ack.2 ≤ durationMax

instance (ack : Nat × Nat) : Decidable (Representable ack) :=
  inferInstanceAs (Decidable (_ ∧ _))

theorem Within.checkedUpdate_ok (h : Within low high rtt) (hhigh : 8 * high ≤ durationMax)
    {ack : Nat × Nat} (hack : Representable ack) :
    rtt.checkedUpdate ack.1 ack.2 = .ok (rtt.update ack.1 ack.2) := by
  obtain ⟨hfirst, hmin, hlow, hsmoothed, hvar⟩ := h
  obtain ⟨hsample, hdelay⟩ := hack
  have hadjusted := adjustedRtt_bounds (Nat.min_le_right rtt.minRtt ack.1) ack.2
  rw [checkedUpdate_eq hfirst]
  exact if_pos ⟨by omega, by omega, by omega⟩

theorem Within.checkedUpdates_ok (h : Within low high rtt) (hhigh : 8 * high ≤ durationMax)
    {acks : List (Nat × Nat)} (hacks : ∀ ack ∈ acks, Representable ack) :
    rtt.checkedUpdates acks = .ok (rtt.updates acks) ∧
      8 * (acks.map Prod.fst).foldl max high ≤ durationMax := by
  induction acks generalizing low high rtt with
  | nil => exact ⟨rfl, hhigh⟩
  | cons ack acks ih =>
    obtain ⟨hack, hacks⟩ := List.forall_mem_cons.mp hacks
    have hnext : 8 * max high ack.1 ≤ durationMax := by
      have hsample := hack.1
      omega
    rw [checkedUpdates, List.foldlM_cons, h.checkedUpdate_ok hhigh hack]
    exact ih (h.update ack.1 ack.2) hnext hacks

theorem checkedPto_eq (rtt : RttEstimator) :
    rtt.checkedPto = if rtt.pto ≤ durationMax then .ok rtt.pto else .error .overflow := by
  unfold checkedPto pto Duration.mul
  split
  · rfl
  · rw [if_neg (by omega)]
    rfl

/-- After samples and any delays the minimum is that of the samples, the smoothed time lies
between it and the largest sample, and the largest sample bounds the variation and the probe
timeout. No subtraction fails; nothing fails if eight times each sample and each sample with
its delay are durations. -/
theorem rtt_estimate_bounds {acks : List (Nat × Nat)} (hne : acks ≠ [])
    (hacks : ∀ ack ∈ acks, ack.1 ≤ durationMax) :
    (∀ rtt, new.checkedUpdates acks = .ok rtt →
      ∃ high, (acks.map Prod.fst).min? = some rtt.minRtt ∧ (acks.map Prod.fst).max? = some high ∧
        rtt.minRtt ≤ rtt.smoothedRtt ∧ rtt.smoothedRtt ≤ high ∧ rtt.rttvar ≤ high ∧
        ∀ pto, rtt.checkedPto = .ok pto → pto ≤ 5 * high + millis 4) ∧
      new.checkedUpdates acks ≠ .error .underflow ∧
      ((∀ ack ∈ acks, Representable ack) →
        ∃ rtt pto, new.checkedUpdates acks = .ok rtt ∧ rtt.checkedPto = .ok pto) := by
  obtain ⟨first, acks, rfl⟩ := List.exists_cons_of_ne_nil hne
  have hfirst := within_first (hacks first List.mem_cons_self) first.2
  have hwithin := hfirst.updates acks
  have hrun : new.checkedUpdates (first :: acks) =
      (new.update first.1 first.2).checkedUpdates acks := rfl
  rw [hrun]
  refine ⟨fun rtt hrtt => ?_, fun hunderflow => ?_, fun hfits => ?_⟩
  · obtain hok | herror := (new.update first.1 first.2).checkedUpdates_cases acks
    · cases hok.symm.trans hrtt
      refine ⟨_, congrArg some hwithin.minRtt_eq.symm, rfl, ?_, hwithin.smoothedRtt_le,
        hwithin.rttvar_le, fun pto hpto => ?_⟩
      · rw [hwithin.minRtt_eq]
        exact hwithin.le_smoothedRtt
      · rw [checkedPto_eq] at hpto
        split at hpto <;> cases hpto
        exact hwithin.pto_le
    · cases herror.symm.trans hrtt
  · obtain hok | herror := (new.update first.1 first.2).checkedUpdates_cases acks
    · cases hok.symm.trans hunderflow
    · cases herror.symm.trans hunderflow
  · obtain ⟨hhead, htail⟩ := List.forall_mem_cons.mp hfits
    obtain ⟨hok, hhigh⟩ := hfirst.checkedUpdates_ok hhead.1 htail
    have hpto : (updates (new.update first.1 first.2) acks).pto ≤ durationMax := by
      refine Nat.le_trans hwithin.pto_le ?_
      unfold millis
      have hmax : 32000000 ≤ durationMax := by decide
      omega
    exact ⟨_, _, hok, by rw [checkedPto_eq, if_pos hpto]⟩

theorem delayed_sample_bounded :
    ∃ rtt pto, new.checkedUpdates [(millis 100, 0), (millis 160, millis 25)] = .ok rtt ∧
      rtt.checkedPto = .ok pto :=
  (rtt_estimate_bounds (by decide) (by decide)).2.2 (by decide)

/-- Seven times a sample may be a duration while the sum that it is part of is none. -/
theorem seventh_of_duration_panics :
    7 * (durationMax / 7) ≤ durationMax ∧
      new.checkedUpdates [(durationMax / 7, 0), (durationMax / 7, 0)] = .error .overflow := by
  decide

end RttEstimator

end Starfish.Quic
