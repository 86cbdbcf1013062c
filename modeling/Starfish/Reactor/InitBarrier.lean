import Mathlib.Algebra.Order.BigOperators.Group.Finset
import Mathlib.Data.Fintype.BigOperators
import Starfish.Lib.Run

/-!
# Startup of the reactor threads

Every worker signals a countdown when its initialization ends, waits for the count to reach
zero, and then meets the other workers and the main thread at a barrier. A worker that panics
instead drops its guard, which takes the missing steps. Under every schedule no thread goes on
before all have arrived, and none is left behind.
-/

namespace Starfish.Reactor

structure InitBarrierGuard where
  signaled : Bool := false
  synchronized : Bool := false
deriving DecidableEq, Repr

/-- The calls that wait: two of a guard, and `InitBarrier::wait` of the main thread. -/
inductive Call
  | ready
  | drop
  | wait
deriving DecidableEq, Repr

/-- Where a thread is. In `CountdownEvent::wait` it is about to look at the count, or asleep. -/
inductive Phase
  | running (guard : InitBarrierGuard)
  | checking (call : Call)
  | asleep (call : Call)
  | atBarrier (call : Call)
  | gone
deriving DecidableEq, Repr

namespace Phase

def woken : Phase → Phase
  | asleep call => checking call
  | phase => phase

def isAtBarrier : Phase → Bool
  | atBarrier _ => true
  | _ => false

/-- Where a call leaves its thread. -/
def released : Phase → Phase
  | atBarrier .ready => running ⟨true, true⟩
  | atBarrier .drop | atBarrier .wait => gone
  | phase => phase

def hasPassed : Phase → Bool
  | running guard => guard.synchronized
  | gone => true
  | _ => false

end Phase

/-- The workers, and the main thread as `none`. -/
abbrev Thread (n : Nat) := Option (Fin n)

structure InitBarrier (n : Nat) where
  count : Nat
  phase : Thread n → Phase

inductive StartupEvent (n : Nat)
  | ready (t : Thread n)
  | drop (t : Thread n)
  | wait (t : Thread n)
  | wake (t : Thread n)

/-- A condition variable may wake a thread without a reason. -/
def StartupEvent.isSpurious {n : Nat} : StartupEvent n → Bool
  | .wake _ => true
  | _ => false

namespace InitBarrier

variable {n : Nat}

/-- All workers initialize, and the main thread has called `wait`. -/
def new (n : Nat) : InitBarrier n where
  count := n
  phase := fun
    | some _ => .running {}
    | none => .checking .wait

def set (s : InitBarrier n) (t : Thread n) (phase : Phase) : InitBarrier n :=
  { s with phase := Function.update s.phase t phase }

/-- `CountdownEvent::signal`. -/
def signal (s : InitBarrier n) : InitBarrier n :=
  if s.count = 0 then s
  else if s.count = 1 then ⟨0, fun t => (s.phase t).woken⟩
  else { s with count := s.count - 1 }

/-- `Barrier::wait`: the last of the `n + 1` threads releases all. -/
def arrive (s : InitBarrier n) (t : Thread n) (call : Call) : InitBarrier n :=
  let next := s.set t (.atBarrier call)
  if ∀ u, (next.phase u).isAtBarrier = true then
    { next with phase := fun u => (next.phase u).released }
  else next

def step (s : InitBarrier n) : StartupEvent n → Option (Unit × InitBarrier n)
  | .ready t =>
    match s.phase t with
    | .running _ => some ((), s.signal.set t (.checking .ready))
    | _ => none
  | .drop t =>
    match s.phase t with
    | .running guard =>
      let next := if guard.signaled then s else s.signal
      some ((), next.set t (if guard.synchronized then .gone else .checking .drop))
    | _ => none
  | .wait t =>
    match s.phase t with
    | .checking call => some ((), if 0 < s.count then s.set t (.asleep call) else s.arrive t call)
    | _ => none
  | .wake t =>
    match s.phase t with
    | .asleep call => some ((), s.set t (.checking call))
    | _ => none

/-- A guard becomes ready at most once. -/
def Allowed (s : InitBarrier n) : StartupEvent n → Prop
  | .ready t => s.phase t = .running {}
  | _ => True

/-! ## Sums over the threads -/

def total (w : Phase → Nat) (f : Thread n → Phase) : Nat := ∑ t, w (f t)

variable {w : Phase → Nat} {f g : Thread n → Phase} {s s' : InitBarrier n} {passed : Bool}
  {t : Thread n} {phase : Phase} {call : Call}

theorem total_update (w : Phase → Nat) (f : Thread n → Phase) (t : Thread n) (phase : Phase) :
    total w (Function.update f t phase) + w (f t) = total w f + w phase := by
  have hnew := Finset.sum_update_of_mem (Finset.mem_univ t) (w ∘ f) (w phase)
  have hold := Finset.sum_update_of_mem (Finset.mem_univ t) (w ∘ f) (w (f t))
  rw [← Function.comp_update] at hnew hold
  rw [Function.update_eq_self] at hold
  simp only [Function.comp_apply] at hnew hold
  unfold total
  omega

theorem total_le_add {k : Nat} (h : ∀ t, w (g t) ≤ w (f t) + k) :
    total w g ≤ total w f + (n + 1) * k := by
  calc total w g ≤ ∑ t, (w (f t) + k) := Finset.sum_le_sum fun t _ => h t
    _ = total w f + (n + 1) * k := by simp [total, Finset.sum_add_distrib]

/-- Whether a thread has still to signal. -/
def fresh : Phase → Nat
  | .running guard => (!guard.signaled).toNat
  | _ => 0

/-- What a thread has still to do, as long as the count does not change. -/
def rank : Phase → Nat
  | .checking _ => 2
  | .gone => 0
  | _ => 1

/-- A signal may wake every thread, and costs the count. -/
def weight (s : InitBarrier n) : Nat := (n + 4) * s.count + total rank s.phase

/-! ## One step -/

/-- Where a thread can be, before and after all have passed the barrier. -/
def Fits (passed : Bool) (count : Nat) : Phase → Prop
  | .running guard => guard = ⟨passed, passed⟩
  | .checking _ | .atBarrier _ => passed = false
  | .asleep _ => passed = false ∧ 0 < count
  | .gone => passed = true

structure Coherent (passed : Bool) (s : InitBarrier n) : Prop where
  count : s.count = total fresh s.phase
  fits : ∀ t, Fits passed s.count (s.phase t)
  unblocked : ∃ t, (s.phase t).isAtBarrier = false

theorem coherent_new (n : Nat) : Coherent false (new n) := by
  refine ⟨?_, fun t => ?_, none, rfl⟩
  · simp [total, new, fresh, Fintype.sum_option]
  · cases t <;> rfl

theorem weight_set (s : InitBarrier n) (t : Thread n) (phase : Phase) :
    (s.set t phase).weight + rank (s.phase t) = s.weight + rank phase := by
  have hrank := total_update rank s.phase t phase
  simp only [weight, set]
  omega

/-- One thread goes on, but not to the barrier. -/
theorem Coherent.of_set (hfits : ∀ u, Fits passed s.count (s.phase u))
    (hphase : Fits passed s.count phase) (hbarrier : phase.isAtBarrier = false)
    (hcount : s.count + fresh (s.phase t) = total fresh s.phase + fresh phase) :
    Coherent passed (s.set t phase) := by
  have hfresh := total_update fresh s.phase t phase
  refine ⟨?_, ?_, t, ?_⟩
  · simp only [set]
    omega
  · exact (Function.forall_update_iff s.phase (p := fun _ => Fits passed s.count)).mpr
      ⟨hphase, fun u _ => hfits u⟩
  · simpa [set] using hbarrier

/-- The last signal wakes every thread. -/
theorem signal_spec (hpos : 0 < s.count) : s.signal.count + 1 = s.count ∧
    ∀ t, fresh (s.signal.phase t) = fresh (s.phase t) ∧
      rank (s.signal.phase t) ≤ rank (s.phase t) + 1 ∧
      (Fits passed s.count (s.phase t) → Fits passed s.signal.count (s.signal.phase t)) := by
  unfold signal
  split
  · omega
  · split
    · refine ⟨by dsimp only; omega, fun t => ?_⟩
      dsimp only
      generalize s.phase t = phase
      cases phase <;> simp +contextual [Phase.woken, fresh, rank, Fits]
    · refine ⟨by dsimp only; omega, fun t => ⟨rfl, Nat.le_succ _, fun hfits => ?_⟩⟩
      dsimp only
      generalize s.phase t = phase at hfits
      cases phase <;> simp_all [Fits]
      omega

/-- A worker signals, and begins to wait. -/
theorem Coherent.signals (h : Coherent passed s) (ht : s.phase t = .running {}) (call : Call) :
    Coherent passed (s.signal.set t (.checking call)) ∧
      (s.signal.set t (.checking call)).weight < s.weight := by
  have hfits := h.fits t
  have hpos := total_update fresh s.phase t .gone
  rw [ht] at hfits hpos
  rw [← h.count] at hpos
  simp only [fresh, Bool.not_false, Bool.toNat_true] at hpos
  obtain ⟨hless, hphase⟩ := signal_spec (s := s) (by omega)
  constructor
  · refine .of_set (fun u => (hphase u).2.2 (h.fits u))
      (congrArg InitBarrierGuard.signaled hfits).symm rfl ?_
    have hfresh : total fresh s.signal.phase = s.count :=
      (Finset.sum_congr rfl fun u _ => (hphase u).1).trans h.count.symm
    rw [hfresh, (hphase t).1, ht]
    exact hless
  · have hrank := total_le_add fun u => (hphase u).2.1
    have hset := weight_set s.signal t (.checking call)
    have htwo : rank (.checking call) = 2 := rfl
    have hnew : s.signal.weight = (n + 4) * s.signal.count + total rank s.signal.phase := rfl
    have hold : s.weight = (n + 4) * s.signal.count + (n + 4) + total rank s.phase := by
      rw [weight, ← hless, Nat.mul_succ]
    omega

theorem released_facts (count : Nat) (h : phase.isAtBarrier = true) :
    Fits true count phase.released ∧ fresh phase.released = fresh phase ∧
      rank phase.released ≤ rank phase + 0 ∧ phase.released.isAtBarrier = false := by
  cases phase with
  | atBarrier other =>
    cases other <;> simp [Phase.released, Fits, fresh, rank, Phase.isAtBarrier]
  | _ => cases h

/-- A thread that arrives waits, or all go on. -/
theorem Coherent.arrives (h : Coherent passed s) (ht : s.phase t = .checking call) :
    (∃ passed, Coherent passed (s.arrive t call)) ∧ (s.arrive t call).weight < s.weight := by
  have hfits := h.fits t
  have hset := weight_set s t (.atBarrier call)
  have hfresh : total fresh (Function.update s.phase t (.atBarrier call)) = s.count := by
    have hupdate := total_update fresh s.phase t (.atBarrier call)
    rw [ht, ← h.count] at hupdate
    exact hupdate
  rw [ht] at hfits hset
  unfold arrive
  dsimp only
  split
  · next hall =>
    have hreleased := fun u => released_facts s.count (hall u)
    refine ⟨⟨true, ?_, fun u => (hreleased u).1, t, (hreleased t).2.2.2⟩, ?_⟩
    · exact hfresh.symm.trans (Finset.sum_congr rfl fun u _ => ((hreleased u).2.1).symm)
    · have hrank := total_le_add fun u => (hreleased u).2.2.1
      unfold weight at hset ⊢
      dsimp only [rank] at hset ⊢
      omega
  · next hall =>
    refine ⟨⟨passed, hfresh.symm, ?_, by simpa using hall⟩, ?_⟩
    · exact (Function.forall_update_iff s.phase (p := fun _ => Fits passed s.count)).mpr
        ⟨hfits, fun u _ => h.fits u⟩
    · dsimp only [rank] at hset
      omega

/-- A step keeps the invariant, and makes progress unless a thread is woken without a reason. -/
theorem Coherent.step {e : StartupEvent n} {r : Unit} (h : Coherent passed s) (hok : s.Allowed e)
    (hstep : s.step e = some (r, s')) : (∃ passed, Coherent passed s') ∧
      s'.weight + (!e.isSpurious).toNat ≤ s.weight + e.isSpurious.toNat := by
  -- the events that only move their own thread
  have hmove : ∀ t phase, Fits passed s.count phase → phase.isAtBarrier = false →
      fresh (s.phase t) = fresh phase → Coherent passed (s.set t phase) := by
    intro t phase hphase hbarrier hfresh
    exact .of_set h.fits hphase hbarrier (by rw [h.count, hfresh])
  cases e with
  | ready t =>
    have ht : s.phase t = .running {} := hok
    rw [InitBarrier.step, ht] at hstep
    cases hstep
    exact ⟨⟨passed, (h.signals ht .ready).1⟩, (h.signals ht .ready).2⟩
  | drop t =>
    have hfits := h.fits t
    have hset := weight_set s t .gone
    cases ht : s.phase t with
    | running guard =>
      rw [ht] at hfits hset
      obtain rfl : guard = ⟨passed, passed⟩ := hfits
      rw [InitBarrier.step, ht] at hstep
      cases hstep
      cases passed with
      | false => exact ⟨⟨false, (h.signals ht .drop).1⟩, (h.signals ht .drop).2⟩
      | true => exact ⟨⟨true, hmove t .gone rfl rfl (by rw [ht]; rfl)⟩, hset.le⟩
    | _ => simp [InitBarrier.step, ht] at hstep
  | wait t =>
    have hfits := h.fits t
    cases ht : s.phase t with
    | checking call =>
      have hset := weight_set s t (.asleep call)
      rw [ht] at hfits hset
      rw [InitBarrier.step, ht] at hstep
      dsimp only at hstep
      split at hstep <;> cases hstep
      · next hpos =>
        exact ⟨⟨passed, hmove t (.asleep call) ⟨hfits, hpos⟩ rfl (by rw [ht]; rfl)⟩,
          Nat.le_of_succ_le_succ hset.le⟩
      · exact h.arrives ht
    | _ => simp [InitBarrier.step, ht] at hstep
  | wake t =>
    have hfits := h.fits t
    cases ht : s.phase t with
    | asleep call =>
      have hset := weight_set s t (.checking call)
      rw [ht] at hfits hset
      rw [InitBarrier.step, ht] at hstep
      cases hstep
      exact ⟨⟨passed, hmove t (.checking call) hfits.1 rfl (by rw [ht]; rfl)⟩,
        Nat.le_of_succ_le_succ hset.le⟩
    | _ => simp [InitBarrier.step, ht] at hstep

/-! ## Whole runs -/

/-- As long as a thread is left, some thread can go on. -/
theorem Coherent.goes_on (h : Coherent passed s) (ht : s.phase t ≠ .gone) :
    ∃ e, e.isSpurious = false ∧ s.Allowed e ∧ (s.step e).isSome = true := by
  have hdrop : ∀ u guard, s.phase u = .running guard →
      ∃ e, e.isSpurious = false ∧ s.Allowed e ∧ (s.step e).isSome = true := fun u guard hu =>
    ⟨.drop u, rfl, trivial, by simp [InitBarrier.step, hu]⟩
  obtain ⟨u, hu⟩ := h.unblocked
  have hfits := h.fits u
  cases hphase : s.phase u with
  | running guard => exact hdrop u guard hphase
  | checking call => exact ⟨.wait u, rfl, trivial, by simp [InitBarrier.step, hphase]⟩
  | asleep call =>
    -- the count is positive, so somebody has not signalled
    rw [hphase] at hfits
    have hsum : total fresh s.phase ≠ 0 := h.count ▸ hfits.2.ne'
    obtain ⟨v, -, hv⟩ := Finset.exists_ne_zero_of_sum_ne_zero hsum
    cases hrunning : s.phase v with
    | running guard => exact hdrop v guard hrunning
    | _ => exact absurd (by rw [hrunning]; rfl) hv
  | atBarrier call => simp [hphase, Phase.isAtBarrier] at hu
  | gone =>
    -- all have passed, and a thread that is left has returned from `ready`
    rw [hphase] at hfits
    have hleft := h.fits t
    obtain rfl : passed = true := hfits
    cases hrunning : s.phase t with
    | running guard => exact hdrop t guard hrunning
    | gone => exact absurd hrunning ht
    | _ => simp [hrunning, Fits] at hleft

/-- Under every schedule of the workers and the main thread, whichever workers panic while they
initialize: no thread passes the barrier before all threads do, the steps other than spurious
wakeups are at most `n * (n + 5) + 2` more than those, and as long as a thread is left, some
thread can take such a step. -/
theorem startup_completes {tr : List (StartupEvent n × Unit)}
    (hrun : Run step Allowed (new n) tr s) :
    (∀ t u, (s.phase t).hasPassed = true → (s.phase u).hasPassed = true) ∧
      tr.countP (fun x => !x.1.isSpurious) ≤
        tr.countP (fun x => x.1.isSpurious) + (n * (n + 5) + 2) ∧
      ∀ t, s.phase t ≠ .gone →
        ∃ e, e.isSpurious = false ∧ s.Allowed e ∧ (s.step e).isSome = true := by
  obtain ⟨⟨passed, h⟩, hweight⟩ : (∃ passed, Coherent passed s) ∧
      tr.countP (fun x => !x.1.isSpurious) + s.weight ≤
        tr.countP (fun x => x.1.isSpurious) + (new n).weight := by
    refine hrun.invariant (I := fun tr s => (∃ passed, Coherent passed s) ∧
      tr.countP (fun x => !x.1.isSpurious) + s.weight ≤
        tr.countP (fun x => x.1.isSpurious) + (new n).weight) ⟨⟨false, coherent_new n⟩, by simp⟩ ?_
    intro tr s e r s' hinv hok hstep
    obtain ⟨⟨passed, h⟩, hweight⟩ := hinv
    obtain ⟨hnext, hless⟩ := h.step hok hstep
    refine ⟨hnext, ?_⟩
    rw [List.countP_append, List.countP_append]
    cases he : e.isSpurious <;> simp [he] at hless ⊢ <;> omega
  have hpassed : ∀ t, (s.phase t).hasPassed = passed := by
    intro t
    have hfits := h.fits t
    cases ht : s.phase t <;> simp_all [Fits, Phase.hasPassed]
  refine ⟨fun t u ht => (hpassed u).trans ((hpassed t).symm.trans ht), ?_, fun t => h.goes_on⟩
  have hnew : (new n).weight = n * (n + 5) + 2 := by
    simp [weight, new, total, rank, Fintype.sum_option, Nat.add_mul, Nat.mul_add]
    omega
  omega

/-- The main thread sleeps until the only worker panics; both get through. -/
theorem panicked_worker_passes : ∃ tr s, Run step Allowed (new 1) tr s ∧ tr.length = 4 ∧
    (s.phase none).hasPassed = true ∧ (s.phase (some 0)).hasPassed = true := by
  have hnil : Run step Allowed (new 1) [] _ := .nil
  have hasleep := hnil.push (.wait none) rfl trivial
  have hdrop := hasleep.push (.drop (some 0)) rfl trivial
  have hmain := hdrop.push (.wait none) rfl trivial
  have hrun := hmain.push (.wait (some 0)) rfl trivial
  have hpassed : (Phase.gone).hasPassed = true := rfl
  exact ⟨_, _, hrun, rfl, hpassed, (startup_completes hrun).1 none (some 0) hpassed⟩

end InitBarrier

end Starfish.Reactor
