import Starfish.Quic.Connection.RecvCredit

/-!
# Credit outstanding to the peer

A round of updates leaves the peer one window beyond what was received. A BLOCKED hint adds a
window to the limit itself whenever the hinted value is not below it, however far the limit
already is from what was received: the hints of a peer that sends no data add up until the
limit is the largest 64-bit integer. The outstanding credit stays within two windows exactly as
long as every hint finds the limit low enough.
-/

namespace Starfish.Quic

def CreditBounded (initial : Level → Nat) (t : Transport) : Prop :=
  ∀ lvl fc, t.level lvl = some fc → fc.recvMax - fc.received ≤ 2 * initial lvl

/-- A hint is below the limit, or another window still leaves at most two outstanding. -/
def HintWithin (initial : Level → Nat) (s : StreamLife) (e : StreamLifeEvent) : Prop :=
  ∀ lvl n fc, e.hint lvl = some n → s.transport.level lvl = some fc →
    n < fc.recvMax ∨ saturatingAdd fc.recvMax (initial lvl) ≤ fc.received + 2 * initial lvl

theorem FlowControl.updateFromBlocked_initialWindow (fc : FlowControl) (n : Nat) :
    (fc.updateFromBlocked n).2.initialWindow = fc.initialWindow := by
  grind [FlowControl.updateFromBlocked]

theorem FlowControl.updateFromBlocked_bounded_iff (fc : FlowControl) (n : Nat)
    (h : fc.recvMax ≤ fc.received + 2 * fc.initialWindow) :
    (fc.updateFromBlocked n).2.recvMax ≤ fc.received + 2 * fc.initialWindow ↔
      n < fc.recvMax ∨
        saturatingAdd fc.recvMax fc.initialWindow ≤ fc.received + 2 * fc.initialWindow := by
  grind [FlowControl.updateFromBlocked]

/-! ## Steps -/

variable {checked : Prop} {fc fc' : FlowControl} {hint : Option Nat} {limits : List Nat}

theorem FlowControl.Moves.initialWindow (h : fc.Moves checked hint limits fc') :
    fc'.initialWindow = fc.initialWindow := by
  cases h with
  | quiet hquiet => exact hquiet.initialWindow
  | update => rfl
  | blocked n => exact fc.updateFromBlocked_initialWindow n

structure FlowControl.Bounded (window : Nat) (fc : FlowControl) : Prop where
  initialWindow : fc.initialWindow = window
  outstanding : fc.recvMax ≤ fc.received + 2 * window

theorem FlowControl.Moves.bounded_iff {window : Nat} (h : fc.Moves checked hint limits fc')
    (hfc : fc.Bounded window) : fc'.Bounded window ↔ ∀ n, hint = some n →
      n < fc.recvMax ∨ saturatingAdd fc.recvMax window ≤ fc.received + 2 * window := by
  obtain ⟨rfl, hout⟩ := hfc
  cases h with
  | quiet hquiet =>
    refine ⟨fun _ _ hsome => (by cases hsome), fun _ => ⟨hquiet.initialWindow, ?_⟩⟩
    rw [hquiet.recvMax]
    exact Nat.le_trans hout (Nat.add_le_add_right hquiet.received _)
  | update hmax =>
    refine ⟨fun _ _ hsome => (by cases hsome), fun _ => ⟨rfl, ?_⟩⟩
    grind [FlowControl.shouldSendMax, FlowControl.commitMax]
  | blocked n =>
    have hiff := fc.updateFromBlocked_bounded_iff n hout
    refine ⟨fun hfc' m hsome => ?_, fun hall => ⟨fc.updateFromBlocked_initialWindow n, ?_⟩⟩
    · cases hsome
      have hle := hfc'.outstanding
      rw [fc.updateFromBlocked_received] at hle
      exact hiff.mp hle
    · rw [fc.updateFromBlocked_received]
      exact hiff.mpr (hall n rfl)

/-- What holds in every state of a run whose hints keep within the bound. -/
structure BoundedLife (initialMaxData initialMaxStreamData : Nat) (s : StreamLife) : Prop where
  sound : s.Sound
  newLevels : s.transport.credit.NewLevels initialMaxStreamData
  bounded : ∀ lvl fc, s.transport.level lvl = some fc →
    fc.Bounded (initialLimit initialMaxData initialMaxStreamData lvl)

namespace BoundedLife

variable {initialMaxData initialMaxStreamData : Nat} {s s' : StreamLife} {e : StreamLifeEvent}
  {r : TransportResponse}

theorem new (side : Side) {maxBidi maxUni : Nat} (initialMaxStreamData initialMaxData : Nat)
    (hbidi : maxBidi ≤ u64Max) (huni : maxUni ≤ u64Max) :
    BoundedLife initialMaxData initialMaxStreamData
      (StreamLife.new side maxBidi maxUni initialMaxStreamData initialMaxData) := by
  have hbooks := RecvBooks.new side initialMaxStreamData initialMaxData hbidi huni
  refine ⟨hbooks.sound, hbooks.newLevels, fun lvl fc hlevel => ?_⟩
  cases lvl with
  | connection =>
    cases hlevel
    refine ⟨rfl, ?_⟩
    dsimp only [StreamLife.new, Transport.new, FlowControl.new, initialLimit]
    omega
  | stream sid => cases hlevel

variable (h : BoundedLife initialMaxData initialMaxStreamData s)

include h in
theorem level_bounded_iff (hstep : s.step e = some (r, s')) (lvl : Level) :
    (∀ fc, s'.transport.level lvl = some fc →
        fc.Bounded (initialLimit initialMaxData initialMaxStreamData lvl)) ↔
      ∀ n fc, e.hint lvl = some n → s.transport.level lvl = some fc → n < fc.recvMax ∨
        saturatingAdd fc.recvMax (initialLimit initialMaxData initialMaxStreamData lvl) ≤
          fc.received + 2 * initialLimit initialMaxData initialMaxStreamData lvl := by
  have hlevel := StreamLife.step_level initialMaxData h.sound.tabled h.newLevels hstep lvl
  have hbounded := h.bounded lvl
  generalize s.transport.level lvl = before at hlevel hbounded
  generalize s'.transport.level lvl = after at hlevel
  cases hlevel with
  | moves hmoves =>
    have hiff := hmoves.bounded_iff (hbounded _ rfl)
    constructor
    · intro hafter n _ hn heq
      cases heq
      exact hiff.mp (hafter _ rfl) n hn
    · intro hall _ heq
      cases heq
      exact hiff.mpr fun n hn => hall n _ hn rfl
  | opened hfresh hlimits hmax hwindow =>
    refine ⟨fun _ _ _ _ heq => (by cases heq), fun _ _ heq => ?_⟩
    cases heq
    exact ⟨hwindow, by omega⟩
  | absent => exact ⟨fun _ _ _ _ heq => (by cases heq), fun _ _ heq => by cases heq⟩
  | collected hhint =>
    grind

include h in
theorem initialWindow
    (hstep : s.step e = some (r, s')) {lvl : Level} (hfc : s'.transport.level lvl = some fc) :
    fc.initialWindow = initialLimit initialMaxData initialMaxStreamData lvl := by
  have hlevel := StreamLife.step_level initialMaxData h.sound.tabled h.newLevels hstep lvl
  have hbounded := h.bounded lvl
  rw [hfc] at hlevel
  generalize s.transport.level lvl = before at hlevel hbounded
  cases hlevel with
  | moves hmoves => exact hmoves.initialWindow.trans (hbounded _ rfl).initialWindow
  | opened _ _ _ hwindow => exact hwindow

include h in
theorem step (hstep : s.step e = some (r, s'))
    (hhint : HintWithin (initialLimit initialMaxData initialMaxStreamData) s e) :
    BoundedLife initialMaxData initialMaxStreamData s' := by
  obtain ⟨c, hopens, hcredit⟩ := StreamLife.step_credit h.sound.tabled hstep
  exact ⟨h.sound.step hstep, (h.newLevels.opens hopens).step hcredit,
    fun lvl => (h.level_bounded_iff hstep lvl).mpr (hhint lvl)⟩

include h in
theorem creditBounded :
    CreditBounded (initialLimit initialMaxData initialMaxStreamData) s.transport := by
  intro lvl fc hlevel
  have hout := (h.bounded lvl fc hlevel).outstanding
  omega

include h in
theorem creditBounded_step_iff (hstep : s.step e = some (r, s')) :
    CreditBounded (initialLimit initialMaxData initialMaxStreamData) s'.transport ↔
      HintWithin (initialLimit initialMaxData initialMaxStreamData) s e := by
  refine ⟨fun hbounded lvl => ?_, fun hhint => (h.step hstep hhint).creditBounded⟩
  apply (h.level_bounded_iff hstep lvl).mp
  intro fc hfc
  have hout := hbounded lvl fc hfc
  refine ⟨h.initialWindow hstep hfc, ?_⟩
  omega

end BoundedLife

/-! ## Whole runs -/

/-- In a run whose hints keep within the bound at most two windows are outstanding, at the
connection and on each stream; the next step keeps it so exactly when its hint does. -/
theorem outstanding_credit_bounded_iff (side : Side) {maxBidi maxUni : Nat}
    (initialMaxStreamData initialMaxData : Nat) (hbidi : maxBidi ≤ u64Max) (huni : maxUni ≤ u64Max)
    {tr : LifeTrace} {s : StreamLife}
    (hrun : Run StreamLife.step
      (HintWithin (initialLimit initialMaxData initialMaxStreamData))
      (StreamLife.new side maxBidi maxUni initialMaxStreamData initialMaxData) tr s) :
    CreditBounded (initialLimit initialMaxData initialMaxStreamData) s.transport ∧
      ∀ e r s', s.step e = some (r, s') →
        (CreditBounded (initialLimit initialMaxData initialMaxStreamData) s'.transport ↔
          HintWithin (initialLimit initialMaxData initialMaxStreamData) s e) := by
  have hlife : BoundedLife initialMaxData initialMaxStreamData s := by
    apply hrun.invariant (I := fun _ s => BoundedLife initialMaxData initialMaxStreamData s)
    · exact .new side initialMaxStreamData initialMaxData hbidi huni
    · intro _ _ _ _ _ hlife hhint hstep
      exact hlife.step hstep hhint
  exact ⟨hlife.creditBounded, fun e r s' hstep => hlife.creditBounded_step_iff hstep⟩

/-- One hint at the initial limit leaves two windows. -/
theorem one_hint_bounded : ∃ tr s,
    s.transport.flowControl.recvMax = 2097152 ∧
      Run StreamLife.step (HintWithin (initialLimit 1048576 262144))
        (StreamLife.new .server 100 100 262144 1048576) tr s ∧
      CreditBounded (initialLimit 1048576 262144) s.transport := by
  have hnil : Run StreamLife.step (HintWithin (initialLimit 1048576 262144))
    (StreamLife.new .server 100 100 262144 1048576) []
    (StreamLife.new .server 100 100 262144 1048576) := .nil
  have hwithin : HintWithin (initialLimit 1048576 262144)
      (StreamLife.new .server 100 100 262144 1048576) (.frame (.dataBlocked 1048576)) := by
    intro lvl n fc hhint hlevel
    cases lvl with
    | connection =>
      cases hlevel
      exact .inr (by decide)
    | stream sid => cases hlevel
  have hrun := hnil.push (.frame (.dataBlocked 1048576)) rfl hwithin
  exact ⟨_, _, rfl, hrun,
    (outstanding_credit_bounded_iff .server 262144 1048576 (by decide) (by decide) hrun).1⟩

/-- Two hints of a peer that sends nothing leave three windows. -/
theorem two_hints_exceed_bound : ∃ tr s,
    Run StreamLife.step (fun _ _ => True) (StreamLife.new .server 100 100 262144 1048576) tr s ∧
      s.transport.flowControl.received = 0 ∧ s.transport.flowControl.recvMax = 3 * 1048576 ∧
      ¬ CreditBounded (initialLimit 1048576 262144) s.transport := by
  have hnil : Run StreamLife.step (fun _ _ => True)
    (StreamLife.new .server 100 100 262144 1048576) []
    (StreamLife.new .server 100 100 262144 1048576) := .nil
  have hone := hnil.push (.frame (.dataBlocked 1048576)) rfl trivial
  have htwo := hone.push (.frame (.dataBlocked 2097152)) rfl trivial
  refine ⟨_, _, htwo, rfl, rfl, fun hbounded => ?_⟩
  have hthree := hbounded .connection _ rfl
  exact absurd hthree (by decide)

end Starfish.Quic
