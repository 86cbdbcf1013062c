import Starfish.Quic.Connection.FrameAccounts

/-!
# Retransmission in the ApplicationData space

Over a whole run, the frames of a tracked packet leave `sent_frames` at most once:
released by an acknowledgement, or back to the queue.
-/

namespace Starfish.Quic

universe u v

def RecoveryEvent.acknowledges : RecoveryEvent → Nat → Bool
  | .ack .applicationData frame _ _, pn =>
    LossDetection.inRanges (frame.ranges.map fun r => (r.start, r.stop)) pn
  | _, _ => false

/-- What becomes of the frames of a packet that leave `sent_frames`. -/
def RecoveryEvent.fateOf (e : RecoveryEvent) (pn : Nat) : Fate :=
  if e.acknowledges pn then .released else .requeued

def RecoveryEvent.queues : RecoveryEvent → List Move → List Frame
  | .queue .applicationData frame, moves => frame :: moves.flatMap Move.requeuedFrames
  | _, moves => moves.flatMap Move.requeuedFrames

/-- What one event does to packet `pn`, which is not a probe in flight. -/
structure StepAccounts {γ : Type u} (e : RecoveryEvent) (pn : Nat) (s s' : RecoveryState γ)
    (moves : List Move) : Prop where
  held : (appMoves pn moves).map Move.frames ++ s'.held pn = s.held pn
  queued : appFrames s'.pendingFrames = appFrames s.pendingFrames ++ e.queues moves
  notProbe : s'.NotProbe pn
  fates : ∀ m ∈ appMoves pn moves, m.fate = e.fateOf pn
  inStep : InStep pn s s'

namespace RecoveryState

variable {γ : Type u}

variable {pn : Nat} {space : PacketNumberSpace} {m : Move}

/-- In an ACK frame's loops, the frames of a packet leave only if the packet is among
those that the loop visits. -/
theorem forEach_visited {σ : Type v} {f : σ → SentPacket → σ × List Move} {fate : Fate}
    (view : σ → RecoveryState γ) {x : σ} {l : List SentPacket}
    (haccounts : Accounts fate pn (view x) (view (forEach f x l).1) (forEach f x l).2)
    (hheld : (view (forEach f x l).1).held pn = if l.any (fun pkt => decide (space = .applicationData ∧ pkt.pn = pn)) then [] else (view x).held pn)
    (hm : m ∈ appMoves pn (forEach f x l).2) :
    space = .applicationData ∧ ∃ pkt ∈ l, pkt.pn = pn := by
  cases hany : l.any (fun pkt => decide (space = .applicationData ∧ pkt.pn = pn)) with
  | false =>
    rw [hany] at hheld
    rw [haccounts.appMoves_eq_nil hheld] at hm
    cases hm
  | true =>
    grind

variable {s t : RecoveryState γ} {timeThreshold : Nat → Nat}

theorem onAckReceived_tracks {ld : LossDetection} {largestAcked ackDelay now : Nat}
    {ackRanges : List (Nat × Nat)} {acked lost : List SentPacket} (hkeyed : s.WellKeyed)
    (hack : s.lossDetection.onAckReceived timeThreshold space largestAcked ackDelay ackRanges now = some ((acked, lost), ld))
    (ht : ∀ other, (t.lossDetection.spaces other).sentPackets = (ld.spaces other).sentPackets)
    (pn : Nat) :
    t.tracks pn =
      if (acked ++ lost).any (fun pkt => decide (space = .applicationData ∧ pkt.pn = pn)) then false
      else s.tracks pn := by
  unfold tracks tracked
  rw [ht]
  by_cases hspace : space = .applicationData
  · subst hspace
    rw [LossDetection.onAckReceived_find? hack hkeyed pn]
    grind
  · rw [(LossDetection.onAckReceived_perm hack).2 _ (Ne.symm hspace)]
    simp [hspace]

/-- The two loops of an ACK frame: released moves are of acknowledged packets, the others
are queued again and of lost packets. -/
theorem ackLoops_accounts (alg : CongestionAlgorithm γ) (space : PacketNumberSpace) (rtt now : Nat)
    (start : RecoveryState γ) (ceMarked : Nat) (acked lost : List SentPacket)
    (hnot : start.NotProbe pn) :
    let ackedRes := forEach (ackedPacket alg space rtt now) (start, ceMarked) acked
    let lostRes := forEach (lostPacket alg space now) ackedRes.1.1 lost
    Accounts .released pn start ackedRes.1.1 ackedRes.2 ∧
      Accounts .requeued pn ackedRes.1.1 lostRes.1 lostRes.2 ∧
      (∀ m ∈ appMoves pn ackedRes.2, space = .applicationData ∧ ∃ pkt ∈ acked, pkt.pn = pn) ∧
      (∀ m ∈ appMoves pn lostRes.2, space = .applicationData ∧ ∃ pkt ∈ lost, pkt.pn = pn) ∧
      lostRes.1.held pn =
        (if (acked ++ lost).any (fun pkt => decide (space = .applicationData ∧ pkt.pn = pn)) then []
        else start.held pn) ∧
      lostRes.1.tracks pn = start.tracks pn := by
  have hacked := Accounts.forEach Prod.fst (ackedPacket_accounts alg space rtt now pn)
    (start, ceMarked) acked
  have hheld := forEach_held Prod.fst (ackedPacket_accounts alg space rtt now pn)
    (fun pkt => decide (space = .applicationData ∧ pkt.pn = pn))
    (fun x pkt _ => (ackedPacket_held alg space rtt now pn x pkt).trans (by simp))
    (start, ceMarked) hnot acked
  have htracks := forEach_tracks Prod.fst (ackedPacket_accounts alg space rtt now pn)
    (fun x pkt _ => ackedPacket_tracks alg space rtt now pn x pkt) (start, ceMarked) hnot acked
  have hvisited := fun m => forEach_visited (m := m) Prod.fst hacked hheld
  generalize forEach (ackedPacket alg space rtt now) (start, ceMarked) acked = ackedRes at *
  have hnot' := (hacked.fates hnot).1
  have hlost := Accounts.forEach id (lostPacket_accounts alg space now pn) ackedRes.1.1 lost
  have hheld' := forEach_held id (lostPacket_accounts alg space now pn)
    (fun pkt => decide (space = .applicationData ∧ pkt.pn = pn))
    (fun x pkt hx => (lostPacket_held alg space now pkt hx).trans (by simp)) ackedRes.1.1 hnot' lost
  have htracks' := forEach_tracks id (lostPacket_accounts alg space now pn)
    (fun x pkt hx => lostPacket_tracks alg space now pkt hx) ackedRes.1.1 hnot' lost
  have hvisited' := fun m => forEach_visited (m := m) id hlost hheld'
  grind

variable {moves : List Move} {alg : CongestionAlgorithm γ} {s' : RecoveryState γ}

theorem processAck_accounts {ack : AckFrame} {ceMarked now : Nat} (hkeyed : s.WellKeyed)
    (hnot : s.NotProbe pn)
    (h : s.processAck alg timeThreshold space ack ceMarked now = some (s', moves)) :
    StepAccounts (.ack space ack ceMarked now) pn s s' moves := by
  unfold processAck at h
  dsimp only at h
  split at h
  · cases h
  · next acked lost ld hack =>
    obtain ⟨hin, hout⟩ := LossDetection.onAckReceived_inRanges hack
    have htracks := onAckReceived_tracks
      (t := { s with lossDetection := ld.pruneAcknowledgedAckElicitingTimes space }) hkeyed hack
      (ld.prune_sentPackets space) pn
    generalize ld.pruneAcknowledgedAckElicitingTimes space = pruned at h htracks
    obtain ⟨hacked, hlost, hvisited, hvisited', hheld, hsame⟩ :=
      ackLoops_accounts alg space pruned.rtt.latestRtt now { s with lossDetection := pruned }
        ceMarked acked lost hnot
    generalize forEach (ackedPacket alg space pruned.rtt.latestRtt now)
      ({ s with lossDetection := pruned }, ceMarked) acked = ackedRes at *
    generalize forEach (lostPacket alg space now) ackedRes.1.1 lost = lostRes at *
    obtain ⟨hstate, rfl⟩ := Prod.mk.inj (Option.some.inj h)
    have hcongestion : s' = { lostRes.1 with congestion := s'.congestion } := by
      rw [← hstate]
      split <;> rfl
    rw [hcongestion]
    obtain ⟨hnot', hfates⟩ := hacked.fates hnot
    obtain ⟨hnot'', hfates'⟩ := hlost.fates hnot'
    refine ⟨?_, ?_, hnot'', fun m hm => ?_, ?_⟩
    · rw [appMoves_append, List.map_append, List.append_assoc]
      exact (congrArg _ hlost.held).trans hacked.held
    · show appFrames lostRes.1.pendingFrames = _ ++ (ackedRes.2 ++ lostRes.2).flatMap _
      rw [List.flatMap_append, ← List.append_assoc, hlost.queued, hacked.queued]
    · rw [appMoves_append] at hm
      rcases List.mem_append.mp hm with hm | hm
      · obtain ⟨rfl, pkt, hpkt, rfl⟩ := hvisited m hm
        obtain ⟨e, he, rfl, hrange⟩ := hin pkt hpkt
        rw [hfates m hm, RecoveryEvent.fateOf, RecoveryEvent.acknowledges, hkeyed e he, hrange]
        rfl
      · obtain ⟨rfl, pkt, hpkt, rfl⟩ := hvisited' m hm
        obtain ⟨e, he, rfl, hrange⟩ := hout pkt hpkt
        rw [hfates' m hm, RecoveryEvent.fateOf, RecoveryEvent.acknowledges, hkeyed e he, hrange]
        rfl
    · exact InStep.of_removed hheld (hsame.trans htracks)

/-! ## Runs -/

theorem WellKeyed.of_settles {n n' : Nat} (h : Settles n n' s s') (hs : s.WellKeyed) :
    s'.WellKeyed :=
  fun e he => hs e (h.tracked .applicationData e he)

theorem sendPacket_wellKeyed (space : PacketNumberSpace) (frames : List Frame) (size : Nat)
    (trackRetransmission : Bool) (appKind : Option ApplicationPacketKind) (now : Nat)
    (ecn : Option UdpEcnCodepoint) (hs : s.WellKeyed) :
    (s.sendPacket space frames size trackRetransmission appKind now ecn).WellKeyed := by
  intro e he
  unfold tracked at he
  rw [sendPacket_lossDetection] at he
  split at he
  · unfold LossDetection.onPacketSent at he
    split at he
    · by_cases hspace : space = .applicationData
      · subst hspace
        rcases (OrdMap.mem_insert e).mp he with rfl | ⟨hold, -⟩
        · rfl
        · exact hs e hold
      · rw [LossDetection.setSpace_of_ne _ _ (Ne.symm hspace)] at he
        exact hs e he
    · exact hs e he
  · exact hs e he

variable {e : RecoveryEvent}

/-- Every event keeps tracked packets under their own number and never goes back in the
packet numbers of the ApplicationData space. -/
theorem step_numbers (hkeyed : s.WellKeyed) (hstep : s.step alg timeThreshold e = some (moves, s'))
    :
    s'.WellKeyed ∧ s.nextPn .applicationData ≤ s'.nextPn .applicationData := by
  cases e with
  | sent space frames size trackRetransmission appKind now ecn =>
    cases hstep
    refine ⟨sendPacket_wellKeyed space frames size trackRetransmission appKind now ecn hkeyed, ?_⟩
    rw [sendPacket_nextPn]
    grind
  | skipped space =>
    cases hstep
    refine ⟨hkeyed, ?_⟩
    simp only [setNextPn]
    grind
  | probeSent size now ecn =>
    cases hstep
    unfold sendPathMtuProbe
    split
    · exact ⟨hkeyed, Nat.le_refl _⟩
    · refine ⟨sendPacket_wellKeyed .applicationData [.ping] size true (some .oneRtt) now ecn hkeyed,
        ?_⟩
      simp [sendPacket_nextPn]
  | retry initialCryptoData =>
    cases hstep
    have hsettles := (discardAllTracked_settles 0 .initial (s.setNextPn .initial 0)).trans
      (processRetry_settles s initialCryptoData)
    refine ⟨WellKeyed.of_settles hsettles hkeyed, ?_⟩
    rw [hsettles.nextPn]
    exact Nat.le_refl _
  | pathReset now =>
    cases hstep
    have hsettles := Settles.forEach id (fun _ => 0)
      (fun t space n => requeueSpace_settles (γ := γ) n t space) 0 s PacketNumberSpace.all
    refine ⟨fun e he => (by cases he), ?_⟩
    exact Nat.le_of_eq (congrFun hsettles.nextPn.symm _)
  | _ =>
    have hsettles := step_settles hstep trivial
    exact ⟨hkeyed.of_settles hsettles, by rw [hsettles.nextPn]⟩

/-- Every event accounts for a packet that has been sent before it, or whose number is
not in use after it. -/
theorem step_accounts (hkeyed : s.WellKeyed) (hnot : s.NotProbe pn)
    (hstep : s.step alg timeThreshold e = some (moves, s'))
    (hpn : pn < s.nextPn .applicationData ∨ s'.nextPn .applicationData ≤ pn) :
    StepAccounts e pn s s' moves := by
  have settled : ∀ {t : RecoveryState γ} {moves : List Move},
      Accounts .requeued pn s t moves → InStep pn s t → e.acknowledges pn = false →
      e.queues moves = moves.flatMap Move.requeuedFrames → StepAccounts e pn s t moves := by
    intro t moves haccounts hinStep hack hqueues
    obtain ⟨hnot', hfates⟩ := haccounts.fates hnot
    refine ⟨haccounts.held, by rw [hqueues, haccounts.queued], hnot', fun m hm => ?_, hinStep⟩
    rw [RecoveryEvent.fateOf, hack]
    exact hfates m hm
  have keeps : ∀ {t : RecoveryState γ}, t.held pn = s.held pn → t.tracks pn = s.tracks pn →
      t.pendingFrames = s.pendingFrames → t.NotProbe pn → e.queues [] = [] →
      StepAccounts e pn s t [] := by
    intro t hheld htracks hpending hnot' hqueues
    exact ⟨hheld, by rw [hpending, hqueues, List.append_nil], hnot', fun _ hm => (nomatch hm),
      Or.inl ⟨hheld, htracks⟩⟩
  cases e with
  | sent space frames size trackRetransmission appKind now ecn =>
    cases hstep
    rw [sendPacket_nextPn] at hpn
    have hne : space = .applicationData → pn ≠ s.nextPn .applicationData := by
      rintro rfl
      rw [if_pos rfl] at hpn
      omega
    have hother := sendPacket_other s space frames size trackRetransmission appKind now ecn hne
    refine keeps hother.1 hother.2 (sendPacket_pendingFrames ..) (fun probe hprobe => ?_) rfl
    rw [sendPacket_pathMtu] at hprobe
    exact hnot probe hprobe
  | skipped space =>
    cases hstep
    exact keeps rfl rfl rfl hnot rfl
  | probeSent size now ecn =>
    cases hstep
    unfold sendPathMtuProbe at hpn ⊢
    split
    · exact keeps rfl rfl rfl hnot rfl
    · next hnone =>
      rw [if_neg hnone] at hpn
      rw [sendPacket_nextPn, if_pos rfl] at hpn
      have hne : pn ≠ s.nextPn .applicationData := by omega
      have hother := sendPacket_other s .applicationData [.ping] size true (some .oneRtt) now ecn
        fun _ => hne
      refine keeps hother.1 hother.2 (sendPacket_pendingFrames ..) (fun probe hprobe => ?_) rfl
      cases hprobe
      exact Ne.symm hne
  | ack space frame ceMarked now =>
    obtain ⟨res, hres, hswap⟩ := Option.map_eq_some_iff.mp hstep
    cases hswap
    exact processAck_accounts hkeyed hnot hres
  | probeTimeout now =>
    cases hstep
    unfold handlePathMtuProbeTimeout
    split
    · exact settled (completePathMtuProbeFailure_accounts alg _ s _ pn now)
        (completePathMtuProbeFailure_inStep alg s _ pn now) rfl rfl
    · exact settled (.refl _ pn s) (.refl pn s) rfl rfl
  | peerMaxUdpPayloadSize peerMax now =>
    cases hstep
    exact settled (applyPeerMaxUdpPayloadSize_accounts _ s pn peerMax now)
      (applyPeerMaxUdpPayloadSize_inStep s pn peerMax now) rfl rfl
  | zeroRttRejected =>
    cases hstep
    exact settled (requeueZeroRttInFlight_accounts pn s) (requeueZeroRttInFlight_inStep pn s) rfl rfl
  | handshakeDone earlyDataRejected =>
    cases hstep
    exact settled (processHandshakeDone_accounts pn s earlyDataRejected)
      (processHandshakeDone_inStep pn s earlyDataRejected hnot) rfl rfl
  | discarded space =>
    cases hstep
    have happ : space.toSpace ≠ .applicationData := by cases space <;> nofun
    exact settled (clearSpace_accounts _ _ s pn fun h => absurd h happ)
      (clearSpace_inStep _ _ s pn hnot) rfl rfl
  | retry initialCryptoData =>
    cases hstep
    exact settled (processRetry_accounts pn s initialCryptoData)
      (processRetry_inStep pn s initialCryptoData hnot) rfl rfl
  | pathReset now =>
    cases hstep
    exact settled (resetPathRecovery_accounts alg pn s now)
      (resetPathRecovery_inStep alg pn s now hnot) rfl rfl
  | ptoTimeout =>
    cases hstep
    exact keeps rfl rfl rfl hnot rfl
  | queue space frame =>
    cases hstep
    refine ⟨rfl, ?_, hnot, fun _ hm => (nomatch hm), .of_same rfl rfl⟩
    unfold pushFrames
    rw [appFrames_append]
    cases space <;> rfl

inductive FramePlace
  | sentFrames
  | released
  | requeued
deriving DecidableEq, Repr

/-- Where the frames of packet `pn` are after the events of `tr`. -/
def FramesAt (t : RecoveryState γ) (tr : List (RecoveryEvent × List Move)) (pn : Nat)
    (frames : List Frame) : FramePlace → Prop
  | .sentFrames =>
    (t.sentFrames .applicationData).find? pn = some frames ∧ t.tracks pn = true ∧
      appMoves pn (tr.flatMap Prod.snd) = []
  | .released =>
    (t.sentFrames .applicationData).find? pn = none ∧ t.tracks pn = false ∧
      appMoves pn (tr.flatMap Prod.snd) = [⟨.applicationData, pn, frames, .released⟩]
  | .requeued =>
    (t.sentFrames .applicationData).find? pn = none ∧ t.tracks pn = false ∧
      appMoves pn (tr.flatMap Prod.snd) = [⟨.applicationData, pn, frames, .requeued⟩]

/-- Tracked packets are stored under their number, and the probe in flight has been sent. -/
def Numbered (s : RecoveryState γ) : Prop :=
  s.WellKeyed ∧ ∀ pn, s.nextPn .applicationData ≤ pn → s.NotProbe pn

theorem step_numbered (hs : s.Numbered) (hstep : s.step alg timeThreshold e = some (moves, s')) :
    s'.Numbered := by
  obtain ⟨hkeyed, hnumbers⟩ := step_numbers hs.1 hstep
  refine ⟨hkeyed, fun pn hpn => ?_⟩
  exact (step_accounts hs.1 (hs.2 pn (Nat.le_trans hnumbers hpn)) hstep (Or.inr hpn)).notProbe

structure PacketKept (pn : Nat) (frames : List Frame) (s : RecoveryState γ)
    (tr : List (RecoveryEvent × List Move)) (t : RecoveryState γ) : Prop where
  keyed : t.WellKeyed
  number : pn < t.nextPn .applicationData
  notProbe : t.NotProbe pn
  held : (appMoves pn (tr.flatMap Prod.snd)).map Move.frames ++ t.held pn = [frames]
  tracks : t.held pn = [] ↔ t.tracks pn = false
  fates : ∀ x ∈ tr, ∀ m ∈ appMoves pn x.2, m.fate = x.1.fateOf pn
  queued : appFrames t.pendingFrames =
    appFrames s.pendingFrames ++ tr.flatMap fun x => x.1.queues x.2

variable {frames : List Frame} {tr : List (RecoveryEvent × List Move)}

theorem PacketKept.step {u : RecoveryState γ} (h : PacketKept pn frames s tr t)
    (hstep : t.step alg timeThreshold e = some (moves, u)) :
    PacketKept pn frames s (tr ++ [(e, moves)]) u := by
  obtain ⟨hkeyed, hnumbers⟩ := step_numbers h.keyed hstep
  have haccounts := step_accounts h.keyed h.notProbe hstep (Or.inl h.number)
  refine ⟨hkeyed, Nat.lt_of_lt_of_le h.number hnumbers, haccounts.notProbe, ?_, ?_, ?_, ?_⟩
  · grind [cases StepAccounts, cases PacketKept, appMoves_append]
  · rcases haccounts.inStep with ⟨hheld, htracks⟩ | ⟨hheld, htracks⟩
    · rw [hheld, htracks]
      exact h.tracks
    · exact iff_of_true hheld htracks
  · intro x hx
    grind [cases StepAccounts, cases PacketKept]
  · grind [cases StepAccounts, cases PacketKept]

theorem PacketKept.sent (hs : s.Numbered) (size : Nat) (appKind : Option ApplicationPacketKind)
    (now : Nat) (ecn : Option UdpEcnCodepoint) (hack : frames.any Frame.isAckEliciting = true) :
    PacketKept (s.nextPn .applicationData) frames s []
      (s.sendPacket .applicationData frames size true appKind now ecn) := by
  obtain ⟨hheld, htracks⟩ := sendPacket_new s frames size appKind now ecn hack
  refine ⟨sendPacket_wellKeyed _ _ _ _ _ _ _ hs.1, ?_, fun probe hprobe => ?_, hheld, ?_, ?_, ?_⟩
  · rw [sendPacket_nextPn, if_pos rfl]
    exact Nat.lt_succ_self _
  · rw [sendPacket_pathMtu] at hprobe
    exact hs.2 _ (Nat.le_refl _) probe hprobe
  · grind
  · nofun
  · rw [sendPacket_pendingFrames, List.flatMap_nil, List.append_nil]

theorem eq_of_mem_appMoves (h : m ∈ appMoves pn moves) :
    m = ⟨.applicationData, pn, m.frames, m.fate⟩ := by
  obtain ⟨-, hm⟩ := List.mem_filter.mp h
  cases m
  simp_all

theorem PacketKept.fate_of_move (h : PacketKept pn frames s tr t)
    (hm : m ∈ appMoves pn (tr.flatMap Prod.snd)) : m.fate = .released ∨ m.fate = .requeued := by
  obtain ⟨hmem, hpn⟩ := List.mem_filter.mp hm
  obtain ⟨x, hx, hmem⟩ := List.mem_flatMap.mp hmem
  rw [h.fates x hx m (List.mem_filter.mpr ⟨hmem, hpn⟩), RecoveryEvent.fateOf]
  split
  · exact Or.inl rfl
  · exact Or.inr rfl

theorem PacketKept.place (h : PacketKept pn frames s tr t) :
    ∃! place, t.FramesAt tr pn frames place := by
  have hheld := h.held
  have htracks := h.tracks
  rw [RecoveryState.held] at hheld htracks
  cases hfind : (t.sentFrames .applicationData).find? pn with
  | some kept =>
    rw [hfind, Option.toList_some] at hheld htracks
    rcases List.append_eq_singleton_iff.mp hheld with ⟨hmoves, hkept⟩ | ⟨-, hnil⟩
    · cases hkept
      refine ⟨.sentFrames, ⟨hfind, by simpa using htracks, List.map_eq_nil_iff.mp hmoves⟩, ?_⟩
      intro place hplace
      cases place with
      | sentFrames => rfl
      | released | requeued => exact absurd hplace.1 (by simp [hfind])
    · cases hnil
  | none =>
    rw [hfind, Option.toList_none] at hheld htracks
    rw [List.append_nil] at hheld
    obtain ⟨m, hmoves, rfl⟩ := List.map_eq_singleton_iff.mp hheld
    have hmem : m ∈ appMoves pn (tr.flatMap Prod.snd) := by simp [hmoves]
    rw [eq_of_mem_appMoves hmem] at hmoves
    rcases h.fate_of_move hmem with hfate | hfate <;> rw [hfate] at hmoves
    · refine ⟨.released, ⟨hfind, htracks.mp rfl, hmoves⟩, ?_⟩
      intro place hplace
      cases place with
      | sentFrames => exact absurd hplace.1 (by simp [hfind])
      | released => rfl
      | requeued => exact absurd (hmoves.symm.trans hplace.2.2) (by simp)
    · refine ⟨.requeued, ⟨hfind, htracks.mp rfl, hmoves⟩, ?_⟩
      intro place hplace
      cases place with
      | sentFrames => exact absurd hplace.1 (by simp [hfind])
      | released => exact absurd (hmoves.symm.trans hplace.2.2) (by simp)
      | requeued => rfl

/-- From the moment an ApplicationData packet with a frame to be retransmitted is sent and
tracked, its frames are in exactly one place: in `sent_frames` while loss detection tracks
the packet, released, or moved to the queue once. They are released if the event that
removes them acknowledges the packet and queued otherwise, and apart from frames that are
queued for the first time the queue receives nothing else. -/
theorem app_frames_in_one_place (alg : CongestionAlgorithm γ) (timeThreshold : Nat → Nat)
    {tr tr' : List (RecoveryEvent × List Move)} {s t : RecoveryState γ} {frames : List Frame}
    {size : Nat} {appKind : Option ApplicationPacketKind} {now : Nat}
    {ecn : Option UdpEcnCodepoint}
    (hrun : Run (RecoveryState.step alg timeThreshold) (fun _ _ => True) (new alg) tr s)
    (hframes : frames.any Frame.isRetransmittable = true)
    (hrun' : Run (RecoveryState.step alg timeThreshold) (fun _ _ => True)
      (s.sendPacket .applicationData frames size true appKind now ecn) tr' t) :
    (∃! place, t.FramesAt tr' (s.nextPn .applicationData) frames place) ∧
      (∀ x ∈ tr', ∀ m ∈ appMoves (s.nextPn .applicationData) x.2,
        m.fate = x.1.fateOf (s.nextPn .applicationData)) ∧
      appFrames t.pendingFrames =
        appFrames s.pendingFrames ++ tr'.flatMap fun x => x.1.queues x.2 := by
  have hnumbered : s.Numbered := by
    have hinit : (new alg).Numbered := ⟨fun _ he => (nomatch he), fun _ _ _ h => (nomatch h)⟩
    apply hrun.invariant (I := fun _ s => s.Numbered) hinit
    intro tr t e moves u hinv _ hstep
    exact step_numbered hinv hstep
  have hack : frames.any Frame.isAckEliciting = true := by
    obtain ⟨f, hf, hretransmit⟩ := List.any_eq_true.mp hframes
    exact List.any_eq_true.mpr ⟨f, hf, Frame.isAckEliciting_of_isRetransmittable hretransmit⟩
  have hkept : PacketKept (s.nextPn .applicationData) frames s tr' t := by
    apply hrun'.invariant (I := PacketKept (s.nextPn .applicationData) frames s)
      (PacketKept.sent hnumbered size appKind now ecn hack)
    intro tr t e moves u hinv _ hstep
    exact hinv.step hstep
  exact ⟨hkept.place, hkept.fates, hkept.queued⟩

/-- A STREAM packet is lost when the third packet after it is acknowledged; its frame goes
back to the queue. -/
theorem app_frames_requeued_by_loss : ∃ tr t,
    Run (RecoveryState.step NewReno.algorithm nineEighths) (fun _ _ => True)
      ((new NewReno.algorithm).sendPacket .applicationData [.stream ⟨0, 0, true, [7]⟩] 100 true
        (some .oneRtt) 0 none) tr t ∧
    t.FramesAt tr 0 [.stream ⟨0, 0, true, [7]⟩] .requeued ∧
    (∃! place, t.FramesAt tr 0 [.stream ⟨0, 0, true, [7]⟩] place) ∧
    appFrames t.pendingFrames = [.stream ⟨0, 0, true, [7]⟩] := by
  have hinit : Run (RecoveryState.step NewReno.algorithm nineEighths) (fun _ _ => True)
    ((new NewReno.algorithm).sendPacket .applicationData [.stream ⟨0, 0, true, [7]⟩] 100 true
      (some .oneRtt) 0 none) [] _ := .nil
  have hrun := (((hinit.push (RecoveryEvent.sent .applicationData [.ping] 50 true (some .oneRtt) 1
    none) rfl trivial).push (RecoveryEvent.sent .applicationData [.ping] 50 true (some .oneRtt) 1
    none) rfl trivial).push (RecoveryEvent.sent .applicationData [.ping] 50 true (some .oneRtt) 1
    none) rfl trivial).push (RecoveryEvent.ack .applicationData ⟨3, 0, [⟨3, 3⟩], none⟩ 0 5) rfl
    trivial
  have hplace := app_frames_in_one_place NewReno.algorithm nineEighths .nil rfl hrun
  exact ⟨_, _, hrun, ⟨rfl, rfl, rfl⟩, hplace.1, rfl⟩

end RecoveryState

end Starfish.Quic
