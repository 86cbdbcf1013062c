import Mathlib.Algebra.BigOperators.Group.List.Basic
import Starfish.Quic.Connection.Recovery

/-!
# Bytes in flight

The congestion controller counts the bytes in flight, loss detection keeps the
packets that are outstanding. Both ledgers agree as long as every packet sent is
entered in both or in neither.
-/

namespace Starfish.Quic

universe u v w

def packetBytes (packets : List SentPacket) : Nat := (packets.map SentPacket.size).sum

@[simp] theorem packetBytes_nil : packetBytes [] = 0 := rfl

@[simp] theorem packetBytes_cons (pkt : SentPacket) (rest : List SentPacket) :
    packetBytes (pkt :: rest) = pkt.size + packetBytes rest := by
  simp [packetBytes]

@[simp] theorem packetBytes_append (packets packets' : List SentPacket) :
    packetBytes (packets ++ packets') = packetBytes packets + packetBytes packets' := by
  simp [packetBytes]

theorem packetBytes_perm {packets packets' : List SentPacket} (h : packets.Perm packets') :
    packetBytes packets = packetBytes packets' :=
  (h.map _).sum_eq

namespace LossDetection

def trackedBytes (ld : LossDetection) (space : PacketNumberSpace) : Nat :=
  packetBytes (ld.spaces space).sentPackets.values

def outstandingBytes (ld : LossDetection) : Nat :=
  ld.trackedBytes .initial + ld.trackedBytes .handshake + ld.trackedBytes .applicationData

variable {ld ld' : LossDetection}

theorem outstandingBytes_change (space : PacketNumberSpace) (n n' : Nat)
    (hspace : ld'.trackedBytes space + n = ld.trackedBytes space + n')
    (hother : ∀ other, other ≠ space → ld'.spaces other = ld.spaces other) :
    ld'.outstandingBytes + n = ld.outstandingBytes + n' := by
  have hsame : ∀ other, other ≠ space → ld'.trackedBytes other = ld.trackedBytes other := by
    grind [trackedBytes]
  unfold outstandingBytes
  cases space with
  | initial =>
    grind
  | handshake =>
    grind
  | applicationData =>
    grind

theorem outstandingBytes_congr
    (h : ∀ space, (ld'.spaces space).sentPackets = (ld.spaces space).sentPackets) :
    ld'.outstandingBytes = ld.outstandingBytes := by
  simp only [outstandingBytes, trackedBytes, h]

theorem onPacketSent_bytes (ld : LossDetection) (pkt : SentPacket)
    (hfresh : (ld.spaces pkt.space).sentPackets.find? pkt.pn = none) :
    (ld.onPacketSent pkt).outstandingBytes =
      ld.outstandingBytes + if pkt.ackEliciting then pkt.size else 0 := by
  unfold onPacketSent
  split
  · refine outstandingBytes_change pkt.space 0 _ ?_ fun other hne => setSpace_of_ne ld _ hne
    have hperm := (OrdMap.entries_insert_perm pkt hfresh).map Prod.snd
    grind [packetBytes_perm, packetBytes_cons, trackedBytes, setSpace_self, OrdMap.values]
  · rfl

theorem onAckReceived_bytes {timeThreshold : Nat → Nat} {space : PacketNumberSpace}
    {largestAcked ackDelay now : Nat} {ackRanges : List (Nat × Nat)} {acked lost : List SentPacket}
    (h : ld.onAckReceived timeThreshold space largestAcked ackDelay ackRanges now = some ((acked, lost), ld'))
    :
    ld'.outstandingBytes + (packetBytes acked + packetBytes lost) = ld.outstandingBytes := by
  obtain ⟨hperm, hother⟩ := onAckReceived_perm h
  have hbytes := packetBytes_perm hperm
  simp only [packetBytes_append] at hbytes
  refine outstandingBytes_change space _ 0 ?_ hother
  unfold trackedBytes
  omega

theorem removeSentPacket_bytes (ld : LossDetection) (space : PacketNumberSpace) (pn : Nat) :
    (ld.removeSentPacket space pn).2.outstandingBytes +
      packetBytes (ld.removeSentPacket space pn).1.toList = ld.outstandingBytes := by
  unfold removeSentPacket
  refine outstandingBytes_change space _ 0 ?_ fun other hne => setSpace_of_ne ld _ hne
  simp only [trackedBytes, setSpace_self]
  cases hfind : (ld.spaces space).sentPackets.find? pn with
  | none => rw [OrdMap.erase_eq_self hfind, Option.toList_none, packetBytes_nil]
  | some pkt =>
    have hbytes := packetBytes_perm ((OrdMap.entries_erase_perm hfind).map Prod.snd)
    grind [packetBytes_cons, packetBytes_nil, OrdMap.values]

theorem takeSentPackets_bytes (ld : LossDetection) (space : PacketNumberSpace) :
    (ld.takeSentPackets space).2.outstandingBytes + packetBytes (ld.takeSentPackets space).1 =
      ld.outstandingBytes := by
  unfold takeSentPackets
  refine outstandingBytes_change space _ 0 ?_ fun other hne => setSpace_of_ne ld _ hne
  simp [trackedBytes, OrdMap.values]

end LossDetection

/-! ## Operations that take packets out -/

def RecoveryState.tracked {γ : Type u} (s : RecoveryState γ) (space : PacketNumberSpace) :
    OrdMap SentPacket :=
  (s.lossDetection.spaces space).sentPackets

def RecoveryState.FreshNumbers {γ : Type u} (s : RecoveryState γ) : Prop :=
  ∀ space, ∀ e ∈ (s.tracked space).entries, e.1 < s.nextPn space

def RecoveryState.LedgersAgree {γ : Type u} (s : RecoveryState γ) : Prop :=
  s.congestion.bytesInFlight = s.lossDetection.outstandingBytes

def CountedBeyond {γ : Type u} (n : Nat) (s : RecoveryState γ) : Prop :=
  s.congestion.bytesInFlight = s.lossDetection.outstandingBytes + n

/-- An operation from `s` to `s'` tracks no new packet, uses no packet number and takes
the bytes counted beyond the outstanding packets from `n` to `n'`. -/
structure Settles {γ : Type u} (n n' : Nat) (s s' : RecoveryState γ) : Prop where
  counted : CountedBeyond n s → CountedBeyond n' s'
  tracked : ∀ space, ∀ e ∈ (s'.tracked space).entries, e ∈ (s.tracked space).entries
  nextPn : s'.nextPn = s.nextPn

namespace Settles

variable {γ : Type u} {n n' n'' : Nat} {s s' s'' : RecoveryState γ}

theorem trans (h : Settles n n' s s') (h' : Settles n' n'' s' s'') : Settles n n'' s s'' where
  counted := fun hs => h'.counted (h.counted hs)
  tracked := fun space e he => h.tracked space e (h'.tracked space e he)
  nextPn := h'.nextPn.trans h.nextPn

theorem of_same (hld : s'.lossDetection = s.lossDetection)
    (hcc : s'.congestion.bytesInFlight = s.congestion.bytesInFlight) (hpn : s'.nextPn = s.nextPn) :
    Settles n n s s' where
  counted := fun hs => by
    unfold CountedBeyond at *
    rw [hld, hcc, hs]
  tracked := fun space e he => by
    unfold RecoveryState.tracked at *
    rwa [hld] at he
  nextPn := hpn

theorem refl (n : Nat) (s : RecoveryState γ) : Settles n n s s := of_same rfl rfl rfl

theorem fresh (h : Settles n n' s s') (hs : s.FreshNumbers) : s'.FreshNumbers := by
  intro space e he
  rw [h.nextPn]
  exact hs space e (h.tracked space e he)

theorem agree (h : Settles 0 0 s s') (hs : s.LedgersAgree) : s'.LedgersAgree := h.counted hs

theorem forEach {σ : Type v} {α : Type w} {f : σ → α → σ × List Move} (view : σ → RecoveryState γ)
    (bytes : α → Nat) (hf : ∀ x a n, Settles (n + bytes a) n (view x) (view (f x a).1)) (n : Nat)
    (x : σ) (l : List α) :
    Settles (n + (l.map bytes).sum) n (view x) (view (Quic.forEach f x l).1) := by
  induction l generalizing x with
  | nil => exact refl n _
  | cons a rest ih =>
    have hfirst := hf x a (n + (rest.map bytes).sum)
    rw [Nat.add_right_comm, Nat.add_assoc, ← List.sum_cons, ← List.map_cons] at hfirst
    exact hfirst.trans (ih (f x a).1)

end Settles

namespace RecoveryState

variable {γ : Type u}

theorem takeFrames_settles (n : Nat) (fate : Fate) (space : PacketNumberSpace)
    (s : RecoveryState γ) (pn : Nat) : Settles n n s (takeFrames fate space s pn).1 :=
  .of_same (takeFrames_lossDetection ..) (by rw [takeFrames_congestion]) (takeFrames_nextPn ..)

theorem removeSentPacket_tracked {ld : LossDetection} {space other : PacketNumberSpace} {pn : Nat}
    {e : Nat × SentPacket}
    (he : e ∈ ((ld.removeSentPacket space pn).2.spaces other).sentPackets.entries) :
    e ∈ (ld.spaces other).sentPackets.entries := by
  unfold LossDetection.removeSentPacket at he
  by_cases hspace : other = space
  · subst hspace
    rw [LossDetection.setSpace_self] at he
    exact ((OrdMap.mem_erase e).mp he).1
  · rwa [LossDetection.setSpace_of_ne ld _ hspace] at he

theorem discardTracked_settles (n : Nat) (space : PacketNumberSpace) (s : RecoveryState γ)
    (pn : Nat) : Settles n n s (s.discardTracked space pn) where
  counted := fun hs => by
    have hbytes := s.lossDetection.removeSentPacket_bytes space pn
    grind [CountedBeyond, discardTracked, packetBytes_cons, packetBytes_nil,
      Congestion.onPacketDiscarded]
  tracked := fun other e he => by
    unfold tracked at *
    rw [discardTracked_lossDetection] at he
    exact removeSentPacket_tracked he
  nextPn := discardTracked_nextPn ..

theorem foldl_onPacketDiscarded (packets : List SentPacket) (c : Congestion γ) :
    (packets.foldl (fun c pkt => c.onPacketDiscarded pkt.size) c).bytesInFlight =
      c.bytesInFlight - packetBytes packets := by
  induction packets generalizing c with
  | nil => rfl
  | cons pkt rest ih =>
    rw [List.foldl_cons, ih, packetBytes_cons, Congestion.onPacketDiscarded, Nat.sub_sub]

theorem discardAllTracked_settles (n : Nat) (space : PacketNumberSpace) (s : RecoveryState γ) :
    Settles n n s (s.discardAllTracked space) where
  counted := fun hs => by
    have hbytes := s.lossDetection.takeSentPackets_bytes space
    unfold CountedBeyond at *
    simp only [discardAllTracked, foldl_onPacketDiscarded]
    omega
  tracked := fun other e he => by
    simp only [tracked, discardAllTracked, LossDetection.takeSentPackets] at *
    by_cases hspace : other = space
    · simp_all
    · rwa [LossDetection.setSpace_of_ne _ _ hspace] at he
  nextPn := rfl

theorem completePathMtuProbeSuccess_settles (n : Nat) (s : RecoveryState γ) (pn now : Nat) :
    Settles n n s (s.completePathMtuProbeSuccess pn now) := by
  unfold completePathMtuProbeSuccess
  split
  · exact .refl n s
  · exact .of_same rfl rfl rfl

variable (alg : CongestionAlgorithm γ)

theorem loseTracked_settles (n : Nat) (space : PacketNumberSpace) (s : RecoveryState γ)
    (pn now : Nat) : Settles n n s (s.loseTracked alg space pn now) := by
  have hbytes := s.lossDetection.removeSentPacket_bytes space pn
  have htracked : ∀ other e,
      e ∈ ((s.lossDetection.removeSentPacket space pn).2.spaces other).sentPackets.entries →
        e ∈ (s.lossDetection.spaces other).sentPackets.entries :=
    fun other e he => removeSentPacket_tracked he
  unfold loseTracked
  split
  · next pkt ld hremoved =>
    rw [hremoved] at hbytes htracked
    simp only [Option.toList_some, packetBytes_cons, packetBytes_nil] at hbytes
    refine ⟨fun hs => ?_, htracked, rfl⟩
    unfold CountedBeyond at *
    simp only [Congestion.onLoss]
    omega
  · next ld hremoved =>
    rw [hremoved] at hbytes htracked
    simp only [Option.toList_none, packetBytes_nil] at hbytes
    refine ⟨fun hs => ?_, htracked, rfl⟩
    unfold CountedBeyond at *
    dsimp only
    omega

theorem completePathMtuProbeFailure_settles (n : Nat) (s : RecoveryState γ) (pn now : Nat) :
    Settles n n s (s.completePathMtuProbeFailure alg pn now).1 := by
  unfold completePathMtuProbeFailure
  split
  · exact .refl n s
  · have hclear : Settles n n s s.clearProbe := .of_same rfl rfl rfl
    have htaken := takeFrames_settles n .dropped .applicationData s.clearProbe pn
    have hlost := loseTracked_settles alg n .applicationData
      (takeFrames .dropped .applicationData s.clearProbe pn).1 pn now
    have hnext : ∀ (t : RecoveryState γ) (size : Nat),
        Settles n n t ((t.lowerProbeBound size).scheduleNextPathMtuProbe now) :=
      fun t size => .of_same rfl rfl rfl
    exact ((hclear.trans htaken).trans hlost).trans (hnext _ _)

theorem abandonPathMtuProbe_settles (n : Nat) (s : RecoveryState γ) (pn : Nat) :
    Settles n n s (s.abandonPathMtuProbe pn).1 := by
  unfold abandonPathMtuProbe
  split
  · exact .refl n s
  · have hclear : Settles n n s s.clearProbe := .of_same rfl rfl rfl
    have htaken := takeFrames_settles n .dropped .applicationData s.clearProbe pn
    exact (hclear.trans htaken).trans (discardTracked_settles n _ _ pn)

theorem creditAcked_settles (n : Nat) (s : RecoveryState γ) (pkt : SentPacket) (marked : Bool)
    (rtt now : Nat) :
    Settles (n + pkt.size) n s (s.creditAcked alg pkt marked rtt now) := by
  refine ⟨fun hs => ?_, fun _ _ he => he, rfl⟩
  unfold CountedBeyond at *
  cases marked with
  | false =>
    simp only [creditAcked, Bool.false_eq_true, if_false, Congestion.onAck]
    omega
  | true =>
    simp only [creditAcked, if_true, Congestion.onEcnCe]
    omega

theorem ackedPacket_settles (space : PacketNumberSpace) (rtt now : Nat) (x : RecoveryState γ × Nat)
    (pkt : SentPacket) (n : Nat) :
    Settles (n + pkt.size) n x.1 (ackedPacket alg space rtt now x pkt).1.1 := by
  have hforget : Settles (n + pkt.size) (n + pkt.size) x.1 (x.1.forgetZeroRtt pkt.pn) :=
    .of_same rfl rfl rfl
  unfold ackedPacket
  refine Settles.trans ?_ ((creditAcked_settles alg n _ pkt _ rtt now).trans
    (takeFrames_settles n _ _ _ _))
  split
  · exact hforget.trans (completePathMtuProbeSuccess_settles _ _ _ _)
  · exact hforget

theorem creditLost_settles (n : Nat) (s : RecoveryState γ) (pkt : SentPacket) (now : Nat) :
    Settles (n + pkt.size) n s (s.creditLost alg pkt now) := by
  refine ⟨fun hs => ?_, fun _ _ he => he, rfl⟩
  unfold CountedBeyond at *
  simp only [creditLost, Congestion.onLoss]
  omega

theorem lostPacket_settles (space : PacketNumberSpace) (now : Nat) (s : RecoveryState γ)
    (pkt : SentPacket) (n : Nat) :
    Settles (n + pkt.size) n s (lostPacket alg space now s pkt).1 := by
  have hforget : Settles (n + pkt.size) (n + pkt.size) s (s.forgetZeroRtt pkt.pn) :=
    .of_same rfl rfl rfl
  unfold lostPacket
  refine Settles.trans ?_ ((creditLost_settles alg n _ pkt now).trans
    (takeFrames_settles n _ _ _ _))
  split
  · exact hforget.trans (completePathMtuProbeFailure_settles alg _ _ _ _)
  · exact hforget

variable {timeThreshold : Nat → Nat} {moves : List Move}

theorem processAck_settles {alg : CongestionAlgorithm γ}
    {s s' : RecoveryState γ} {space : PacketNumberSpace} {ack : AckFrame} {ceMarked now : Nat}
    (h : s.processAck alg timeThreshold space ack ceMarked now = some (s', moves)) :
    Settles 0 0 s s' := by
  unfold processAck at h
  dsimp only at h
  split at h
  · cases h
  · next acked lost ld hack =>
    have hpruned := ld.prune_sentPackets space
    have hbytes := LossDetection.onAckReceived_bytes hack
    rw [← LossDetection.outstandingBytes_congr hpruned] at hbytes
    generalize ld.pruneAcknowledgedAckElicitingTimes space = pruned at h hpruned hbytes
    -- The packets leave loss detection first, the count follows packet by packet.
    have hstart : Settles 0 (0 + packetBytes lost + packetBytes acked) s
        { s with lossDetection := pruned } := by
      refine ⟨fun hs => ?_, fun other e he => ?_, rfl⟩
      · unfold CountedBeyond at *
        dsimp only
        omega
      · unfold tracked at *
        rw [hpruned] at he
        by_cases hspace : other = space
        · subst hspace
          exact LossDetection.onAckReceived_subset hack he
        · rwa [(LossDetection.onAckReceived_perm hack).2 other hspace] at he
    have hacked := Settles.forEach Prod.fst SentPacket.size
      (ackedPacket_settles alg space pruned.rtt.latestRtt now) (0 + packetBytes lost)
      ({ s with lossDetection := pruned }, ceMarked) acked
    have hlost := Settles.forEach id SentPacket.size (lostPacket_settles alg space now) 0
      (forEach (ackedPacket alg space pruned.rtt.latestRtt now)
        ({ s with lossDetection := pruned }, ceMarked) acked).1.1 lost
    obtain ⟨rfl, -⟩ := Prod.mk.inj (Option.some.inj h)
    refine ((hstart.trans hacked).trans hlost).trans ?_
    split <;> exact .of_same rfl rfl rfl

theorem requeueZeroRttPacket_settles (s : RecoveryState γ) (pn n : Nat) :
    Settles n n s (s.requeueZeroRttPacket pn).1 :=
  ((discardTracked_settles n _ s pn).trans (takeFrames_settles n _ _ _ pn)).trans
    (.of_same rfl rfl rfl)

theorem requeueZeroRttInFlight_settles (n : Nat) (s : RecoveryState γ) :
    Settles n n s s.requeueZeroRttInFlight.1 := by
  have hloop := Settles.forEach id (fun _ => 0)
    (fun s pn n => requeueZeroRttPacket_settles (γ := γ) s pn n) n s s.zeroRttInFlight.keys
  simpa [requeueZeroRttInFlight] using hloop

/-- Clearing a space of `sent_frames`, whatever becomes of the frames. -/
theorem takeAllFrames_settles (n : Nat) (fate : Fate) (space : PacketNumberSpace)
    (s : RecoveryState γ) (pns : List Nat) :
    Settles n n s (forEach (takeFrames fate space) s pns).1 := by
  have hloop := Settles.forEach id (fun _ => 0)
    (fun s pn n => takeFrames_settles (γ := γ) n fate space s pn) n s pns
  simpa using hloop

theorem discardSpace_settles (n : Nat) (s : RecoveryState γ) (space : PacketNumberSpace) :
    Settles n n s (s.discardSpace space).1 :=
  (discardAllTracked_settles n space s).trans (takeAllFrames_settles n _ space _ _)

theorem requeueSpace_settles (n : Nat) (s : RecoveryState γ) (space : PacketNumberSpace) :
    Settles n n s (s.requeueSpace space).1 :=
  (discardAllTracked_settles n space s).trans (takeAllFrames_settles n _ space _ _)

theorem processHandshakeDone_settles (n : Nat) (s : RecoveryState γ) (earlyDataRejected : Bool) :
    Settles n n s (s.processHandshakeDone earlyDataRejected).1 := by
  cases earlyDataRejected with
  | false => exact discardSpace_settles n s .handshake
  | true => exact (requeueZeroRttInFlight_settles n s).trans (discardSpace_settles n _ .handshake)

theorem abandonOversizedProbe_settles (n : Nat) (s : RecoveryState γ) :
    Settles n n s s.abandonOversizedProbe.1 := by
  unfold abandonOversizedProbe
  split
  · split
    · exact abandonPathMtuProbe_settles n s _
    · exact .refl n s
  · exact .refl n s

theorem applyPeerMaxUdpPayloadSize_settles (n : Nat) (s : RecoveryState γ) (peerMax now : Nat) :
    Settles n n s (s.applyPeerMaxUdpPayloadSize peerMax now).1 := by
  have hlimit : Settles n n s (s.limitDatagrams peerMax) := .of_same rfl rfl rfl
  have hprobe : ∀ t : RecoveryState γ, Settles n n t (t.probeIfRoom now) :=
    fun t => .of_same rfl rfl rfl
  exact (hlimit.trans (abandonOversizedProbe_settles n _)).trans (hprobe _)

/-! ## Runs -/

theorem FreshNumbers.find?_nextPn {s : RecoveryState γ} (hs : s.FreshNumbers)
    (space : PacketNumberSpace) : (s.tracked space).find? (s.nextPn space) = none :=
  OrdMap.find?_eq_none_iff.mpr fun _ hmem => Nat.lt_irrefl _ (hs space _ hmem)

section Send

variable (s : RecoveryState γ) (space : PacketNumberSpace) (frames : List Frame) (size : Nat)
  (trackRetransmission : Bool) (appKind : Option ApplicationPacketKind) (now : Nat)
  (ecn : Option UdpEcnCodepoint)

theorem sendPacket_lossDetection :
    (s.sendPacket space frames size trackRetransmission appKind now ecn).lossDetection =
      if trackRetransmission then s.lossDetection.onPacketSent
        ⟨s.nextPn space, space, now, size, frames.any Frame.isAckEliciting, ecn⟩
      else s.lossDetection := by
  unfold sendPacket
  rw [recordSent_eq]
  exact trackPacket_lossDetection ..

theorem sendPacket_bytesInFlight :
    (s.sendPacket space frames size trackRetransmission appKind now ecn).congestion.bytesInFlight =
      s.congestion.bytesInFlight + if !isCloseOnly frames then size else 0 := by
  unfold sendPacket
  rw [recordSent_bytesInFlight]
  rfl

theorem sendPacket_nextPn (other : PacketNumberSpace) :
    (s.sendPacket space frames size trackRetransmission appKind now ecn).nextPn other =
      if other = space then s.nextPn space + 1 else s.nextPn other := by
  unfold sendPacket
  rw [recordSent_eq, trackPacket_nextPn]
  rfl

theorem sendPacket_outstanding (hs : s.FreshNumbers) :
    (s.sendPacket space frames size trackRetransmission appKind now
        ecn).lossDetection.outstandingBytes =
      s.lossDetection.outstandingBytes +
        if trackRetransmission && frames.any Frame.isAckEliciting then size else 0 := by
  rw [sendPacket_lossDetection]
  cases trackRetransmission with
  | false => simp
  | true =>
    have hbytes := s.lossDetection.onPacketSent_bytes
      ⟨s.nextPn space, space, now, size, frames.any Frame.isAckEliciting, ecn⟩
      (hs.find?_nextPn space)
    simpa using hbytes

theorem sendPacket_tracked {other : PacketNumberSpace} {e : Nat × SentPacket}
    (he : e ∈ ((s.sendPacket space frames size trackRetransmission appKind now
      ecn).tracked other).entries) :
    e ∈ (s.tracked other).entries ∨ other = space ∧ e.1 = s.nextPn space := by
  unfold tracked at he
  rw [sendPacket_lossDetection] at he
  split at he
  · unfold LossDetection.onPacketSent at he
    split at he
    · by_cases hspace : other = space
      · subst hspace
        rw [LossDetection.setSpace_self] at he
        rcases (OrdMap.mem_insert e).mp he with rfl | ⟨hold, -⟩
        · exact Or.inr ⟨rfl, rfl⟩
        · exact Or.inl hold
      · rw [LossDetection.setSpace_of_ne _ _ hspace] at he
        exact Or.inl he
    · exact Or.inl he
  · exact Or.inl he

theorem sendPacket_fresh (hs : s.FreshNumbers) :
    (s.sendPacket space frames size trackRetransmission appKind now ecn).FreshNumbers := by
  intro other e he
  rw [sendPacket_nextPn]
  rcases sendPacket_tracked s space frames size trackRetransmission appKind now ecn he with
    hold | ⟨rfl, hnew⟩
  · have hlt := hs other e hold
    grind
  · rw [if_pos rfl]
    omega

end Send

theorem processRetry_settles (s : RecoveryState γ) (initialCryptoData : Option Bytes) :
    Settles 0 0 ((s.setNextPn .initial 0).discardAllTracked .initial)
      (s.processRetry initialCryptoData).1 := by
  have hframes := takeAllFrames_settles 0 .dropped .initial
    ((s.setNextPn .initial 0).discardAllTracked .initial)
    ((s.setNextPn .initial 0).sentFrames .initial).keys
  have hdrop : ∀ t : RecoveryState γ, Settles 0 0 t t.dropInitialFrames :=
    fun t => .of_same rfl rfl rfl
  have hhello : ∀ t : RecoveryState γ,
      Settles 0 0 t (t.pushFrames (initialHello initialCryptoData)) :=
    fun t => .of_same rfl rfl rfl
  exact ((hframes.trans (hdrop _)).trans (requeueZeroRttInFlight_settles 0 _)).trans (hhello _)

variable (initialCryptoData : Option Bytes)

theorem processRetry_fresh {s : RecoveryState γ} (hs : s.FreshNumbers) :
    (s.processRetry initialCryptoData).1.FreshNumbers := by
  have hrest := processRetry_settles s initialCryptoData
  intro space e he
  have hd := hrest.tracked space e he
  rw [hrest.nextPn]
  cases hspace : decide (space = .initial) with
  | true =>
    obtain rfl := of_decide_eq_true hspace
    cases hd
  | false =>
    have hne := of_decide_eq_false hspace
    have hold := (discardAllTracked_settles 0 .initial (s.setNextPn .initial 0)).tracked space e hd
    have hlt := hs space e hold
    simpa [discardAllTracked, setNextPn, hne] using hlt

theorem processRetry_agree {s : RecoveryState γ} (hs : s.LedgersAgree) :
    (s.processRetry initialCryptoData).1.LedgersAgree := by
  have hall := discardAllTracked_settles 0 .initial (s.setNextPn .initial 0)
  exact (hall.trans (processRetry_settles s initialCryptoData)).agree hs

def EnteredInBoth : RecoveryEvent → Prop
  | .sent _ frames size trackRetransmission _ _ _ =>
    size = 0 ∨ (!isCloseOnly frames) = (trackRetransmission && frames.any Frame.isAckEliciting)
  | _ => True

/-- Events that use no packet number and do not start the numbers again. -/
def OnlySettles : RecoveryEvent → Prop
  | .sent .. | .skipped .. | .probeSent .. | .retry .. | .pathReset .. => False
  | _ => True

variable {alg : CongestionAlgorithm γ} {s s' : RecoveryState γ} {e : RecoveryEvent}

theorem step_settles (hstep : s.step alg timeThreshold e = some (moves, s'))
    (he : OnlySettles e) : Settles 0 0 s s' := by
  cases e with
  | sent | skipped | probeSent | retry | pathReset => exact he.elim
  | ack space frame ceMarked now =>
    obtain ⟨res, hres, hswap⟩ := Option.map_eq_some_iff.mp hstep
    cases hswap
    exact processAck_settles hres
  | probeTimeout now =>
    cases hstep
    unfold handlePathMtuProbeTimeout
    split
    · exact completePathMtuProbeFailure_settles alg 0 s _ now
    · exact .refl 0 s
  | peerMaxUdpPayloadSize peerMax now =>
    cases hstep
    exact applyPeerMaxUdpPayloadSize_settles 0 s peerMax now
  | zeroRttRejected =>
    cases hstep
    exact requeueZeroRttInFlight_settles 0 s
  | handshakeDone earlyDataRejected =>
    cases hstep
    exact processHandshakeDone_settles 0 s earlyDataRejected
  | discarded space =>
    cases hstep
    exact discardSpace_settles 0 s space.toSpace
  | ptoTimeout | queue =>
    cases hstep
    exact ⟨id, fun _ _ he => he, rfl⟩

/-- Every event but a packet sent keeps the ledgers in agreement, and a packet sent does
so exactly if it is entered in both or in neither. -/
theorem step_ledgers (hfresh : s.FreshNumbers) (hagree : s.LedgersAgree)
    (hstep : s.step alg timeThreshold e = some (moves, s')) :
    s'.FreshNumbers ∧ (s'.LedgersAgree ↔ EnteredInBoth e) := by
  cases e with
  | sent space frames size trackRetransmission appKind now ecn =>
    cases hstep
    grind [sendPacket_fresh, LedgersAgree, sendPacket_bytesInFlight, sendPacket_outstanding,
      EnteredInBoth]
  | skipped space =>
    cases hstep
    refine ⟨fun other e he => ?_, iff_true_intro hagree⟩
    have hlt := hfresh other e he
    grind [setNextPn]
  | probeSent size now ecn =>
    cases hstep
    unfold sendPathMtuProbe
    split
    · exact ⟨hfresh, iff_true_intro hagree⟩
    · refine ⟨sendPacket_fresh s .applicationData [.ping] size true (some .oneRtt) now ecn hfresh,
        iff_true_intro ?_⟩
      have hbytes := sendPacket_bytesInFlight s .applicationData [.ping] size true (some .oneRtt)
        now ecn
      have hout := sendPacket_outstanding s .applicationData [.ping] size true (some .oneRtt)
        now ecn hfresh
      exact hbytes.trans (by rw [hagree]; exact hout.symm)
  | retry initialCryptoData =>
    cases hstep
    exact ⟨processRetry_fresh _ hfresh, iff_true_intro (processRetry_agree _ hagree)⟩
  | pathReset now =>
    cases hstep
    exact ⟨fun space e he => (nomatch he), iff_true_intro rfl⟩
  | _ =>
    have hsettles := step_settles hstep trivial
    exact ⟨hsettles.fresh hfresh, iff_true_intro (hsettles.agree hagree)⟩

/-- In every run whose packets are each entered in both ledgers or in neither, the
congestion controller counts exactly the bytes that loss detection still tracks, and a
next event keeps this exactly if it meets the same condition. -/
theorem bytes_in_flight_iff (alg : CongestionAlgorithm γ) (timeThreshold : Nat → Nat)
    {tr : List (RecoveryEvent × List Move)} {s : RecoveryState γ}
    (hrun : Run (step alg timeThreshold) (fun _ e => EnteredInBoth e) (new alg) tr s) :
    s.LedgersAgree ∧ ∀ e moves s', s.step alg timeThreshold e = some (moves, s') →
      (s'.LedgersAgree ↔ EnteredInBoth e) := by
  have hinv : s.FreshNumbers ∧ s.LedgersAgree := by
    refine hrun.invariant (I := fun _ s => s.FreshNumbers ∧ s.LedgersAgree)
      ⟨fun space e he => (nomatch he), rfl⟩ ?_
    intro tr t e moves u hinv hentered hstep
    obtain ⟨hfresh, hiff⟩ := step_ledgers hinv.1 hinv.2 hstep
    exact ⟨hfresh, hiff.mpr hentered⟩
  exact ⟨hinv.2, fun e moves s' hstep => (step_ledgers hinv.1 hinv.2 hstep).2⟩

def nineEighths (duration : Nat) : Nat := duration * 9 / 8

/-- A STREAM packet is sent and acknowledged. -/
theorem bytes_in_flight_acknowledged : ∃ tr s,
    Run (step NewReno.algorithm nineEighths) (fun _ e => EnteredInBoth e)
      (new NewReno.algorithm) tr s ∧
    tr.length = 2 ∧ s.congestion.bytesInFlight = 0 ∧ s.LedgersAgree := by
  have hinit : Run (step NewReno.algorithm nineEighths) (fun _ e => EnteredInBoth e)
    (new NewReno.algorithm) [] _ := .nil
  have hrun := (hinit.push (RecoveryEvent.sent .applicationData [.stream ⟨0, 0, true, [7]⟩] 100 true
    (some .oneRtt) 0 none) rfl (Or.inr rfl)).push
    (RecoveryEvent.ack .applicationData ⟨0, 0, [⟨0, 0⟩], none⟩ 0 5) rfl trivial
  exact ⟨_, _, hrun, rfl, rfl, (bytes_in_flight_iff NewReno.algorithm nineEighths hrun).1⟩

/-- An ACK frame sent alone counts as in flight and is never taken off again: loss
detection does not track it. -/
theorem ack_only_packet_leaks : ∃ tr s,
    Run (step NewReno.algorithm nineEighths) (fun _ _ => True) (new NewReno.algorithm) tr s ∧
    s.congestion.bytesInFlight = 40 ∧ s.lossDetection.outstandingBytes = 0 ∧
    ¬ s.LedgersAgree := by
  have hinit : Run (step NewReno.algorithm nineEighths) (fun _ _ => True)
    (new NewReno.algorithm) [] _ := .nil
  have hrun := hinit.push (RecoveryEvent.sent .applicationData
    [.ack ⟨3, 0, [⟨3, 3⟩], none⟩] 40 true (some .oneRtt) 0 none) rfl trivial
  exact ⟨_, _, hrun, rfl, rfl, fun h => nomatch h⟩

end RecoveryState

end Starfish.Quic
