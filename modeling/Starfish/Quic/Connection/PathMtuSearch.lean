import Starfish.Quic.Connection.Recovery

/-!
# The search for the path MTU

The probes of a connection on a path that delivers the datagrams of up to a certain size. Each round
sends a probe of the size that the connection chooses next and ends with its success or its failure;
the send size and the search limit enclose the size that the search is looking for.
-/

namespace Starfish.Quic

namespace RecoveryState

universe u

variable {γ : Type u} (alg : CongestionAlgorithm γ)

/-- When a probe is sent and with which mark, and when it is known what became of it. -/
structure ProbeRound where
  sentAt : Nat
  ecn : Option UdpEcnCodepoint
  completedAt : Nat

def probe (pathLimit : Nat) (s : RecoveryState γ) (round : ProbeRound) (size : Nat) :
    RecoveryState γ :=
  let pn := s.nextPn .applicationData
  let sent := s.sendPathMtuProbe size round.sentAt round.ecn
  if size ≤ pathLimit then sent.completePathMtuProbeSuccess pn round.completedAt
  else (sent.completePathMtuProbeFailure alg pn round.completedAt).1

def search (pathLimit : Nat) (rounds : Nat → ProbeRound) (s : RecoveryState γ) :
    Nat → RecoveryState γ
  | 0 => s
  | n + 1 =>
    let t := search pathLimit rounds s n
    match t.nextPathMtuProbeSize with
    | none => t
    | some size => t.probe alg pathLimit (rounds n) size

/-! ## One round -/

variable {s : RecoveryState γ} {pathLimit size : Nat}

theorem nextPathMtuProbeSize_eq_some (h : s.nextPathMtuProbeSize = some size) :
    s.maxSendUdpPayloadSize < size ∧ size ≤ s.pathMtu.searchLimit := by
  unfold nextPathMtuProbeSize at h
  grind

theorem nextPathMtuProbeSize_eq_none_iff (hfit : s.pathMtu.searchLimit ≤ u64Max) :
    s.nextPathMtuProbeSize = none ↔
      s.pathMtu.searchLimit ≤ s.maxSendUdpPayloadSize ∨ s.maxSendUdpPayloadSize = 0 := by
  have hdoubled : saturatingMul s.maxSendUdpPayloadSize 2 =
      min (s.maxSendUdpPayloadSize * 2) u64Max := rfl
  unfold nextPathMtuProbeSize
  grind

theorem sendPacket_maxSendUdpPayloadSize (s : RecoveryState γ) (space : PacketNumberSpace)
    (frames : List Frame) (size : Nat) (track : Bool) (kind : Option ApplicationPacketKind)
    (now : Nat) (ecn : Option UdpEcnCodepoint) :
    (s.sendPacket space frames size track kind now ecn).maxSendUdpPayloadSize =
        s.maxSendUdpPayloadSize ∧
      (s.sendPacket space frames size track kind now ecn).pathMtu = s.pathMtu := by
  unfold sendPacket
  rw [recordSent_eq]
  unfold trackPacket
  split <;> exact ⟨rfl, rfl⟩

theorem loseTracked_maxSendUdpPayloadSize (space : PacketNumberSpace) (pn now : Nat) :
    (s.loseTracked alg space pn now).maxSendUdpPayloadSize = s.maxSendUdpPayloadSize ∧
      (s.loseTracked alg space pn now).pathMtu = s.pathMtu := by
  unfold loseTracked
  split <;> exact ⟨rfl, rfl⟩

theorem takeFrames_maxSendUdpPayloadSize (fate : Fate) (space : PacketNumberSpace) (pn : Nat) :
    (takeFrames fate space s pn).1.maxSendUdpPayloadSize = s.maxSendUdpPayloadSize := by
  unfold takeFrames
  split <;> rfl

structure Searching (s : RecoveryState γ) (current limit : Nat) : Prop where
  idle : s.pathMtu.inFlightProbe = none
  current : s.maxSendUdpPayloadSize = current
  limit : s.pathMtu.searchLimit = limit

theorem Searching.probe {current limit : Nat} (h : Searching s current limit) (hsize : size ≤ limit)
    (pathLimit : Nat) (round : ProbeRound) :
    if size ≤ pathLimit then Searching (s.probe alg pathLimit round size) size limit
    else Searching (s.probe alg pathLimit round size) current (size - 1) := by
  obtain ⟨hsent, hmtu⟩ := s.sendPacket_maxSendUdpPayloadSize .applicationData [.ping] size true
    (some .oneRtt) round.sentAt round.ecn
  have hidle : s.pathMtu.inFlightProbe.isSome = false := by rw [h.idle]; rfl
  have hlimit : min (min s.pathMtu.localMaxUdpPayloadSize s.pathMtu.peerMaxUdpPayloadSize)
      s.pathMtu.probeUpperBound = limit := h.limit
  split
  · next hdelivered =>
    simp only [RecoveryState.probe, if_pos hdelivered, sendPathMtuProbe, hidle,
      completePathMtuProbeSuccess, probeWith, Bool.false_eq_true, if_false]
    exact ⟨rfl, rfl, by rw [← h.limit, ← hmtu]; rfl⟩
  · next hlost =>
    simp only [RecoveryState.probe, if_neg hlost, sendPathMtuProbe, hidle,
      completePathMtuProbeFailure, probeWith, Bool.false_eq_true, if_false, if_true]
    refine ⟨?_, ?_, ?_⟩
    · simp [scheduleNextPathMtuProbe, lowerProbeBound, loseTracked_maxSendUdpPayloadSize,
        clearProbe]
    · simp [scheduleNextPathMtuProbe, lowerProbeBound, loseTracked_maxSendUdpPayloadSize,
        takeFrames_maxSendUdpPayloadSize, clearProbe, hsent, h.current]
    · simp only [scheduleNextPathMtuProbe, lowerProbeBound, loseTracked_maxSendUdpPayloadSize,
        takeFrames_pathMtu, clearProbe, PathMtuState.searchLimit, hmtu]
      omega

/-! ## The whole search -/

/-- The send size and the search limit enclose the smaller one of the limit of the path and the
limit at the start. -/
structure Encloses (pathLimit start limit : Nat) (s : RecoveryState γ) : Prop where
  idle : s.pathMtu.inFlightProbe = none
  start_le : start ≤ s.maxSendUdpPayloadSize
  le_target : s.maxSendUdpPayloadSize ≤ min pathLimit limit
  target_le : min pathLimit limit ≤ s.pathMtu.searchLimit
  limit_le : s.pathMtu.searchLimit ≤ limit

def gap (s : RecoveryState γ) : Nat := s.pathMtu.searchLimit - s.maxSendUdpPayloadSize

variable {start limit : Nat}

theorem Encloses.probe (h : Encloses pathLimit start limit s)
    (hsize : s.nextPathMtuProbeSize = some size) (round : ProbeRound) :
    Encloses pathLimit start limit (s.probe alg pathLimit round size) ∧
      (s.probe alg pathLimit round size).gap < s.gap := by
  obtain ⟨hlt, hle⟩ := nextPathMtuProbeSize_eq_some hsize
  have hnext := Searching.probe alg ⟨h.idle, rfl, rfl⟩ hle pathLimit round
  obtain ⟨-, hstart, hcurrent, htarget, hlimit⟩ := h
  unfold gap
  split at hnext
  · obtain ⟨hidle, hcurrent', hlimit'⟩ := hnext
    exact ⟨⟨hidle, by omega, by omega, by omega, by omega⟩, by omega⟩
  · obtain ⟨hidle, hcurrent', hlimit'⟩ := hnext
    exact ⟨⟨hidle, by omega, by omega, by omega, by omega⟩, by omega⟩

/-- After `n` rounds the target is enclosed, and the search has stopped or is `n` bytes closer. -/
theorem Encloses.search (h : Encloses pathLimit start limit s) (rounds : Nat → ProbeRound)
    (n : Nat) :
    Encloses pathLimit start limit (s.search alg pathLimit rounds n) ∧
      ((s.search alg pathLimit rounds n).nextPathMtuProbeSize = none ∨
        (s.search alg pathLimit rounds n).gap + n ≤ s.gap) := by
  induction n with
  | zero => exact ⟨h, .inr le_rfl⟩
  | succ n ih =>
    obtain ⟨hn, hprogress⟩ := ih
    rw [RecoveryState.search]
    cases hsize : (s.search alg pathLimit rounds n).nextPathMtuProbeSize with
    | none => exact ⟨hn, .inl hsize⟩
    | some size =>
      have hclose := hprogress.resolve_left (by rw [hsize]; exact Option.some_ne_none _)
      obtain ⟨hnext, hlt⟩ := hn.probe alg hsize (rounds n)
      dsimp only
      exact ⟨hnext, .inr (by omega)⟩

theorem search_of_stopped {rounds : Nat → ProbeRound} {n k : Nat} (hk : n ≤ k)
    (hstop : (s.search alg pathLimit rounds n).nextPathMtuProbeSize = none) :
    s.search alg pathLimit rounds k = s.search alg pathLimit rounds n := by
  induction k, hk using Nat.le_induction with
  | base => rfl
  | succ k hk ih =>
    rw [search, ih]
    simp only [hstop]

/-- All probes are larger than what is sent already and within the limit, and after finitely many
of them the search stops at the smaller one of the two limits, which it never exceeds. -/
structure Converges (pathLimit : Nat) (rounds : Nat → ProbeRound) (s : RecoveryState γ) : Prop where
  sizes : ∀ n size, (s.search alg pathLimit rounds n).nextPathMtuProbeSize = some size →
    (s.search alg pathLimit rounds n).maxSendUdpPayloadSize < size ∧
      size ≤ (s.search alg pathLimit rounds n).pathMtu.searchLimit
  stops : ∃ n, ∀ k, n ≤ k → (s.search alg pathLimit rounds k).nextPathMtuProbeSize = none ∧
    (s.search alg pathLimit rounds k).maxSendUdpPayloadSize = min pathLimit s.pathMtu.searchLimit
  within : ∀ n, (s.search alg pathLimit rounds n).maxSendUdpPayloadSize ≤
    min pathLimit s.pathMtu.searchLimit

/-- The search converges if and only if it starts within its limit, with a size that can be
doubled. -/
theorem path_mtu_search_converges_iff (rounds : Nat → ProbeRound)
    (hidle : s.pathMtu.inFlightProbe = none) (hfit : s.pathMtu.searchLimit ≤ u64Max)
    (hpath : s.maxSendUdpPayloadSize ≤ pathLimit) :
    Converges alg pathLimit rounds s ↔ s.maxSendUdpPayloadSize ≤ s.pathMtu.searchLimit ∧
      (0 < s.maxSendUdpPayloadSize ∨ min pathLimit s.pathMtu.searchLimit = 0) := by
  constructor
  · intro h
    have hstart : s.maxSendUdpPayloadSize ≤ min pathLimit s.pathMtu.searchLimit := h.within 0
    refine ⟨by omega, Nat.eq_zero_or_pos s.maxSendUdpPayloadSize |>.symm.imp_right fun hzero => ?_⟩
    -- nothing is probed, so that the search stops where it starts
    have hnone : (s.search alg pathLimit rounds 0).nextPathMtuProbeSize = none :=
      (nextPathMtuProbeSize_eq_none_iff hfit).mpr (.inr hzero)
    obtain ⟨n, hn⟩ := h.stops
    rw [← (hn n le_rfl).2, search_of_stopped alg (Nat.zero_le n) hnone]
    exact hzero
  · rintro ⟨hle, hpos⟩
    have h : Encloses pathLimit s.maxSendUdpPayloadSize s.pathMtu.searchLimit s :=
      ⟨hidle, le_rfl, by omega, by omega, le_rfl⟩
    have hrun := h.search alg rounds
    have hstop : (s.search alg pathLimit rounds s.gap).nextPathMtuProbeSize = none := by
      obtain ⟨hn, hstop | hgap⟩ := hrun s.gap
      · exact hstop
      · have hzero : (s.search alg pathLimit rounds s.gap).gap = 0 := by omega
        exact (nextPathMtuProbeSize_eq_none_iff (hn.limit_le.trans hfit)).mpr
          (.inl (Nat.sub_eq_zero_iff_le.mp hzero))
    refine ⟨fun n size hsize => nextPathMtuProbeSize_eq_some hsize, ⟨s.gap, fun k hk => ?_⟩,
      fun n => (hrun n).1.le_target⟩
    rw [search_of_stopped alg hk hstop]
    obtain ⟨-, hstart, hcurrent, htarget, hlimit⟩ := (hrun s.gap).1
    have hend := (nextPathMtuProbeSize_eq_none_iff (by omega)).mp hstop
    exact ⟨hstop, by omega⟩

def tenMillis (n : Nat) : ProbeRound := ⟨millis 10 * n, none, millis 10 * (n + 1)⟩

def smallPeer : RecoveryState NewReno :=
  ((RecoveryState.new NewReno.algorithm).applyPeerMaxUdpPayloadSize 1200 0).1

theorem smallPeer_search_converges : Converges NewReno.algorithm 1500 tenMillis smallPeer :=
  (path_mtu_search_converges_iff NewReno.algorithm tenMillis rfl (by decide) (by decide)).mpr
    (by decide)

/-- After the peer has migrated, the send size is above its limit. -/
theorem migrated_search_exceeds_limit : ¬Converges NewReno.algorithm 1500 tenMillis
    (smallPeer.resetPathRecoveryAfterValidation NewReno.algorithm 0).1 := by
  intro h
  exact absurd (h.within 0) (by decide)

end RecoveryState

end Starfish.Quic
