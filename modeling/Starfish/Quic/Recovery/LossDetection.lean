import Starfish.Lib.OrdMap
import Starfish.Quic.Frame

/-!
# Loss detection

Packets that ask for an acknowledgement are tracked by space and number until they
are acknowledged or declared lost (RFC 9002, section 6). Times and durations are
nanoseconds. The product of a duration with 9/8 is taken in floating point and
stays a parameter.
-/

namespace Starfish.Quic

inductive UdpEcnCodepoint
  | ect0
  | ect1
  | ce
deriving DecidableEq, Repr

structure SentPacket where
  pn : Nat
  space : PacketNumberSpace
  timeSent : Nat
  size : Nat
  ackEliciting : Bool
  ecnMarking : Option UdpEcnCodepoint
deriving DecidableEq, Repr

/-! ## Round-trip times -/

structure RttEstimator where
  smoothedRtt : Nat
  rttvar : Nat
  minRtt : Nat
  latestRtt : Nat
  firstSample : Bool
deriving DecidableEq, Repr

def millis (n : Nat) : Nat := n * 1000000

def durationMax : Nat := u64Max * 1000000000 + 999999999

/-- The estimate before the first sample. -/
def initialRtt : Nat := millis 333

namespace RttEstimator

def new : RttEstimator := ⟨initialRtt, initialRtt / 2, durationMax, 0, true⟩

def update (rtt : RttEstimator) (rttSample ackDelay : Nat) : RttEstimator :=
  let minRtt := min rtt.minRtt rttSample
  if rtt.firstSample then ⟨rttSample, rttSample / 2, minRtt, rttSample, false⟩
  else
    let adjustedRtt := if minRtt + ackDelay < rttSample then rttSample - ackDelay else rttSample
    let diff := max rtt.smoothedRtt adjustedRtt - min rtt.smoothedRtt adjustedRtt
    ⟨(rtt.smoothedRtt * 7 + adjustedRtt) / 8, (rtt.rttvar * 3 + diff) / 4, minRtt, rttSample,
      false⟩

/-- Probe timeout. -/
def pto (rtt : RttEstimator) : Nat := rtt.smoothedRtt + max rtt.rttvar (millis 1) * 4

end RttEstimator

/-! ## State -/

structure SpaceState where
  largestAcked : Option Nat := none
  lossTime : Option Nat := none
  sentPackets : OrdMap SentPacket := OrdMap.empty
  ackedAckElicitingTimes : OrdMap Unit := OrdMap.empty
  timeOfLastAckEliciting : Option Nat := none

structure LossDetection where
  spaces : PacketNumberSpace → SpaceState
  rtt : RttEstimator
  ptoCount : Nat
  maxAckDelay : Nat

/-- Packets are lost if this many later ones have been acknowledged. -/
def packetThreshold : Nat := 3

def persistentCongestionThreshold : Nat := 3

namespace LossDetection

def new : LossDetection := ⟨fun _ => {}, RttEstimator.new, 0, millis 25⟩

def setMaxAckDelay (ld : LossDetection) (maxAckDelay : Nat) : LossDetection :=
  { ld with maxAckDelay := maxAckDelay }

def setSpace (ld : LossDetection) (space : PacketNumberSpace) (s : SpaceState) : LossDetection :=
  { ld with spaces := fun other => if other = space then s else ld.spaces other }

@[simp] theorem setSpace_self (ld : LossDetection) (space : PacketNumberSpace) (s : SpaceState) :
    (ld.setSpace space s).spaces space = s := by
  simp [setSpace]

variable {space : PacketNumberSpace}

theorem setSpace_of_ne (ld : LossDetection) {other : PacketNumberSpace} (s : SpaceState)
    (h : other ≠ space) : (ld.setSpace space s).spaces other = ld.spaces other := by
  simp [setSpace, h]

def onPacketSent (ld : LossDetection) (pkt : SentPacket) : LossDetection :=
  if pkt.ackEliciting then
    let s := ld.spaces pkt.space
    ld.setSpace pkt.space { s with
      timeOfLastAckEliciting := some pkt.timeSent
      sentPackets := s.sentPackets.insert pkt.pn pkt }
  else ld

def inRange (range : Nat × Nat) (pn : Nat) : Bool := decide (range.1 ≤ pn) && decide (pn ≤ range.2)

/-- Take the packets of the acknowledged ranges out, range by range. An inverted range
has no result: looking it up in the map panics. -/
def takeRanges : OrdMap SentPacket → List (Nat × Nat) →
    Option (List SentPacket × OrdMap SentPacket)
  | sent, [] => some ([], sent)
  | sent, range :: rest =>
    if range.2 < range.1 then none
    else
      let acked := (sent.filter fun pn _ => inRange range pn).values
      (takeRanges (sent.filter fun pn _ => !inRange range pn) rest).map fun later =>
        (acked ++ later.1, later.2)

def isLost (largestAcked now lossDelay : Nat) (pkt : SentPacket) (pn : Nat) : Bool :=
  decide (packetThreshold ≤ largestAcked - pn) ||
    (decide (lossDelay ≤ now) && decide (pkt.timeSent ≤ now - lossDelay))

def earlier (lossTime : Option Nat) (time : Nat) : Option Nat :=
  match lossTime with
  | some existing => if existing ≤ time then some existing else some time
  | none => some time

section Ack

variable (timeThreshold : Nat → Nat)

/-- The time after which a packet that a later one has overtaken is lost. -/
def lossDelay (ld : LossDetection) : Nat :=
  max (timeThreshold (max ld.rtt.latestRtt ld.rtt.smoothedRtt)) (millis 1)

def detectLostPackets (ld : LossDetection) (space : PacketNumberSpace) (now : Nat) :
    List SentPacket × LossDetection :=
  let s := ld.spaces space
  match s.largestAcked with
  | none => ([], ld)
  | some largestAcked =>
    let delay := ld.lossDelay timeThreshold
    let lost := fun pn pkt => decide (pn < largestAcked) && isLost largestAcked now delay pkt pn
    let waiting := s.sentPackets.filter fun pn pkt => decide (pn < largestAcked) && !lost pn pkt
    ((s.sentPackets.filter lost).values,
      ld.setSpace space { s with
        lossTime := waiting.values.foldl (fun t pkt => earlier t (pkt.timeSent + delay)) none
        sentPackets := s.sentPackets.filter fun pn pkt => !lost pn pkt })

def raiseLargest (largestAcked : Option Nat) (acked : Nat) : Option Nat × Bool :=
  match largestAcked with
  | some previous => if previous < acked then (some acked, true) else (some previous, false)
  | none => (some acked, true)

/-- The state after the acknowledged packets have been taken out: their send times are
remembered, and the largest one may be a round-trip sample. -/
def recordAcked (ld : LossDetection) (space : PacketNumberSpace) (largestAcked ackDelay now : Nat)
    (newlyAcked : List SentPacket) (sentPackets : OrdMap SentPacket) : LossDetection :=
  let s := ld.spaces space
  let raised := raiseLargest s.largestAcked largestAcked
  let times := newlyAcked.foldl
    (fun times pkt => if pkt.ackEliciting then times.insert pkt.timeSent () else times)
    s.ackedAckElicitingTimes
  let rtt :=
    match newlyAcked.find? (fun pkt => pkt.pn == largestAcked) with
    | some pkt => if raised.2 then ld.rtt.update (now - pkt.timeSent) ackDelay else ld.rtt
    | none => ld.rtt
  { ld.setSpace space { s with
      largestAcked := raised.1
      sentPackets := sentPackets
      ackedAckElicitingTimes := times } with
    rtt := rtt
    ptoCount := 0 }

/-- Process an ACK frame: the newly acknowledged packets, the lost packets and the
new state, or nothing where the code panics. -/
def onAckReceived (ld : LossDetection) (space : PacketNumberSpace) (largestAcked ackDelay : Nat)
    (ackRanges : List (Nat × Nat)) (now : Nat) :
    Option ((List SentPacket × List SentPacket) × LossDetection) :=
  match takeRanges (ld.spaces space).sentPackets ackRanges with
  | none => none
  | some (newlyAcked, sentPackets) =>
    let ld := ld.recordAcked space largestAcked ackDelay now newlyAcked sentPackets
    let detected := ld.detectLostPackets timeThreshold space now
    some ((newlyAcked, detected.1), detected.2)

end Ack

def persistentCongestionDuration (ld : LossDetection) (space : PacketNumberSpace) : Nat :=
  let pto := if space = .applicationData then ld.rtt.pto + ld.maxAckDelay else ld.rtt.pto
  pto * persistentCongestionThreshold

/-- Whether the lost packets span a period of persistent congestion, in which no packet
was acknowledged and none is outstanding. -/
def detectsPersistentCongestion (ld : LossDetection) (space : PacketNumberSpace)
    (acked lost : List SentPacket) : Bool :=
  match (lost.filter SentPacket.ackEliciting).map SentPacket.timeSent with
  | [] => false
  | first :: rest =>
    let start := rest.foldl min first
    let stop := rest.foldl max first
    let inside := fun time => decide (start ≤ time) && decide (time ≤ stop)
    let s := ld.spaces space
    !decide (stop - start < ld.persistentCongestionDuration space) &&
      !(acked.any fun pkt => pkt.ackEliciting && inside pkt.timeSent) &&
      !(s.ackedAckElicitingTimes.keys.any inside) &&
      !(s.sentPackets.values.any fun pkt => pkt.ackEliciting && inside pkt.timeSent)

/-- Forget the send times that no later period of persistent congestion can contain. -/
def pruneAcknowledgedAckElicitingTimes (ld : LossDetection) (space : PacketNumberSpace) :
    LossDetection :=
  let s := ld.spaces space
  let times :=
    match (s.sentPackets.values.filter SentPacket.ackEliciting).map SentPacket.timeSent with
    | [] => OrdMap.empty
    | first :: rest =>
      let oldest := rest.foldl min first
      s.ackedAckElicitingTimes.filter fun time _ => decide (oldest ≤ time)
  ld.setSpace space { s with ackedAckElicitingTimes := times }

def onPtoTimeout (ld : LossDetection) : LossDetection := { ld with ptoCount := ld.ptoCount + 1 }

def hasUnacked (ld : LossDetection) (space : PacketNumberSpace) : Bool :=
  !(ld.spaces space).sentPackets.isEmpty

def removeSentPacket (ld : LossDetection) (space : PacketNumberSpace) (pn : Nat) :
    Option SentPacket × LossDetection :=
  let s := ld.spaces space
  (s.sentPackets.find? pn, ld.setSpace space { s with sentPackets := s.sentPackets.erase pn })

def takeSentPackets (ld : LossDetection) (space : PacketNumberSpace) :
    List SentPacket × LossDetection :=
  let s := ld.spaces space
  (s.sentPackets.values, ld.setSpace space { s with sentPackets := OrdMap.empty })

/-! ## What an ACK frame takes out -/

theorem values_filter_perm (m : OrdMap SentPacket) (p : Nat → SentPacket → Bool) :
    ((m.filter p).values ++ (m.filter fun pn pkt => !p pn pkt).values).Perm m.values := by
  have hperm := (List.filter_append_perm (fun e => p e.1 e.2) m.entries).map Prod.snd
  rwa [List.map_append] at hperm

variable {acked : List SentPacket} {sent sent' : OrdMap SentPacket} {ranges : List (Nat × Nat)}

theorem takeRanges_perm (h : takeRanges sent ranges = some (acked, sent')) :
    (acked ++ sent'.values).Perm sent.values := by
  induction ranges generalizing sent acked with
  | nil =>
    cases h
    exact List.Perm.refl _
  | cons range rest ih =>
    simp only [takeRanges] at h
    split at h
    · cases h
    · obtain ⟨⟨later, left⟩, hlater, hsplit⟩ := Option.map_eq_some_iff.mp h
      grind [values_filter_perm]

theorem detectLostPackets_perm (timeThreshold : Nat → Nat) (ld : LossDetection)
    (space : PacketNumberSpace) (now : Nat) :
    let res := ld.detectLostPackets timeThreshold space now
    (res.1 ++ (res.2.spaces space).sentPackets.values).Perm (ld.spaces space).sentPackets.values ∧
      ∀ other, other ≠ space → res.2.spaces other = ld.spaces other := by
  unfold detectLostPackets
  dsimp only
  split
  · exact ⟨List.Perm.refl _, fun _ _ => rfl⟩
  · refine ⟨?_, fun other hne => setSpace_of_ne ld _ hne⟩
    rw [setSpace_self]
    exact values_filter_perm _ _

variable {ld ld' : LossDetection} {largestAcked ackDelay now : Nat} {ackRanges : List (Nat × Nat)}
  {lost : List SentPacket} {timeThreshold : Nat → Nat}
  (h : ld.onAckReceived timeThreshold space largestAcked ackDelay ackRanges now =
    some ((acked, lost), ld'))

include h in
theorem onAckReceived_eq_some :
    ∃ sent, takeRanges (ld.spaces space).sentPackets ackRanges = some (acked, sent) ∧
      (ld.recordAcked space largestAcked ackDelay now acked sent).detectLostPackets timeThreshold
        space now = (lost, ld') := by
  unfold onAckReceived at h
  split at h
  · cases h
  · next htake =>
    cases h
    exact ⟨_, htake, rfl⟩

include h in
/-- An ACK frame divides the tracked packets of its space into the newly acknowledged
ones, the lost ones and those still tracked; other spaces are not touched. -/
theorem onAckReceived_perm :
    (acked ++ lost ++ (ld'.spaces space).sentPackets.values).Perm
        (ld.spaces space).sentPackets.values ∧
      ∀ other, other ≠ space → ld'.spaces other = ld.spaces other := by
  obtain ⟨sentPackets, htake, hdetected⟩ := onAckReceived_eq_some h
  have hdetect := detectLostPackets_perm timeThreshold
    (ld.recordAcked space largestAcked ackDelay now acked sentPackets) space now
  dsimp only at hdetect
  rw [hdetected] at hdetect
  refine ⟨?_, fun other hne => ?_⟩
  · have hleft := hdetect.1
    simp only [recordAcked, setSpace_self] at hleft
    rw [List.append_assoc]
    exact (hleft.append_left _).trans (takeRanges_perm htake)
  · rw [hdetect.2 other hne]
    exact setSpace_of_ne ld _ hne

variable {e : Nat × SentPacket}

theorem takeRanges_subset (h : takeRanges sent ranges = some (acked, sent'))
    (he : e ∈ sent'.entries) : e ∈ sent.entries := by
  induction ranges generalizing sent acked with
  | nil =>
    cases h
    exact he
  | cons range rest ih =>
    simp only [takeRanges] at h
    split at h
    · cases h
    · obtain ⟨⟨later, left⟩, hlater, hsplit⟩ := Option.map_eq_some_iff.mp h
      grind [OrdMap.mem_filter]

/-- Whether an ACK frame with these ranges names a packet number. -/
def inRanges (ranges : List (Nat × Nat)) (pn : Nat) : Bool := ranges.any fun r => inRange r pn

theorem takeRanges_inRanges (h : takeRanges sent ranges = some (acked, sent')) :
    (∀ pkt ∈ acked, ∃ e ∈ sent.entries, e.2 = pkt ∧ inRanges ranges e.1 = true) ∧
      ∀ e ∈ sent'.entries, inRanges ranges e.1 = false := by
  induction ranges generalizing sent acked with
  | nil =>
    cases h
    exact ⟨fun _ hmem => (nomatch hmem), fun _ _ => rfl⟩
  | cons range rest ih =>
    simp only [takeRanges] at h
    split at h
    · cases h
    · obtain ⟨⟨later, left⟩, hlater, hsplit⟩ := Option.map_eq_some_iff.mp h
      obtain ⟨rfl, rfl⟩ := Prod.mk.inj hsplit
      obtain ⟨hin, hout⟩ := ih hlater
      constructor
      · intro pkt hpkt
        rcases List.mem_append.mp hpkt with hnow | hlater
        · obtain ⟨e, he, hpkt⟩ := List.mem_map.mp hnow
          grind [OrdMap.mem_filter, inRanges]
        · obtain ⟨e, he, hpkt, hrange⟩ := hin pkt hlater
          refine ⟨e, ((OrdMap.mem_filter e).mp he).1, hpkt, ?_⟩
          unfold inRanges at hrange ⊢
          rw [List.any_cons, hrange, Bool.or_true]
      · intro e he
        have hkept := ((OrdMap.mem_filter e).mp (takeRanges_subset hlater he)).2
        have hrest := hout e he
        unfold inRanges at hrest ⊢
        grind

theorem detectLostPackets_subset (timeThreshold : Nat → Nat) (ld : LossDetection)
    (space : PacketNumberSpace) (now : Nat)
    (he : e ∈ (((ld.detectLostPackets timeThreshold space now).2).spaces space).sentPackets.entries) :
    e ∈ (ld.spaces space).sentPackets.entries := by
  grind [detectLostPackets, setSpace_self, OrdMap.mem_filter]

include h in
theorem onAckReceived_subset (he : e ∈ (ld'.spaces space).sentPackets.entries) :
    e ∈ (ld.spaces space).sentPackets.entries := by
  obtain ⟨sentPackets, htake, hdetected⟩ := onAckReceived_eq_some h
  have hmem := detectLostPackets_subset timeThreshold _ space now (by rw [hdetected]; exact he)
  simp only [recordAcked, setSpace_self] at hmem
  exact takeRanges_subset htake hmem

include h in
theorem onAckReceived_inRanges :
    (∀ pkt ∈ acked, ∃ e ∈ (ld.spaces space).sentPackets.entries,
        e.2 = pkt ∧ inRanges ackRanges e.1 = true) ∧
      ∀ pkt ∈ lost, ∃ e ∈ (ld.spaces space).sentPackets.entries,
        e.2 = pkt ∧ inRanges ackRanges e.1 = false := by
  obtain ⟨sentPackets, htake, hdetected⟩ := onAckReceived_eq_some h
  obtain ⟨hin, hout⟩ := takeRanges_inRanges htake
  have hdetect := (detectLostPackets_perm timeThreshold
    (ld.recordAcked space largestAcked ackDelay now acked sentPackets) space now).1
  refine ⟨hin, fun pkt hpkt => ?_⟩
  rw [hdetected] at hdetect
  have hmem := hdetect.subset (List.mem_append_left _ hpkt)
  simp only [recordAcked, setSpace_self] at hmem
  obtain ⟨e, he, heq⟩ := List.mem_map.mp hmem
  exact ⟨e, takeRanges_subset htake he, heq, hout e he⟩

theorem values_map_pn {m : OrdMap SentPacket} (h : ∀ e ∈ m.entries, e.2.pn = e.1) :
    m.values.map SentPacket.pn = m.keys := by
  unfold OrdMap.values OrdMap.keys
  rw [List.map_map]
  exact List.map_congr_left h

include h in
/-- The largest acknowledged number after an ACK frame is at least that of the frame, and at
least what it was. -/
theorem onAckReceived_largestAcked :
    ∃ largest, (ld'.spaces space).largestAcked = some largest ∧ largestAcked ≤ largest ∧
      ∀ previous, (ld.spaces space).largestAcked = some previous → previous ≤ largest := by
  have hkept : (ld'.spaces space).largestAcked =
      (raiseLargest (ld.spaces space).largestAcked largestAcked).1 := by
    unfold onAckReceived at h
    grind [detectLostPackets, recordAcked, setSpace]
  rw [hkept]
  generalize (ld.spaces space).largestAcked = before
  cases before with
  | none => exact ⟨_, rfl, Nat.le_refl _, nofun⟩
  | some before =>
    unfold raiseLargest
    split
    all_goals grind

include h in
/-- If packets are stored under their own number, those still tracked are the ones that
are neither acknowledged nor lost. -/
theorem onAckReceived_find?
    (hkeyed : ∀ e ∈ (ld.spaces space).sentPackets.entries, e.2.pn = e.1) (pn : Nat) :
    ((ld'.spaces space).sentPackets.find? pn).isSome =
      (((ld.spaces space).sentPackets.find? pn).isSome &&
        !(acked ++ lost).any fun pkt => decide (pkt.pn = pn)) := by
  have hperm := (onAckReceived_perm h).1.map SentPacket.pn
  rw [List.map_append, values_map_pn hkeyed,
    values_map_pn fun e he => hkeyed e (onAckReceived_subset h he)] at hperm
  have hdisjoint := (List.nodup_append.mp (hperm.nodup_iff.mpr (OrdMap.keys_nodup _))).2.2
  have hmem := hperm.mem_iff (a := pn)
  rw [List.mem_append, OrdMap.mem_keys_iff, OrdMap.mem_keys_iff] at hmem
  have hany : ((acked ++ lost).any fun pkt => decide (pkt.pn = pn)) = true ↔
      pn ∈ (acked ++ lost).map SentPacket.pn := by
    simp
  rw [Bool.eq_iff_iff, Bool.and_eq_true, Bool.not_eq_true', ← Bool.not_eq_true, hany, ← hmem]
  constructor
  · intro hfind
    exact ⟨Or.inr hfind, fun htaken => hdisjoint pn htaken pn (OrdMap.mem_keys_iff.mpr hfind) rfl⟩
  · intro hcases
    exact hcases.1.resolve_left hcases.2

theorem prune_sentPackets (ld : LossDetection) (space other : PacketNumberSpace) :
    ((ld.pruneAcknowledgedAckElicitingTimes space).spaces other).sentPackets =
      (ld.spaces other).sentPackets := by
  unfold pruneAcknowledgedAckElicitingTimes
  by_cases h : other = space
  · subst h
    rw [setSpace_self]
  · rw [setSpace_of_ne ld _ h]

theorem prune_largestAcked (ld : LossDetection) (space other : PacketNumberSpace) :
    ((ld.pruneAcknowledgedAckElicitingTimes space).spaces other).largestAcked =
      (ld.spaces other).largestAcked := by
  unfold pruneAcknowledgedAckElicitingTimes
  by_cases h : other = space
  · subst h
    rw [setSpace_self]
  · rw [setSpace_of_ne ld _ h]

end LossDetection

end Starfish.Quic
