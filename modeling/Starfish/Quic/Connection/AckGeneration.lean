import Starfish.Lib.Runs
import Starfish.Quic.FrameCodec
import Starfish.Quic.Recovery.LossDetection

/-!
# Acknowledging what was received

Each packet number space remembers the numbers it has received as a list of ranges, from
which `generate_acks` builds its ACK frames. The list is kept short: of more than 32 ranges
only those with the largest numbers stay.
-/

namespace Starfish.Quic

open Runs (Covers Normal)

def maxTrackedRecvPnRanges : Nat := 32

def packetNumbersAreAdjacent (lower higher : Nat) : Bool := checkedAdd lower 1 == some higher

/-! ## Recording a packet number -/

def rangeHolds (pn : Nat) (range : Nat × Nat) : Bool := range.1 ≤ pn && pn ≤ range.2

def rangeBefore (ranges : List (Nat × Nat)) (idx : Nat) : Option (Nat × Nat) :=
  if 0 < idx then ranges[idx - 1]? else none

def mergeAbove (ranges : List (Nat × Nat)) (pn insertIdx : Nat) : Nat × Nat :=
  match rangeBefore ranges insertIdx with
  | some (start, stop) =>
    if packetNumbersAreAdjacent pn start then (stop, insertIdx - 1) else (pn, insertIdx)
  | none => (pn, insertIdx)

def mergeBelow (ranges : List (Nat × Nat)) (pn insertIdx mergedEnd : Nat) : Nat × Nat × Nat :=
  match ranges[insertIdx]? with
  | some (start, stop) =>
    if packetNumbersAreAdjacent stop pn then (start, max mergedEnd stop, insertIdx + 1)
    else (pn, mergedEnd, insertIdx)
  | none => (pn, mergedEnd, insertIdx)

/-- The ranges are in descending order; the new number extends a range, joins two or becomes a
range of its own. -/
def recordRecvPn (ranges : List (Nat × Nat)) (pn : Nat) : List (Nat × Nat) :=
  let insertIdx := ranges.findIdx fun range => range.2 < pn
  if (rangeBefore ranges insertIdx).any (rangeHolds pn) || ranges[insertIdx]?.any (rangeHolds pn) then
    ranges
  else
    let (mergedEnd, removeFrom) := mergeAbove ranges pn insertIdx
    let (mergedStart, mergedEnd, removeTo) := mergeBelow ranges pn insertIdx mergedEnd
    let ranges := ranges.take removeFrom ++ (mergedStart, mergedEnd) :: ranges.drop removeTo
    if maxTrackedRecvPnRanges < ranges.length then ranges.take maxTrackedRecvPnRanges else ranges

theorem packetNumbersAreAdjacent_iff {lower higher : Nat} (h : higher ≤ u64Max) :
    packetNumbersAreAdjacent lower higher = true ↔ lower + 1 = higher := by
  rw [packetNumbersAreAdjacent, beq_iff_eq]
  grind [checkedAdd_eq_some, checkedAdd_of_le]

theorem findIdx_splits {ranges : List (Nat × Nat)} (h : Normal ranges) (pn : Nat) :
    ∃ upper lower, ranges = upper ++ lower ∧
      ranges.findIdx (fun range => range.2 < pn) = upper.length ∧
      (∀ r ∈ upper, pn ≤ r.2) ∧ ∀ r ∈ lower, r.2 < pn := by
  induction ranges with
  | nil => exact ⟨[], [], rfl, rfl, fun _ hmem => (nomatch hmem), fun _ hmem => (nomatch hmem)⟩
  | cons first rest ih =>
    by_cases hfirst : first.2 < pn
    · refine ⟨[], first :: rest, rfl, ?_, fun _ hmem => (nomatch hmem), ?_⟩
      · simp [List.findIdx_cons, hfirst]
      · intro r hr
        obtain rfl | hr := List.mem_cons.mp hr
        · exact hfirst
        · have hgap := (List.pairwise_cons.mp h.apart).1 r hr
          have hle := h.start_le_stop first List.mem_cons_self
          omega
    · obtain ⟨upper, lower, rfl, hidx, hupper, hlower⟩ := ih (h.sublist (List.sublist_cons_self _ _))
      refine ⟨first :: upper, lower, rfl, ?_, ?_, hlower⟩
      · simp [List.findIdx_cons, hfirst, hidx]
      · exact List.forall_mem_cons.mpr ⟨by omega, hupper⟩

theorem rangeBefore_concat (init lower : List (Nat × Nat)) (last : Nat × Nat) :
    rangeBefore (init ++ [last] ++ lower) (init ++ [last]).length = some last := by
  simp [rangeBefore]

variable (lower : List (Nat × Nat))

variable {upper : List (Nat × Nat)} {state : AckSpaces × List (PacketNumberSpace × Frame)}
  {frame : Frame}

theorem mergeAbove_spec {pn : Nat} (h : Normal upper)
    (habove : ∀ r ∈ upper, pn < r.1) (hbound : ∀ r ∈ upper, r.1 ≤ u64Max)
    {mergedEnd removeFrom : Nat}
    (hmerge : mergeAbove (upper ++ lower) pn upper.length = (mergedEnd, removeFrom)) :
    removeFrom ≤ upper.length ∧ pn ≤ mergedEnd ∧ (∀ r ∈ upper.take removeFrom, mergedEnd + 1 < r.1) ∧
      ∀ n, Covers upper n ↔ Covers (upper.take removeFrom) n ∨ (pn < n ∧ n ≤ mergedEnd) := by
  unfold mergeAbove at hmerge
  obtain rfl | ⟨init, last, rfl⟩ := List.eq_nil_or_concat' upper
  · cases hmerge
    simp
  · rw [rangeBefore_concat] at hmerge
    dsimp only at hmerge
    have hlast : last ∈ init ++ [last] := by simp
    have hstart := habove last hlast
    split at hmerge
    · next hadj =>
      rw [packetNumbersAreAdjacent_iff (hbound last hlast)] at hadj
      cases hmerge
      have htake : (init ++ [last]).take ((init ++ [last]).length - 1) = init := by simp
      have hle := h.start_le_stop last hlast
      rw [htake]
      refine ⟨Nat.sub_le _ _, by omega, fun r hr => ?_, fun n => ?_⟩
      · exact (List.pairwise_append.mp h.apart).2.2 r hr last (by simp)
      · rw [Runs.covers_append, Runs.covers_cons, or_iff_left Runs.not_covers_nil]
        exact or_congr_right (by omega)
    · next hadj =>
      rw [packetNumbersAreAdjacent_iff (hbound last hlast)] at hadj
      cases hmerge
      rw [List.take_length]
      refine ⟨Nat.le_refl _, Nat.le_refl _, fun r hr => ?_, fun n => ?_⟩
      · rw [List.mem_append, List.mem_singleton] at hr
        obtain hr | rfl := hr
        · have hgap := (List.pairwise_append.mp h.apart).2.2 r hr last (by simp)
          have hle := h.start_le_stop last hlast
          omega
        · omega
      · exact (or_iff_left (by omega)).symm

theorem mergeBelow_spec (upper : List (Nat × Nat)) {lower : List (Nat × Nat)} {pn : Nat}
    (h : Normal lower) (hbelow : ∀ r ∈ lower, r.2 < pn) (hpn : pn ≤ u64Max)
    {mergedEnd mergedStart mergedEnd' removeTo : Nat} (hend : pn ≤ mergedEnd)
    (hmerge : mergeBelow (upper ++ lower) pn upper.length mergedEnd =
      (mergedStart, mergedEnd', removeTo)) :
    mergedEnd' = mergedEnd ∧ mergedStart ≤ pn ∧
      ∃ kept, (upper ++ lower).drop removeTo = kept ∧ kept.Sublist lower ∧
        (∀ r ∈ kept, r.2 + 1 < mergedStart) ∧
        ∀ n, Covers lower n ↔ Covers kept n ∨ (mergedStart ≤ n ∧ n < pn) := by
  unfold mergeBelow at hmerge
  cases lower with
  | nil =>
    rw [List.append_nil, List.getElem?_eq_none (Nat.le_refl _)] at hmerge
    cases hmerge
    refine ⟨rfl, Nat.le_refl _, [], by simp, List.Sublist.refl _, fun _ hmem => (nomatch hmem),
      fun n => ?_⟩
    exact (or_iff_left (by omega)).symm
  | cons first rest =>
    have hget : (upper ++ first :: rest)[upper.length]? = some first := by simp
    rw [hget] at hmerge
    dsimp only at hmerge
    have hgap := (List.pairwise_cons.mp h.apart).1
    have hle := h.start_le_stop first List.mem_cons_self
    split at hmerge
    · next hadj =>
      rw [packetNumbersAreAdjacent_iff hpn] at hadj
      cases hmerge
      refine ⟨by omega, by omega, rest, ?_, List.sublist_cons_self _ _, hgap, fun n => ?_⟩
      · rw [List.drop_length_add_append]
        rfl
      · rw [Runs.covers_cons, or_comm]
        exact or_congr_right (by omega)
    · next hadj =>
      rw [packetNumbersAreAdjacent_iff hpn] at hadj
      cases hmerge
      refine ⟨rfl, Nat.le_refl _, first :: rest, List.drop_left, List.Sublist.refl _, fun r hr => ?_,
        fun n => (or_iff_left (by omega)).symm⟩
      grind

theorem covers_of_rangeHolds {ranges : List (Nat × Nat)} {found : Option (Nat × Nat)} {pn : Nat}
    (hfound : ∀ r, found = some r → r ∈ ranges) (h : found.any (rangeHolds pn) = true) :
    Covers ranges pn := by
  cases found with
  | none => cases h
  | some r =>
    have hholds : r.1 ≤ pn ∧ pn ≤ r.2 := by simpa [rangeHolds] using h
    exact ⟨r, hfound r rfl, hholds⟩

theorem rangeBefore_mem {ranges : List (Nat × Nat)} {idx : Nat} {r : Nat × Nat}
    (h : rangeBefore ranges idx = some r) : r ∈ ranges := by
  grind [rangeBefore]

theorem rangeHolds_above {pn : Nat} (h : Normal upper) (hupper : ∀ r ∈ upper, pn ≤ r.2)
    (hfree : (rangeBefore (upper ++ lower) upper.length).any (rangeHolds pn) = false) :
    ∀ r ∈ upper, pn < r.1 := by
  obtain rfl | ⟨init, last, rfl⟩ := List.eq_nil_or_concat' upper
  · exact fun _ hmem => (nomatch hmem)
  · rw [rangeBefore_concat] at hfree
    have hlast : pn < last.1 := by
      have hstop := hupper last (by simp)
      simpa [rangeHolds, hstop] using hfree
    intro r hr
    rw [List.mem_append, List.mem_singleton] at hr
    obtain hr | rfl := hr
    · have hgap := (List.pairwise_append.mp h.apart).2.2 r hr last (by simp)
      have hle := h.start_le_stop last (by simp)
      omega
    · exact hlast

/-- The ranges after a packet number has been recorded: those of the set with the number, cut
off after 32. -/
theorem recordRecvPn_spec {ranges : List (Nat × Nat)} (h : Normal ranges)
    (hlen : ranges.length ≤ maxTrackedRecvPnRanges) (hbound : ∀ n, Covers ranges n → n ≤ u64Max)
    {pn : Nat} (hpn : pn ≤ u64Max) :
    ∃ full, Normal full ∧ (∀ n, Covers full n ↔ n = pn ∨ Covers ranges n) ∧
      recordRecvPn ranges pn = full.take maxTrackedRecvPnRanges := by
  obtain ⟨upper, lower, rfl, hidx, hupper, hlower⟩ := findIdx_splits h pn
  have hnormalUpper := h.sublist (List.sublist_append_left upper lower)
  have hnormalLower := h.sublist (List.sublist_append_right upper lower)
  unfold recordRecvPn
  rw [hidx]
  dsimp only
  split
  · next hholds =>
    have hcovers : Covers (upper ++ lower) pn := by
      rw [Bool.or_eq_true] at hholds
      obtain hholds | hholds := hholds
      · exact covers_of_rangeHolds (fun _ => rangeBefore_mem) hholds
      · exact covers_of_rangeHolds (fun _ => List.mem_of_getElem?) hholds
    refine ⟨upper ++ lower, h, fun n => ⟨.inr, ?_⟩, (List.take_of_length_le hlen).symm⟩
    rintro (rfl | hn)
    · exact hcovers
    · exact hn
  · next hfree =>
    rw [Bool.or_eq_true, not_or, Bool.not_eq_true, Bool.not_eq_true] at hfree
    have habove := rangeHolds_above lower hnormalUpper hupper hfree.1
    have hstart : ∀ r ∈ upper, r.1 ≤ u64Max := fun r hr =>
      hbound r.1 ⟨r, List.mem_append_left _ hr, Nat.le_refl _, hnormalUpper.start_le_stop r hr⟩
    cases hmergeAbove : mergeAbove (upper ++ lower) pn upper.length with
    | mk mergedEnd removeFrom =>
      obtain ⟨hremove, hend, hkeptUpper, hcoversUpper⟩ :=
        mergeAbove_spec lower hnormalUpper habove hstart hmergeAbove
      cases hmergeBelow : mergeBelow (upper ++ lower) pn upper.length mergedEnd with
      | mk mergedStart result =>
        obtain ⟨mergedEnd', removeTo⟩ := result
        obtain ⟨rfl, hmergedStart, kept, hdrop, hsub, hkeptLower, hcoversLower⟩ :=
          mergeBelow_spec upper hnormalLower hlower hpn hend hmergeBelow
        rw [hdrop, List.take_append_of_le_length hremove]
        refine ⟨upper.take removeFrom ++ (mergedStart, mergedEnd') :: kept,
          (hnormalUpper.take removeFrom).insert (hnormalLower.sublist hsub)
            (Nat.le_trans hmergedStart hend) hkeptUpper hkeptLower, fun n => ?_, ?_⟩
        · simp only [Runs.covers_append, Runs.covers_cons]
          grind
        · simp

/-! ## A sequence of packet numbers -/

structure Tracks (received : List Nat) (ranges : List (Nat × Nat)) : Prop where
  normal : Normal ranges
  length_le : ranges.length ≤ maxTrackedRecvPnRanges
  sound : ∀ n, Covers ranges n → n ∈ received
  reaches : ∀ n ∈ received, ∃ m, Covers ranges m ∧ n ≤ m

theorem tracks_nil : Tracks [] [] :=
  ⟨Runs.normal_nil, Nat.zero_le _, fun _ hn => (Runs.not_covers_nil hn).elim,
    fun _ hmem => (nomatch hmem)⟩

def maximalRuns (received : List Nat) : Nat := Runs.count received.toFinset

section

variable {received : List Nat} {ranges : List (Nat × Nat)} {pn : Nat}

theorem Tracks.record (h : Tracks received ranges) (hbound : ∀ n ∈ received ++ [pn], n ≤ u64Max) :
    Tracks (received ++ [pn]) (recordRecvPn ranges pn) := by
  obtain ⟨full, hnormal, hcovers, hrecord⟩ := recordRecvPn_spec h.normal h.length_le
    (fun n hn => hbound n (List.mem_append_left _ (h.sound n hn))) (hbound pn (by simp))
  have hreaches := fun n => hnormal.exists_ge_take (n := n) (show 0 < maxTrackedRecvPnRanges by decide)
  rw [hrecord]
  refine ⟨hnormal.take _, ?_, fun n hn => ?_, fun n hn => ?_⟩
  · rw [List.length_take]
    exact Nat.min_le_left _ _
  · grind [cases Tracks, Covers]
  · grind [cases Tracks]

theorem recordRecvPn_complete (h : Tracks received ranges)
    (hbound : ∀ n ∈ received ++ [pn], n ≤ u64Max) (hcomplete : ∀ n ∈ received, Covers ranges n)
    (hruns : maximalRuns (received ++ [pn]) ≤ maxTrackedRecvPnRanges) :
    ∀ n ∈ received ++ [pn], Covers (recordRecvPn ranges pn) n := by
  obtain ⟨full, hnormal, hcovers, hrecord⟩ := recordRecvPn_spec h.normal h.length_le
    (fun n hn => hbound n (List.mem_append_left _ (h.sound n hn))) (hbound pn (by simp))
  have hmem : ∀ n, n ∈ (received ++ [pn]).toFinset ↔ Covers full n := by
    intro n
    rw [List.mem_toFinset, List.mem_append, List.mem_singleton, hcovers, or_comm]
    exact or_congr_right ⟨hcomplete n, h.sound n⟩
  have hlen : full.length ≤ maxTrackedRecvPnRanges := by
    rw [hnormal.length_eq_count hmem]
    exact hruns
  grind [List.take_of_length_le]

end

theorem tracks_received (pns : List Nat) (hbound : ∀ pn ∈ pns, pn ≤ u64Max) :
    Tracks pns (pns.foldl recordRecvPn []) := by
  induction pns using List.reverseRecOn with
  | nil => exact tracks_nil
  | append_singleton pns pn ih =>
    rw [List.foldl_concat]
    exact (ih fun n hn => hbound n (List.mem_append_left _ hn)).record hbound

theorem received_complete (pns : List Nat) (hbound : ∀ pn ∈ pns, pn ≤ u64Max)
    (hruns : ∀ seen, seen <+: pns → maximalRuns seen ≤ maxTrackedRecvPnRanges) :
    ∀ pn ∈ pns, Covers (pns.foldl recordRecvPn []) pn := by
  induction pns using List.reverseRecOn with
  | nil => exact fun _ hmem => (nomatch hmem)
  | append_singleton pns pn ih =>
    grind [recordRecvPn_complete, tracks_received]

/-! ## Building ACK frames -/

/-- What a packet number space keeps for its acknowledgments. Times are in nanoseconds. -/
structure AckSpace where
  recvPnRanges : List (Nat × Nat) := []
  recvEcnCounts : EcnCounts := {}
  receivedPackets : Bool := false
  largestRecvPn : Nat := 0
  largestRecvPnTime : Option Nat := none
  ackNeeded : Bool := false
  ackImmediate : Bool := false
  ackElicitingPacketsSinceLastAck : Nat := 0
  lastAckElicitingRecv : Option Nat := none

def recordRecvEcn (counts : EcnCounts) : Option UdpEcnCodepoint → EcnCounts
  | none => counts
  | some .ect0 => { counts with ect0 := saturatingAdd counts.ect0 1 }
  | some .ect1 => { counts with ect1 := saturatingAdd counts.ect1 1 }
  | some .ce => { counts with ce := saturatingAdd counts.ce 1 }

def shouldAckImmediatelyForPacket (hadPreviousPackets : Bool) (previousLargest fullPn rangeCount : Nat) :
    Bool :=
  1 < rangeCount || (hadPreviousPackets && fullPn < previousLargest) ||
    (!hadPreviousPackets && 0 < fullPn) || (hadPreviousPackets && previousLargest + 1 < fullPn)

/-- What the connection has for building acknowledgments. -/
structure AckEnv where
  now : Nat
  localMaxAckDelay : Nat
  localAckDelayExponent : Nat
  hasKeys : PacketNumberSpace → Bool

namespace AckSpace

/-- The part of `process_packet` that records a packet for its acknowledgment. -/
def recordPacket (s : AckSpace) (now pn : Nat) (ecn : Option UdpEcnCodepoint) (ackEliciting : Bool) :
    AckSpace :=
  let largest := !s.receivedPackets || s.largestRecvPn < pn
  let recorded := { s with
    largestRecvPn := if largest then pn else s.largestRecvPn
    largestRecvPnTime := if largest then some now else s.largestRecvPnTime
    receivedPackets := true
    recvPnRanges := recordRecvPn s.recvPnRanges pn
    recvEcnCounts := recordRecvEcn s.recvEcnCounts ecn }
  if ackEliciting then
    { recorded with
      ackNeeded := true
      lastAckElicitingRecv := some now
      ackElicitingPacketsSinceLastAck := saturatingAdd s.ackElicitingPacketsSinceLastAck 1
      ackImmediate := shouldAckImmediatelyForPacket s.receivedPackets s.largestRecvPn pn
        recorded.recvPnRanges.length || s.ackImmediate }
  else recorded

def ackEcnCounts (s : AckSpace) : Option EcnCounts :=
  if s.recvEcnCounts ≠ {} then some s.recvEcnCounts else none

def shouldSend (s : AckSpace) (env : AckEnv) : PacketNumberSpace → Bool
  | .initial | .handshake => true
  | .applicationData =>
    s.ackImmediate || 2 ≤ s.ackElicitingPacketsSinceLastAck ||
      s.lastAckElicitingRecv.any fun t => env.localMaxAckDelay ≤ env.now - t

def ackDelay (s : AckSpace) (env : AckEnv) : Nat :=
  match s.largestRecvPnTime with
  | some t => ((env.now - t) / 1000 % 2 ^ 64) >>> env.localAckDelayExponent
  | none => 0

def generateAck (s : AckSpace) (env : AckEnv) (space : PacketNumberSpace) : Option AckFrame × AckSpace :=
  match s.recvPnRanges.map fun range => AckRange.mk range.1 range.2 with
  | [] => (none, s)
  | first :: rest =>
    if s.ackNeeded && env.hasKeys space && s.shouldSend env space then
      (some ⟨first.stop, s.ackDelay env, first :: rest, s.ackEcnCounts⟩,
        { s with ackNeeded := false, ackElicitingPacketsSinceLastAck := 0, ackImmediate := false })
    else (none, s)

end AckSpace

abbrev AckSpaces := PacketNumberSpace → AckSpace

/-- One turn of the loop over the spaces; the frame goes to the front of the pending ones. -/
def generateAcksStep (env : AckEnv) (state : AckSpaces × List (PacketNumberSpace × Frame))
    (space : PacketNumberSpace) : AckSpaces × List (PacketNumberSpace × Frame) :=
  match (state.1 space).generateAck env space with
  | (some ack, s) => (Function.update state.1 space s, (space, .ack ack) :: state.2)
  | (none, s) => (Function.update state.1 space s, state.2)

def generateAcks (env : AckEnv) (spaces : AckSpaces) (pendingFrames : List (PacketNumberSpace × Frame)) :
    AckSpaces × List (PacketNumberSpace × Frame) :=
  PacketNumberSpace.all.foldl (generateAcksStep env) (spaces, pendingFrames)

def toAckRanges (ranges : List (Nat × Nat)) : List AckRange :=
  ranges.map fun range => ⟨range.1, range.2⟩

theorem descending_toAckRanges {ranges : List (Nat × Nat)} {bound : Nat} (h : Normal ranges)
    (hbound : ∀ r ∈ ranges, r.2 + 2 ≤ bound) : Descending bound (toAckRanges ranges) := by
  induction ranges generalizing bound with
  | nil => trivial
  | cons first rest ih =>
    have hgap := (List.pairwise_cons.mp h.apart).1
    refine ⟨h.start_le_stop first List.mem_cons_self, hbound first List.mem_cons_self, ?_⟩
    exact ih (h.sublist (List.sublist_cons_self _ _)) hgap

theorem generateAck_eq_some {s t : AckSpace} {env : AckEnv} {space : PacketNumberSpace}
    {ack : AckFrame} (h : s.generateAck env space = (some ack, t)) :
    ack.ranges = toAckRanges s.recvPnRanges ∧
      ack.ranges.head?.map AckRange.stop = some ack.largestAcknowledged ∧
      ack.ackDelay = s.ackDelay env ∧ ack.ecn = s.ackEcnCounts := by
  unfold AckSpace.generateAck at h
  split at h
  · cases h
  · next first rest hranges =>
    split at h
    · cases h
      exact ⟨hranges.symm, rfl, rfl, rfl⟩
    · cases h

theorem generateAcksStep_mem {env : AckEnv} {turn space : PacketNumberSpace}
    (h : (space, frame) ∈ (generateAcksStep env state turn).2) :
    (space, frame) ∈ state.2 ∨ space = turn ∧
      ∃ ack t, frame = .ack ack ∧ (state.1 space).generateAck env space = (some ack, t) := by
  grind [generateAcksStep]

theorem generateAcksStep_of_ne {env : AckEnv} {turn space : PacketNumberSpace} (h : space ≠ turn) :
    (generateAcksStep env state turn).1 space = state.1 space := by
  unfold generateAcksStep
  split <;> exact Function.update_of_ne h _ _

theorem generateAcks_mem {env : AckEnv} {spaces : AckSpaces}
    {pendingFrames : List (PacketNumberSpace × Frame)} {space : PacketNumberSpace}
    (h : (space, frame) ∈ (generateAcks env spaces pendingFrames).2) :
    (space, frame) ∈ pendingFrames ∨
      ∃ ack t, frame = .ack ack ∧ (spaces space).generateAck env space = (some ack, t) := by
  obtain h | ⟨rfl, hgen⟩ := generateAcksStep_mem h
  · obtain h | ⟨rfl, hgen⟩ := generateAcksStep_mem h
    · obtain h | ⟨-, hgen⟩ := generateAcksStep_mem h
      · exact .inl h
      · exact .inr hgen
    · rw [generateAcksStep_of_ne (by decide)] at hgen
      exact .inr hgen
  · grind [generateAcksStep_of_ne]

section

variable {s t : AckSpace} {env : AckEnv} {space : PacketNumberSpace} {ack : AckFrame}
  (hnormal : Normal s.recvPnRanges) (h : s.generateAck env space = (some ack, t))

include hnormal h

theorem generateAck_wellFormed (hlargest : ack.largestAcknowledged ≤ maxVarint)
    (hdelay : ack.ackDelay ≤ maxVarint) (hecn : ∀ counts ∈ ack.ecn, counts.WellFormed) :
    (Frame.ack ack).WellFormed := by
  obtain ⟨hranges, hfirst, -, -⟩ := generateAck_eq_some h
  refine ⟨hlargest, hdelay, hfirst, ?_, hecn⟩
  rw [hranges] at hfirst ⊢
  apply descending_toAckRanges hnormal
  generalize s.recvPnRanges = ranges at hnormal hfirst
  cases ranges with
  | nil => cases hfirst
  | cons first rest =>
    have hstop : first.2 = ack.largestAcknowledged := Option.some.inj hfirst
    have hle := hnormal.start_le_stop first List.mem_cons_self
    intro r hr
    obtain rfl | hr := List.mem_cons.mp hr
    · omega
    · have hgap := (List.pairwise_cons.mp hnormal.apart).1 r hr
      omega

theorem generateAck_decodes {bytes : Bytes} (hencode : ack.encode = .ok bytes) :
    decodeFrame bytes = .ok (.ack ack, bytes.length) := by
  have hle := le_of_encodeVarints hencode
  have hwf : (Frame.ack ack).WellFormed := by
    apply generateAck_wellFormed hnormal h
    · exact hle _ (by simp [AckFrame.fields])
    · exact hle _ (by simp [AckFrame.fields])
    · intro counts hcounts
      have hmem : ∀ value ∈ [counts.ect0, counts.ect1, counts.ce], value ≤ maxVarint := by
        intro value hvalue
        apply hle
        rw [AckFrame.fields, Option.mem_def.mp hcounts]
        exact List.mem_append_right _ hvalue
      exact ⟨hmem _ (by simp), hmem _ (by simp), hmem _ (by simp)⟩
  obtain ⟨bytes', hbytes, -, hdecode⟩ := hwf.decodeFrame_encode
  obtain rfl : bytes' = bytes := Except.ok.inj (hbytes.symm.trans hencode)
  rw [← hdecode [], List.append_nil]

end

end Starfish.Quic
