import Starfish.Lib.Run
import Starfish.Quic.Recovery.LossDetection

/-!
# Loss detection over whole runs

Tracked packets leave loss detection on four ways: acknowledged, declared lost, removed, and
taken out together with all others of their space. Over whole runs every packet that was sent
leaves at most once, whatever ranges the ACK frames name. Only a range whose start is above its
end has no answer: looking it up panics.
-/

namespace Starfish.Quic

/-! ## The machine -/

inductive LossEvent
  | sent (pkt : SentPacket)
  | ack (space : PacketNumberSpace) (largestAcked ackDelay : Nat) (ackRanges : List (Nat × Nat))
      (now : Nat)
  | remove (space : PacketNumberSpace) (pn : Nat)
  | take (space : PacketNumberSpace)
  | ptoTimeout
  | setMaxAckDelay (maxAckDelay : Nat)

inductive LossResponse
  | done
  /-- The newly acknowledged and the lost packets, and whether congestion is persistent. -/
  | acked (newlyAcked lost : List SentPacket) (persistentCongestion : Bool)
  | removed (pkt : Option SentPacket)
  | taken (pkts : List SentPacket)

abbrev LossTrace := List (LossEvent × LossResponse)

def LossEvent.space : LossEvent → Option PacketNumberSpace
  | .sent pkt => some pkt.space
  | .ack space _ _ _ _ => some space
  | .remove space _ => some space
  | .take space => some space
  | .ptoTimeout => none
  | .setMaxAckDelay _ => none

/-- No range of an ACK frame ends before it starts. -/
def LossEvent.Ordered : LossEvent → Prop
  | .ack _ _ _ ackRanges _ => ∀ range ∈ ackRanges, range.1 ≤ range.2
  | _ => True

instance : DecidablePred LossEvent.Ordered
  | .ack _ _ _ ackRanges _ => inferInstanceAs (Decidable (∀ range ∈ ackRanges, range.1 ≤ range.2))
  | .sent _ | .remove _ _ | .take _ | .ptoTimeout | .setMaxAckDelay _ =>
    inferInstanceAs (Decidable True)

def LossResponse.packets : LossResponse → List SentPacket
  | .done => []
  | .acked newlyAcked lost _ => newlyAcked ++ lost
  | .removed pkt => pkt.toList
  | .taken pkts => pkts

namespace LossDetection

variable (timeThreshold : Nat → Nat)

/-- An ACK frame, as the connection handles it; the send times are pruned if `prune` says so. -/
def processAck (prune : Bool) (ld : LossDetection) (space : PacketNumberSpace)
    (largestAcked ackDelay : Nat) (ackRanges : List (Nat × Nat)) (now : Nat) :
    Option (LossResponse × LossDetection) :=
  (ld.onAckReceived timeThreshold space largestAcked ackDelay ackRanges now).map fun result =>
    let ld := result.2
    (.acked result.1.1 result.1.2 (ld.detectsPersistentCongestion space result.1.1 result.1.2),
      if prune then ld.pruneAcknowledgedAckElicitingTimes space else ld)

/-- One event; `none` is a panic. -/
def step (prune : Bool) (ld : LossDetection) : LossEvent → Option (LossResponse × LossDetection)
  | .sent pkt => some (.done, ld.onPacketSent pkt)
  | .ack space largestAcked ackDelay ackRanges now =>
    ld.processAck timeThreshold prune space largestAcked ackDelay ackRanges now
  | .remove space pn =>
    some (.removed (ld.removeSentPacket space pn).1, (ld.removeSentPacket space pn).2)
  | .take space => some (.taken (ld.takeSentPackets space).1, (ld.takeSentPackets space).2)
  | .ptoTimeout => some (.done, ld.onPtoTimeout)
  | .setMaxAckDelay maxAckDelay => some (.done, ld.setMaxAckDelay maxAckDelay)

end LossDetection

/-! ## What the trace says -/

def LossEvent.tracks (space : PacketNumberSpace) : LossEvent → List SentPacket
  | .sent pkt => if pkt.ackEliciting && pkt.space == space then [pkt] else []
  | _ => []

variable (space : PacketNumberSpace)

theorem LossEvent.tracks_sent (pkt : SentPacket) :
    (LossEvent.sent pkt).tracks space =
      if pkt.ackEliciting && pkt.space == space then [pkt] else [] := rfl

def sentIn (space : PacketNumberSpace) (tr : LossTrace) : List SentPacket :=
  tr.flatMap fun x => x.1.tracks space

def returnedIn (space : PacketNumberSpace) (tr : LossTrace) : List SentPacket :=
  tr.flatMap fun x => if x.1.space = some space then x.2.packets else []

theorem sentIn_concat (tr : LossTrace) (x : LossEvent × LossResponse) :
    sentIn space (tr ++ [x]) = sentIn space tr ++ x.1.tracks space := by
  simp [sentIn]

theorem returnedIn_concat (tr : LossTrace) (x : LossEvent × LossResponse) :
    returnedIn space (tr ++ [x]) =
      returnedIn space tr ++ if x.1.space = some space then x.2.packets else [] := by
  simp [returnedIn]

/-! ## Steps -/

namespace LossDetection

variable {timeThreshold : Nat → Nat} {prune : Bool} {ld ld' : LossDetection} {e : LossEvent}
  {r : LossResponse}

def trackedIn (ld : LossDetection) (space : PacketNumberSpace) : List SentPacket :=
  (ld.spaces space).sentPackets.values

/-- Packets are tracked under their own number. -/
def Keyed (ld : LossDetection) : Prop :=
  ∀ space, ∀ x ∈ (ld.spaces space).sentPackets.entries, x.2.pn = x.1

variable {space : PacketNumberSpace} {now largestAcked ackDelay : Nat}
  {ackRanges : List (Nat × Nat)}

theorem processAck_eq_some
    (h : ld.processAck timeThreshold prune space largestAcked ackDelay ackRanges now = some (r, ld'))
    :
    ∃ acked lost ld₁,
      ld.onAckReceived timeThreshold space largestAcked ackDelay ackRanges now =
        some ((acked, lost), ld₁) ∧
      r = .acked acked lost (ld₁.detectsPersistentCongestion space acked lost) ∧
      ld' = if prune then ld₁.pruneAcknowledgedAckElicitingTimes space else ld₁ := by
  obtain ⟨⟨⟨acked, lost⟩, ld₁⟩, hack, heq⟩ := Option.map_eq_some_iff.mp h
  cases heq
  exact ⟨acked, lost, ld₁, hack, rfl, rfl⟩

theorem prune_of_ne (ld : LossDetection) {other : PacketNumberSpace} (h : other ≠ space) :
    (ld.pruneAcknowledgedAckElicitingTimes space).spaces other = ld.spaces other :=
  setSpace_of_ne ld _ h

variable (h : ld.step timeThreshold prune e = some (r, ld'))

include h in
theorem step_of_ne (hne : e.space ≠ some space) : ld'.spaces space = ld.spaces space := by
  cases e with
  | sent pkt =>
    cases h
    have hother : space ≠ pkt.space := fun heq => hne (heq ▸ rfl)
    grind [onPacketSent, setSpace_of_ne]
  | ack sp largestAcked ackDelay ackRanges now =>
    have hother : space ≠ sp := fun heq => hne (heq ▸ rfl)
    obtain ⟨acked, lost, ld₁, hack, -, rfl⟩ := processAck_eq_some h
    have hsame := (onAckReceived_perm hack).2 space hother
    grind [prune_of_ne]
  | remove | take =>
    cases h
    exact setSpace_of_ne ld _ fun heq => hne (heq ▸ rfl)
  | ptoTimeout | setMaxAckDelay =>
    cases h
    rfl

include h in
theorem trackedIn_of_ne (hne : e.space ≠ some space) :
    ld'.trackedIn space = ld.trackedIn space := by
  rw [trackedIn, trackedIn, step_of_ne h hne]

theorem tracks_of_ne (hne : e.space ≠ some space) :
    e.tracks space = [] := by
  cases e with
  | sent pkt =>
    have hother : (pkt.space == space) = false := by
      rw [beq_eq_false_iff_ne]
      exact fun heq => hne (heq ▸ rfl)
    rw [LossEvent.tracks_sent, hother, Bool.and_false]
    rfl
  | _ => rfl

include h in
theorem step_partition
    (hnew : ∀ pkt ∈ e.tracks space, (ld.spaces space).sentPackets.find? pkt.pn = none) :
    (ld.trackedIn space ++ e.tracks space).Perm
      ((if e.space = some space then r.packets else []) ++ ld'.trackedIn space) := by
  by_cases hspace : e.space = some space
  · rw [if_pos hspace]
    cases e with
    | sent pkt =>
      cases h
      have hsp : pkt.space = space := Option.some.inj hspace
      subst hsp
      unfold onPacketSent trackedIn
      rw [LossEvent.tracks_sent, beq_self_eq_true, Bool.and_true] at hnew ⊢
      cases hack : pkt.ackEliciting with
      | false => exact .of_eq (List.append_nil _)
      | true =>
        rw [hack] at hnew
        have hperm := OrdMap.entries_insert_perm pkt (hnew pkt (List.mem_singleton.mpr rfl))
        simp only [if_true, setSpace_self]
        exact (List.perm_append_singleton _ _).trans (hperm.map Prod.snd).symm
    | ack sp largestAcked ackDelay ackRanges now =>
      obtain ⟨acked, lost, ld₁, hack, rfl, rfl⟩ := processAck_eq_some h
      cases hspace
      have hperm := (onAckReceived_perm hack).1
      have htracked : (if prune then ld₁.pruneAcknowledgedAckElicitingTimes space
          else ld₁).trackedIn space = ld₁.trackedIn space := by
        grind [trackedIn, prune_sentPackets]
      rw [htracked]
      exact (List.Perm.of_eq (List.append_nil _)).trans hperm.symm
    | remove sp pn =>
      cases h
      cases hspace
      refine (List.Perm.of_eq (List.append_nil _)).trans ?_
      dsimp only [trackedIn, removeSentPacket, LossResponse.packets]
      rw [setSpace_self]
      cases hfind : (ld.spaces space).sentPackets.find? pn with
      | none => rw [OrdMap.erase_eq_self hfind]; exact List.Perm.refl _
      | some pkt => exact (OrdMap.entries_erase_perm hfind).map Prod.snd
    | take sp =>
      cases h
      cases hspace
      dsimp only [trackedIn, takeSentPackets, LossResponse.packets]
      rw [setSpace_self]
      exact List.Perm.refl _
    | ptoTimeout | setMaxAckDelay => cases hspace
  · rw [if_neg hspace, tracks_of_ne hspace, trackedIn_of_ne h hspace, List.append_nil]
    exact List.Perm.refl _

include h in
theorem step_entries {x : Nat × SentPacket} (hx : x ∈ (ld'.spaces space).sentPackets.entries) :
    x ∈ (ld.spaces space).sentPackets.entries ∨ ∃ pkt ∈ e.tracks space, x = (pkt.pn, pkt) := by
  by_cases hspace : e.space = some space
  · cases e with
    | sent pkt =>
      cases h
      cases hspace
      unfold onPacketSent at hx
      split at hx
      · next heliciting =>
        rw [setSpace_self] at hx
        rcases (OrdMap.mem_insert x).mp hx with rfl | ⟨hold, -⟩
        · refine .inr ⟨pkt, ?_, rfl⟩
          rw [LossEvent.tracks_sent, heliciting, beq_self_eq_true]
          exact List.mem_singleton.mpr rfl
        · exact .inl hold
      · exact .inl hx
    | ack sp largestAcked ackDelay ackRanges now =>
      obtain ⟨acked, lost, ld₁, hack, -, rfl⟩ := processAck_eq_some h
      cases hspace
      grind [prune_sentPackets, onAckReceived_subset]
    | remove sp pn =>
      cases h
      cases hspace
      grind [removeSentPacket, setSpace_self, OrdMap.mem_erase]
    | take sp =>
      cases h
      cases hspace
      dsimp only [takeSentPackets] at hx
      rw [setSpace_self] at hx
      cases hx
    | ptoTimeout | setMaxAckDelay => cases hspace
  · rw [step_of_ne h hspace] at hx
    exact .inl hx

variable {pkt : SentPacket}

include h in
theorem step_tracked (hpkt : pkt ∈ ld'.trackedIn space) :
    pkt ∈ ld.trackedIn space ∨ pkt ∈ e.tracks space := by
  obtain ⟨x, hx, rfl⟩ := List.mem_map.mp hpkt
  rcases step_entries h hx with hold | ⟨pkt, hsent, rfl⟩
  · exact .inl (List.mem_map_of_mem hold)
  · exact .inr hsent

theorem Keyed.step (hkeyed : ld.Keyed) (h : ld.step timeThreshold prune e = some (r, ld')) :
    ld'.Keyed := by
  intro space x hx
  rcases step_entries h hx with hold | ⟨pkt, -, rfl⟩
  · exact hkeyed space x hold
  · rfl

theorem find?_eq_none_of_keyed (hkeyed : ld.Keyed) {pn : Nat}
    (h : pn ∉ (ld.trackedIn space).map SentPacket.pn) :
    (ld.spaces space).sentPackets.find? pn = none := by
  rw [trackedIn, values_map_pn (hkeyed space), OrdMap.mem_keys_iff] at h
  exact Option.not_isSome_iff_eq_none.mp h

/-! ## ACK frames -/

theorem takeRanges_isSome {ranges : List (Nat × Nat)} (h : ∀ range ∈ ranges, range.1 ≤ range.2)
    (sent : OrdMap SentPacket) : ∃ result, takeRanges sent ranges = some result := by
  induction ranges generalizing sent with
  | nil => exact ⟨_, rfl⟩
  | cons range rest ih =>
    have hordered := h range List.mem_cons_self
    obtain ⟨result, hrest⟩ := ih (fun r hr => h r (List.mem_cons_of_mem _ hr))
      (sent.filter fun pn _ => !inRange range pn)
    rw [takeRanges, if_neg (Nat.not_lt.mpr hordered), hrest]
    exact ⟨_, rfl⟩

theorem step_isSome (h : e.Ordered) : ∃ r ld', ld.step timeThreshold prune e = some (r, ld') := by
  cases e with
  | ack space largestAcked ackDelay ackRanges now =>
    obtain ⟨result, htake⟩ := takeRanges_isSome h (ld.spaces space).sentPackets
    simp only [step, processAck, onAckReceived, htake]
    exact ⟨_, _, rfl⟩
  | _ => exact ⟨_, _, rfl⟩

theorem detectLostPackets_kept (timeThreshold : Nat → Nat) (ld : LossDetection)
    (space : PacketNumberSpace) (now : Nat) :
    ((ld.detectLostPackets timeThreshold space now).2.spaces space).largestAcked =
        (ld.spaces space).largestAcked ∧
      (ld.detectLostPackets timeThreshold space now).2.rtt = ld.rtt := by
  unfold detectLostPackets
  dsimp only
  split
  · exact ⟨rfl, rfl⟩
  · rw [setSpace_self]
    exact ⟨rfl, rfl⟩

def LostBy (ld : LossDetection) (timeThreshold : Nat → Nat) (space : PacketNumberSpace) (now : Nat)
    (pkt : SentPacket) : Prop :=
  ∃ largest, (ld.spaces space).largestAcked = some largest ∧ pkt.pn < largest ∧
    (packetThreshold ≤ largest - pkt.pn ∨ pkt.timeSent + ld.lossDelay timeThreshold ≤ now)

theorem detectLostPackets_lostBy
    (hkeyed : ∀ x ∈ (ld.spaces space).sentPackets.entries, x.2.pn = x.1)
    (h : pkt ∈ (ld.detectLostPackets timeThreshold space now).1) :
    ld.LostBy timeThreshold space now pkt := by
  unfold detectLostPackets at h
  dsimp only at h
  split at h
  · cases h
  · next largest hlargest =>
    obtain ⟨x, hx, rfl⟩ := List.mem_map.mp h
    obtain ⟨hmem, hlost⟩ := (OrdMap.mem_filter x).mp hx
    rw [Bool.and_eq_true, decide_eq_true_iff] at hlost
    refine ⟨largest, hlargest, ?_⟩
    rw [hkeyed x hmem]
    refine ⟨hlost.1, ?_⟩
    have hthreshold := hlost.2
    unfold isLost at hthreshold
    grind

theorem onAckReceived_lostBy {acked lost : List SentPacket}
    (h : ld.onAckReceived timeThreshold space largestAcked ackDelay ackRanges now = some ((acked, lost), ld'))
    (hkeyed : ld.Keyed) (hpkt : pkt ∈ lost) :
    ld'.LostBy timeThreshold space now pkt := by
  unfold onAckReceived at h
  split at h
  · cases h
  · next newlyAcked sentPackets htake =>
    cases h
    obtain ⟨largest, hlargest, hlost⟩ := detectLostPackets_lostBy (fun x hx => by
      simp only [recordAcked, setSpace_self] at hx
      exact hkeyed space x (takeRanges_subset htake hx)) hpkt
    have hkept := detectLostPackets_kept timeThreshold
      (ld.recordAcked space largestAcked ackDelay now acked sentPackets) space now
    refine ⟨largest, hkept.1.trans hlargest, hlost.1, ?_⟩
    grind [lossDelay]

theorem onAckReceived_acked_inRange {acked lost : List SentPacket}
    (h : ld.onAckReceived timeThreshold space largestAcked ackDelay ackRanges now = some ((acked, lost), ld'))
    (hkeyed : ld.Keyed) (hpkt : pkt ∈ acked) :
    ∃ range ∈ ackRanges, range.1 ≤ pkt.pn ∧ pkt.pn ≤ range.2 := by
  obtain ⟨x, hx, rfl, hin⟩ := (onAckReceived_inRanges h).1 pkt hpkt
  obtain ⟨range, hrange, hinside⟩ := List.any_eq_true.mp hin
  rw [inRange, Bool.and_eq_true, decide_eq_true_iff, decide_eq_true_iff] at hinside
  exact ⟨range, hrange, hkeyed space x hx ▸ hinside⟩

include h in
theorem step_largestAcked {n : Nat} (hn : (ld.spaces space).largestAcked = some n) :
    ∃ n', (ld'.spaces space).largestAcked = some n' ∧ n ≤ n' := by
  by_cases hspace : e.space = some space
  · cases e with
    | sent pkt =>
      cases h
      cases hspace
      refine ⟨n, ?_, Nat.le_refl n⟩
      grind [onPacketSent, setSpace_self]
    | ack sp largestAcked ackDelay ackRanges now =>
      obtain ⟨acked, lost, ld₁, hack, -, rfl⟩ := processAck_eq_some h
      cases hspace
      grind [onAckReceived_largestAcked, prune_largestAcked]
    | remove sp pn =>
      cases h
      cases hspace
      dsimp only [removeSentPacket]
      simp_all
    | take sp =>
      cases h
      cases hspace
      dsimp only [takeSentPackets]
      simp_all
    | ptoTimeout | setMaxAckDelay => cases hspace
  · rw [step_of_ne h hspace]
    exact ⟨n, hn, Nat.le_refl n⟩

end LossDetection

/-! ## Whole runs -/

/-- The packets of a run: every one that was sent has been returned once or is still tracked,
and the next step reports as acknowledged and lost what it may. -/
structure LossPartition (timeThreshold : Nat → Nat) (prune : Bool) (tr : LossTrace)
    (ld : LossDetection) : Prop where
  partition : ∀ space, (sentIn space tr).Perm (returnedIn space tr ++ ld.trackedIn space)
  once : ∀ space, ((returnedIn space tr ++ ld.trackedIn space).map SentPacket.pn).Nodup
  answers : ∀ e, e.Ordered → ∃ r ld', ld.step timeThreshold prune e = some (r, ld')
  acked : ∀ space largestAcked ackDelay ackRanges now acked lost persistent ld',
    ld.step timeThreshold prune (.ack space largestAcked ackDelay ackRanges now) =
      some (.acked acked lost persistent, ld') →
    (∀ pkt ∈ acked, ∃ range ∈ ackRanges, range.1 ≤ pkt.pn ∧ pkt.pn ≤ range.2) ∧
      ∀ pkt ∈ lost, ∃ largest, (ld'.spaces space).largestAcked = some largest ∧
        pkt.pn < largest ∧
        (3 ≤ largest - pkt.pn ∨ pkt.timeSent + ld'.lossDelay timeThreshold ≤ now)
  others : ∀ e r ld' space, ld.step timeThreshold prune e = some (r, ld') →
    e.space ≠ some space → ld'.spaces space = ld.spaces space
  largestAcked : ∀ e r ld' space n, ld.step timeThreshold prune e = some (r, ld') →
    (ld.spaces space).largestAcked = some n →
      ∃ n', (ld'.spaces space).largestAcked = some n' ∧ n ≤ n'

/-- In every run in which the packet numbers of a space are distinct and no range is inverted,
loss detection divides the packets that were sent into those it has returned, each once, and
those it still tracks. -/
theorem loss_detection_partitions (timeThreshold : Nat → Nat) (prune : Bool) {tr : LossTrace}
    {ld : LossDetection}
    (hrun : Run (LossDetection.step timeThreshold prune) (fun _ e => e.Ordered) .new tr ld)
    (hdistinct : ∀ space, ((sentIn space tr).map SentPacket.pn).Nodup) :
    LossPartition timeThreshold prune tr ld := by
  have hinv : ld.Keyed ∧ ((∀ space, ((sentIn space tr).map SentPacket.pn).Nodup) →
      ∀ space, (sentIn space tr).Perm (returnedIn space tr ++ ld.trackedIn space)) := by
    apply hrun.invariant (I := fun tr ld => ld.Keyed ∧
      ((∀ space, ((sentIn space tr).map SentPacket.pn).Nodup) →
        ∀ space, (sentIn space tr).Perm (returnedIn space tr ++ ld.trackedIn space)))
    · exact ⟨fun _ _ hx => (by cases hx), fun _ _ => List.Perm.refl _⟩
    · intro tr ld e r ld' ⟨hkeyed, hperm⟩ _ hstep
      refine ⟨hkeyed.step hstep, fun hdistinct space => ?_⟩
      have hall := hdistinct space
      rw [sentIn_concat, List.map_append] at hall
      have hold := hperm (fun sp => by
        have hsp := hdistinct sp
        rw [sentIn_concat, List.map_append] at hsp
        exact (List.nodup_append.mp hsp).1) space
      -- a number that was not sent before is not tracked
      have hnew : ∀ pkt ∈ e.tracks space, (ld.spaces space).sentPackets.find? pkt.pn = none := by
        intro pkt hpkt
        apply LossDetection.find?_eq_none_of_keyed hkeyed
        intro hmem
        have hsent : pkt.pn ∈ (sentIn space tr).map SentPacket.pn := by
          apply (hold.map SentPacket.pn).mem_iff.mpr
          rw [List.map_append]
          exact List.mem_append_right _ hmem
        exact (List.nodup_append.mp hall).2.2 _ hsent _ (List.mem_map_of_mem hpkt) rfl
      have hpart := LossDetection.step_partition hstep hnew
      rw [sentIn_concat, returnedIn_concat, List.append_assoc]
      refine (hold.append_right _).trans ?_
      rw [List.append_assoc]
      exact hpart.append_left _
  obtain ⟨hkeyed, hperm⟩ := hinv
  refine ⟨hperm hdistinct, fun space => ?_, fun e he => LossDetection.step_isSome he,
    fun space largestAcked ackDelay ackRanges now acked lost persistent ld' hstep => ?_,
    fun e r ld' space hstep hne => LossDetection.step_of_ne hstep hne,
    fun e r ld' space n hstep hn => LossDetection.step_largestAcked hstep hn⟩
  · exact ((hperm hdistinct space).map SentPacket.pn).nodup_iff.mp (hdistinct space)
  · obtain ⟨acked', lost', ld₁, hack, heq, rfl⟩ := LossDetection.processAck_eq_some hstep
    cases heq
    refine ⟨fun pkt hpkt => LossDetection.onAckReceived_acked_inRange hack hkeyed hpkt,
      fun pkt hpkt => ?_⟩
    obtain ⟨largest, hlargest, hlost⟩ := LossDetection.onAckReceived_lostBy hack hkeyed hpkt
    refine ⟨largest, ?_, hlost.1, ?_⟩
    · split
      · rw [LossDetection.prune_largestAcked]
        exact hlargest
      · exact hlargest
    · split
      · exact hlost.2
      · exact hlost.2

/-- A packet of the application data space that asks for an acknowledgement. -/
def exampleSent (pn timeSent : Nat) : SentPacket :=
  ⟨pn, .applicationData, timeSent, 1200, true, none⟩

/-- A frame that names a packet twice, and others that were never sent, acknowledges it once. -/
theorem overlapping_ranges_partition :
    ∃ tr ld, returnedIn .applicationData tr = [exampleSent 3 30, exampleSent 0 0] ∧
      ld.trackedIn .applicationData = [exampleSent 2 20] ∧
      LossPartition id true tr ld := by
  have hnil : Run (LossDetection.step id true) (fun _ e => e.Ordered) .new [] _ := .nil
  have hfirst := hnil.push (.sent (exampleSent 0 0)) rfl trivial
  have hsecond := hfirst.push (.sent (exampleSent 2 20)) rfl trivial
  have hthird := hsecond.push (.sent (exampleSent 3 30)) rfl trivial
  have hack := hthird.push (.ack .applicationData 3 0 [(3, 4), (3, 3), (7, 9)] 40) rfl (by decide)
  refine ⟨_, _, rfl, rfl, loss_detection_partitions id true hack fun space => ?_⟩
  cases space <;> decide

/-- A range that ends before it starts has no answer. -/
theorem inverted_range_panics :
    ∃ tr ld, Run (LossDetection.step id true) (fun _ _ => True) .new tr ld ∧
      ld.trackedIn .applicationData = [exampleSent 0 0] ∧
      ld.step id true (.ack .applicationData 5 0 [(5, 3)] 40) = none := by
  have hnil : Run (LossDetection.step id true) (fun _ _ => True) .new [] _ := .nil
  have hsent := hnil.push (.sent (exampleSent 0 0)) rfl trivial
  exact ⟨_, _, hsent, rfl, rfl⟩

end Starfish.Quic
