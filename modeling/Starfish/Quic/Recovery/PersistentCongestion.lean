import Mathlib.Logic.Function.Basic
import Starfish.Quic.Recovery.LossRuns

/-!
# Pruned send times

Congestion is persistent if the lost packets span a long period in which no packet was
acknowledged. Loss detection keeps the send times of acknowledged packets for this and forgets
after every ACK frame those from before the oldest packet it still tracks. The machine that
forgets and the one that never does run in lockstep: they differ in their send times only, and
a time that was forgotten is earlier than everything that can still be lost.
-/

namespace Starfish.Quic

namespace LossDetection

variable {timeThreshold : Nat → Nat} {ld ld' : LossDetection}

/-! ## States that differ in their send times -/

abbrev SendTimes := PacketNumberSpace → OrdMap Unit

def withTimes (ld : LossDetection) (times : SendTimes) : LossDetection :=
  { ld with spaces := fun space =>
      { ld.spaces space with ackedAckElicitingTimes := times space } }

def times (ld : LossDetection) : SendTimes := fun space =>
  (ld.spaces space).ackedAckElicitingTimes

def addTimes (times : OrdMap Unit) (acked : List SentPacket) : OrdMap Unit :=
  acked.foldl (fun times pkt => if pkt.ackEliciting then times.insert pkt.timeSent () else times)
    times

def prunedTimes (sent : OrdMap SentPacket) (times : OrdMap Unit) : OrdMap Unit :=
  match (sent.values.filter SentPacket.ackEliciting).map SentPacket.timeSent with
  | [] => OrdMap.empty
  | first :: rest => times.filter fun time _ => decide (rest.foldl min first ≤ time)

variable {s : SpaceState}

variable {s' : SpaceState} {space : PacketNumberSpace} {acked lost : List SentPacket}
  {sent : OrdMap SentPacket}

theorem setSpace_withTimes (ld : LossDetection) (times : SendTimes) (space : PacketNumberSpace)
    {new : OrdMap Unit} (hs : s' = { s with ackedAckElicitingTimes := new }) :
    (ld.withTimes times).setSpace space s' =
      (ld.setSpace space s).withTimes (Function.update times space new) := by
  unfold setSpace withTimes
  grind

theorem setSpace_withTimes_self (ld : LossDetection) (times : SendTimes) (space : PacketNumberSpace)
    (hs : s' = { s with ackedAckElicitingTimes := times space }) :
    (ld.withTimes times).setSpace space s' = (ld.setSpace space s).withTimes times := by
  rw [setSpace_withTimes ld times space hs, Function.update_eq_self]

theorem onPacketSent_withTimes (ld : LossDetection) (times : SendTimes) (pkt : SentPacket) :
    (ld.withTimes times).onPacketSent pkt = (ld.onPacketSent pkt).withTimes times := by
  unfold onPacketSent
  split
  · exact setSpace_withTimes_self ld times pkt.space rfl
  · rfl

theorem detectLostPackets_withTimes (ld : LossDetection) (times : SendTimes)
    (space : PacketNumberSpace) (now : Nat) :
    (ld.withTimes times).detectLostPackets timeThreshold space now =
      ((ld.detectLostPackets timeThreshold space now).1,
        (ld.detectLostPackets timeThreshold space now).2.withTimes times) := by
  unfold detectLostPackets
  dsimp only
  have hsame : ((ld.withTimes times).spaces space).largestAcked = (ld.spaces space).largestAcked :=
    rfl
  rw [hsame]
  split
  · rfl
  · exact Prod.ext rfl (setSpace_withTimes_self ld times space rfl)

theorem recordAcked_withTimes (ld : LossDetection) (times : SendTimes) (space : PacketNumberSpace)
    (largestAcked ackDelay now : Nat) (acked : List SentPacket) (sent : OrdMap SentPacket) :
    (ld.withTimes times).recordAcked space largestAcked ackDelay now acked sent =
      (ld.recordAcked space largestAcked ackDelay now acked sent).withTimes
        (Function.update times space (addTimes (times space) acked)) := by
  unfold recordAcked withTimes setSpace
  dsimp only
  congr 1
  funext other
  by_cases h : other = space
  · subst h
    simp only [Function.update_self]
    rfl
  · simp only [if_neg h, Function.update_of_ne h]

theorem onAckReceived_withTimes (timeThreshold : Nat → Nat) (ld : LossDetection)
    (times : SendTimes) (space : PacketNumberSpace) (largestAcked ackDelay : Nat) (ackRanges : List (Nat × Nat))
    (now : Nat) :
    (ld.withTimes times).onAckReceived timeThreshold space largestAcked ackDelay ackRanges now =
      (ld.onAckReceived timeThreshold space largestAcked ackDelay ackRanges now).map fun result =>
        (result.1, result.2.withTimes
          (Function.update times space (addTimes (times space) result.1.1))) := by
  unfold onAckReceived
  have hsame : ((ld.withTimes times).spaces space).sentPackets = (ld.spaces space).sentPackets := rfl
  rw [hsame]
  split
  · rfl
  · dsimp only [Option.map_some]
    rw [recordAcked_withTimes, detectLostPackets_withTimes]

theorem prune_withTimes (ld : LossDetection) (times : SendTimes) (space : PacketNumberSpace) :
    (ld.withTimes times).pruneAcknowledgedAckElicitingTimes space =
      ld.withTimes (Function.update times space
        (prunedTimes (ld.spaces space).sentPackets (times space))) := by
  have hself : ld.setSpace space (ld.spaces space) = ld := by
    unfold setSpace
    congr 1
    funext other
    split
    · next h => rw [h]
    · rfl
  have hset : (ld.withTimes times).pruneAcknowledgedAckElicitingTimes space =
      (ld.setSpace space (ld.spaces space)).withTimes (Function.update times space
        (prunedTimes (ld.spaces space).sentPackets (times space))) :=
    setSpace_withTimes ld times space rfl
  rw [hset, hself]

/-! ## Send times -/

theorem setSpace_times (ld : LossDetection)
    (h : s.ackedAckElicitingTimes = ld.times space) : (ld.setSpace space s).times = ld.times := by
  funext other
  unfold times
  by_cases hother : other = space
  · rw [hother, setSpace_self, h]
    rfl
  · rw [setSpace_of_ne ld s hother]

variable {time : Nat}

theorem mem_keys_addTimes {times : OrdMap Unit} : time ∈ (addTimes times acked).keys ↔
      time ∈ times.keys ∨ ∃ pkt ∈ acked, pkt.ackEliciting = true ∧ pkt.timeSent = time := by
  induction acked generalizing times with
  | nil => simp [addTimes]
  | cons pkt rest ih =>
    have hcons : addTimes times (pkt :: rest) =
        addTimes (if pkt.ackEliciting then times.insert pkt.timeSent () else times) rest := rfl
    rw [hcons, ih, List.exists_mem_cons_iff]
    split
    · next heliciting =>
      simp only [OrdMap.mem_keys_insert]
      grind
    · next heliciting =>
      simp [heliciting]

theorem onAckReceived_times {largestAcked ackDelay now : Nat} {ackRanges : List (Nat × Nat)}
    (h : ld.onAckReceived timeThreshold space largestAcked ackDelay ackRanges now =
      some ((acked, lost), ld')) :
    ld'.times = Function.update ld.times space (addTimes (ld.times space) acked) := by
  have hself : ld.withTimes ld.times = ld := rfl
  have hwith := onAckReceived_withTimes timeThreshold ld ld.times space
    largestAcked ackDelay ackRanges now
  rw [hself, h, Option.map_some] at hwith
  exact congrArg (fun result => result.2.times) (Option.some.inj hwith)

theorem foldl_min_le {first : Nat} {rest : List Nat} {n : Nat} (h : n ∈ first :: rest) :
    rest.foldl min first ≤ n :=
  (List.min?_eq_some_iff.mp List.min?_cons').2 n h

theorem foldl_min_mem (first : Nat) (rest : List Nat) : rest.foldl min first ∈ first :: rest :=
  (List.min?_eq_some_iff.mp List.min?_cons').1

theorem prunedTimes_subset {times : OrdMap Unit}
    (h : time ∈ (prunedTimes sent times).keys) : time ∈ times.keys := by
  unfold prunedTimes at h
  split at h
  · cases h
  · obtain ⟨x, hx, rfl⟩ := List.mem_map.mp h
    exact List.mem_map_of_mem ((OrdMap.mem_filter x).mp hx).1

theorem lt_of_not_mem_prunedTimes {times : OrdMap Unit}
    (hmem : time ∈ times.keys) (hgone : time ∉ (prunedTimes sent times).keys) {pkt : SentPacket}
    (hpkt : pkt ∈ sent.values) (heliciting : pkt.ackEliciting = true) : time < pkt.timeSent := by
  have htime : pkt.timeSent ∈ (sent.values.filter SentPacket.ackEliciting).map
      SentPacket.timeSent :=
    List.mem_map_of_mem (List.mem_filter.mpr ⟨hpkt, heliciting⟩)
  unfold prunedTimes at hgone
  split at hgone
  · next hnone =>
    rw [hnone] at htime
    cases htime
  · next first rest hsome =>
    rw [hsome] at htime
    by_contra hle
    apply hgone
    obtain ⟨x, hx, rfl⟩ := List.mem_map.mp hmem
    refine List.mem_map_of_mem ((OrdMap.mem_filter x).mpr ⟨hx, ?_⟩)
    have holdest := foldl_min_le htime
    exact decide_eq_true (by omega)

/-- Of two sets of send times the smaller one lacks only times from before the packets. -/
structure Covers (pkts : List SentPacket) (full pruned : OrdMap Unit) : Prop where
  kept : ∀ time ∈ pruned.keys, time ∈ full.keys
  gone : ∀ time ∈ full.keys, time ∉ pruned.keys →
    ∀ pkt ∈ pkts, pkt.ackEliciting = true → time < pkt.timeSent

namespace Covers

variable {pkts : List SentPacket} {full pruned : OrdMap Unit}

theorem mono (h : Covers pkts full pruned) {pkts' : List SentPacket}
    (hsub : ∀ pkt ∈ pkts', pkt ∈ pkts) : Covers pkts' full pruned :=
  ⟨h.kept, fun time hfull hgone pkt hpkt => h.gone time hfull hgone pkt (hsub pkt hpkt)⟩

theorem add (h : Covers pkts full pruned) (acked : List SentPacket) :
    Covers pkts (addTimes full acked) (addTimes pruned acked) := by
  refine ⟨fun time hmem => ?_, fun time hfull hgone => ?_⟩
  all_goals grind [cases Covers, mem_keys_addTimes]

theorem prune (h : Covers sent.values full pruned) :
    Covers sent.values full (prunedTimes sent pruned) := by
  refine ⟨fun time hmem => h.kept time (prunedTimes_subset hmem), fun time hfull hgone pkt hpkt
    heliciting => ?_⟩
  grind [cases Covers, lt_of_not_mem_prunedTimes]

end Covers

theorem detectsPersistentCongestion_withTimes {times : SendTimes}
    (hcovers : Covers lost (ld.times space) (times space))
    (acked : List SentPacket) : (ld.withTimes times).detectsPersistentCongestion space acked lost =
      ld.detectsPersistentCongestion space acked lost := by
  unfold detectsPersistentCongestion
  split
  · rfl
  · next first rest hlost =>
    have hany : ∀ stop, ((times space).keys.any fun time =>
          decide (rest.foldl min first ≤ time) && decide (time ≤ stop)) =
        (ld.times space).keys.any fun time =>
          decide (rest.foldl min first ≤ time) && decide (time ≤ stop) := by
      intro stop
      rw [Bool.eq_iff_iff, List.any_eq_true, List.any_eq_true]
      refine ⟨fun ⟨time, hmem, hin⟩ => ⟨time, hcovers.kept time hmem, hin⟩,
        fun ⟨time, hmem, hin⟩ => ⟨time, ?_, hin⟩⟩
      by_contra hnot
      have hstart := foldl_min_mem first rest
      rw [← hlost] at hstart
      obtain ⟨pkt, hpkt, htime⟩ := List.mem_map.mp hstart
      obtain ⟨hmemLost, heliciting⟩ := List.mem_filter.mp hpkt
      have hlt := hcovers.gone time hmem hnot pkt hmemLost heliciting
      grind
    exact congrArg (fun any => _ && !any && _) (hany (rest.foldl max first))

end LossDetection

/-! ## Lockstep -/

def ackedBy (space : PacketNumberSpace) : LossEvent × LossResponse → List SentPacket
  | (.ack sp _ _ _ _, .acked newlyAcked _ _) => if sp = space then newlyAcked else []
  | _ => []

def SentLater (x : LossEvent × LossResponse) (e : LossEvent) : Prop :=
  ∀ space, ∀ acked ∈ ackedBy space x, ∀ sent ∈ e.tracks space, acked.timeSent < sent.timeSent

def Timely (tr : LossTrace) : Prop := tr.Pairwise fun x y => SentLater x y.1

namespace LossDetection

variable {timeThreshold : Nat → Nat} {full full' : LossDetection} {times : SendTimes}
  {tr : LossTrace} {e : LossEvent} {r : LossResponse}

structure Prunable (tr : LossTrace) (full : LossDetection) (times : SendTimes) : Prop where
  covers : ∀ space, Covers (full.trackedIn space) (full.times space) (times space)
  seen : ∀ space, ∀ time ∈ (full.times space).keys,
    ∃ x ∈ tr, ∃ pkt ∈ ackedBy space x, pkt.timeSent = time

theorem Prunable.quiet (h : Prunable tr full times) (hlater : ∀ x ∈ tr, SentLater x e)
    (htimes : full'.times = full.times)
    (htracked : ∀ space, ∀ pkt ∈ full'.trackedIn space,
      pkt ∈ full.trackedIn space ∨ pkt ∈ e.tracks space) :
    Prunable (tr ++ [(e, r)]) full' times := by
  refine ⟨fun space => ?_, fun space time hmem => ?_⟩
  · rw [htimes]
    refine ⟨(h.covers space).kept, fun time hfull hgone pkt hpkt heliciting => ?_⟩
    obtain hold | hsent := htracked space pkt hpkt
    · exact (h.covers space).gone time hfull hgone pkt hold heliciting
    · obtain ⟨x, hx, acked, hacked, rfl⟩ := h.seen space time hfull
      exact hlater x hx space acked hacked pkt hsent
  · rw [htimes] at hmem
    grind [cases Prunable]

theorem Prunable.ack {space : PacketNumberSpace} {largestAcked ackDelay now : Nat}
    {ackRanges : List (Nat × Nat)} {acked lost : List SentPacket} {persistent : Bool}
    (h : Prunable tr full times)
    (hack : full.onAckReceived timeThreshold space largestAcked ackDelay ackRanges now =
      some ((acked, lost), full')) :
    Prunable (tr ++ [(.ack space largestAcked ackDelay ackRanges now,
        .acked acked lost persistent)]) full'
      (Function.update times space (prunedTimes (full'.spaces space).sentPackets
        (addTimes (times space) acked))) := by
  have hperm := onAckReceived_perm hack
  refine ⟨fun other => ?_, fun other time hmem => ?_⟩
  · rw [onAckReceived_times hack]
    by_cases hother : other = space
    · subst hother
      rw [Function.update_self, Function.update_self]
      refine Covers.prune (Covers.add ((h.covers other).mono fun pkt hpkt => ?_) acked)
      exact hperm.1.subset (List.mem_append_right _ hpkt)
    · grind [cases Prunable, trackedIn]
  · rw [onAckReceived_times hack] at hmem
    by_cases hother : other = space
    · subst hother
      rw [Function.update_self, mem_keys_addTimes] at hmem
      obtain hmem | ⟨pkt, hpkt, -, htime⟩ := hmem
      · grind [cases Prunable]
      · refine ⟨_, List.mem_append_right _ List.mem_cons_self, pkt, ?_, htime⟩
        rw [ackedBy, if_pos rfl]
        exact hpkt
    · grind [cases Prunable]

theorem step_withTimes (timeThreshold : Nat → Nat) (h : Prunable tr full times) (hlater : ∀ x ∈ tr, SentLater x e) :
    ∃ times', (full.withTimes times).step timeThreshold true e =
        (full.step timeThreshold false e).map (fun result =>
          (result.1, result.2.withTimes times')) ∧
      ∀ r full', full.step timeThreshold false e = some (r, full') →
        Prunable (tr ++ [(e, r)]) full' times' := by
  cases e with
  | ack space largestAcked ackDelay ackRanges now =>
    cases hack : full.onAckReceived timeThreshold space largestAcked ackDelay ackRanges now with
    | none =>
      refine ⟨times, ?_, fun r full' hstep => ?_⟩
      all_goals grind [step, processAck, onAckReceived_withTimes]
    | some result =>
      obtain ⟨⟨acked, lost⟩, full'⟩ := result
      have hlost : Covers lost (full'.times space)
          (Function.update times space (addTimes (times space) acked) space) := by
        rw [onAckReceived_times hack, Function.update_self, Function.update_self]
        refine Covers.add ((h.covers space).mono fun pkt hpkt => ?_) acked
        exact (onAckReceived_perm hack).1.subset
          (List.mem_append_left _ (List.mem_append_right _ hpkt))
      refine ⟨Function.update times space (prunedTimes (full'.spaces space).sentPackets
        (addTimes (times space) acked)), ?_, fun r full'' hstep => ?_⟩
      · simp only [step, processAck, onAckReceived_withTimes, hack, Option.map_some,
          detectsPersistentCongestion_withTimes hlost, prune_withTimes,
          Function.update_self, Function.update_idem]
        rfl
      · obtain ⟨acked', lost', ld₁, hack', rfl, rfl⟩ := processAck_eq_some hstep
        rw [hack] at hack'
        cases hack'
        exact h.ack hack
  | sent pkt =>
    refine ⟨times, ?_, fun r full' hstep => h.quiet hlater ?_ fun _ _ => step_tracked hstep⟩
    · simp only [step, onPacketSent_withTimes, Option.map_some]
    · cases hstep
      unfold onPacketSent
      split
      · exact setSpace_times full rfl
      · rfl
  | remove space _ | take space =>
    refine ⟨times, ?_, fun r full' hstep => h.quiet hlater ?_ fun _ _ => step_tracked hstep⟩
    · exact congrArg (fun ld => some (_, ld)) (setSpace_withTimes_self full times space rfl)
    · cases hstep
      exact setSpace_times full rfl
  | ptoTimeout | setMaxAckDelay =>
    refine ⟨times, rfl, fun r full' hstep => h.quiet hlater ?_ fun _ _ => step_tracked hstep⟩
    cases hstep
    rfl

def Forgets (tr : LossTrace) (ld full : LossDetection) : Prop :=
  ∃ times, ld = full.withTimes times ∧ Prunable tr full times

theorem forgets_new : Forgets [] new new :=
  ⟨new.times, rfl, fun _ => ⟨fun _ h => h, fun _ h hnot => absurd h hnot⟩, fun _ _ h => (by cases h)⟩

end LossDetection

theorem Timely.later {tr whole : LossTrace} {e : LossEvent} {r : LossResponse}
    (h : Timely whole) (hpart : tr ++ [(e, r)] <+: whole) : ∀ x ∈ tr, SentLater x e := by
  intro x hx
  have hpairwise : Timely (tr ++ [(e, r)]) := h.sublist hpart.sublist
  exact (List.pairwise_append.mp hpairwise).2.2 x hx (e, r) (List.mem_singleton.mpr rfl)

/-- In every run in which a packet sent after an ACK frame is later than those that the frame
acknowledged, forgetting send times changes no answer: the two machines have the same traces,
and with them the same verdicts on persistent congestion. -/
theorem pruning_keeps_verdicts (timeThreshold : Nat → Nat) {tr : LossTrace} (htimely : Timely tr) :
    (∃ ld, Run (LossDetection.step timeThreshold true) (fun _ _ => True) .new tr ld) ↔
      ∃ ld, Run (LossDetection.step timeThreshold false) (fun _ _ => True) .new tr ld := by
  constructor
  · intro ⟨ld, hrun⟩
    have hfull : ∃ full, Run (LossDetection.step timeThreshold false) (fun _ _ => True) .new tr full
        ∧ LossDetection.Forgets tr ld full := by
      refine hrun.lockstep (List.prefix_refl tr) LossDetection.forgets_new ?_
      intro tr ld full e r ld' ⟨times, hld, hprunable⟩ hpart _ hstep
      obtain ⟨times', heq, hnext⟩ := LossDetection.step_withTimes timeThreshold hprunable
        (htimely.later hpart)
      rw [hld, heq] at hstep
      obtain ⟨⟨r', full'⟩, hfull, hresult⟩ := Option.map_eq_some_iff.mp hstep
      cases hresult
      exact ⟨full', trivial, hfull, times', rfl, hnext _ _ hfull⟩
    exact hfull.imp fun _ h => h.1
  · intro ⟨full, hrun⟩
    have hld : ∃ ld, Run (LossDetection.step timeThreshold true) (fun _ _ => True) .new tr ld
        ∧ LossDetection.Forgets tr ld full := by
      refine hrun.lockstep (R := fun tr full ld => LossDetection.Forgets tr ld full)
        (List.prefix_refl tr) LossDetection.forgets_new ?_
      intro tr full ld e r full' ⟨times, hld, hprunable⟩ hpart _ hstep
      obtain ⟨times', heq, hnext⟩ := LossDetection.step_withTimes timeThreshold hprunable
        (htimely.later hpart)
      rw [← hld, hstep] at heq
      exact ⟨_, trivial, heq, times', rfl, hnext _ _ hstep⟩
    exact hld.imp fun _ h => h.1

/-- Two packets lost over 100 ms: the verdict is persistent congestion, although the time of the
first packet was forgotten when it was acknowledged. -/
theorem persistent_without_forgetting :
    ∃ tr ld, Run (LossDetection.step id false) (fun _ _ => True) .new
      (tr ++ [(.ack .applicationData 5 0 [(5, 5)] (millis 110), .acked [exampleSent 5 (millis 110)]
        [exampleSent 1 1, exampleSent 2 (millis 100)] true)]) ld := by
  have hnil : Run (LossDetection.step id true) (fun _ _ => True) .new [] _ := .nil
  have hzero := hnil.push (.sent (exampleSent 0 0)) rfl trivial
  have hfirst := hzero.push (r := .acked [exampleSent 0 0] [] false)
    (.ack .applicationData 0 0 [(0, 0)] 0) rfl trivial
  have hone := hfirst.push (.sent (exampleSent 1 1)) rfl trivial
  have htwo := hone.push (.sent (exampleSent 2 (millis 100))) rfl trivial
  have hfive := htwo.push (.sent (exampleSent 5 (millis 110))) rfl trivial
  have hack := hfive.push (r := .acked [exampleSent 5 (millis 110)]
      [exampleSent 1 1, exampleSent 2 (millis 100)] true)
    (.ack .applicationData 5 0 [(5, 5)] (millis 110)) rfl trivial
  refine ⟨_, (pruning_keeps_verdicts id ?_).mp ⟨_, hack⟩⟩
  simp [Timely, SentLater, ackedBy, LossEvent.tracks, millis, exampleSent]

end Starfish.Quic
