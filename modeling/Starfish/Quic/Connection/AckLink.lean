import Starfish.Lib.Peers
import Starfish.Quic.Connection.AckGeneration
import Starfish.Quic.Connection.Retransmit

/-!
# Acknowledgements between two connections

One connection sends packets, the other one records their numbers and answers with ACK frames.
Packets and ACK frames are lost, delayed, repeated and reordered. However the steps are
interleaved, frames that are to be retransmitted are given up only for a packet that arrived.
-/

namespace Starfish.Quic

open Runs

universe u

inductive AckEvent
  | receive (now pn : Nat) (ecn : Option UdpEcnCodepoint) (ackEliciting : Bool)
  | acknowledge (env : AckEnv)

/-- The receiver's part, which answers with the ACK frame it generates. -/
def AckSpace.step (s : AckSpace) : AckEvent → Option (Option AckFrame × AckSpace)
  | .receive now pn ecn ackEliciting => some (none, s.recordPacket now pn ecn ackEliciting)
  | .acknowledge env => some (s.generateAck env .applicationData)

abbrev AckTrace := List (AckEvent × Option AckFrame)

def receivedPns (tr : AckTrace) : List Nat :=
  tr.filterMap fun x => match x.1 with
    | .receive _ pn _ _ => some pn
    | .acknowledge _ => none

/-- A sender and a receiver in the ApplicationData space. -/
abbrev AckLink (γ : Type u) :=
  Peers (RecoveryState γ) RecoveryEvent (List Move) AckSpace AckEvent (Option AckFrame)

/-- What the receiver's ranges and ACK frames name has arrived. -/
structure Honest (s : AckSpace) (tr : AckTrace) : Prop where
  bound : ∀ pn ∈ receivedPns tr, pn ≤ u64Max
  tracks : Tracks (receivedPns tr) s.recvPnRanges
  acks : ∀ ack ∈ tr.filterMap Prod.snd, ∀ pn,
    Covers (ack.ranges.map fun r => (r.start, r.stop)) pn → pn ∈ receivedPns tr

section Receiver

variable {s t : AckSpace} {tr : AckTrace}

theorem recordPacket_recvPnRanges (s : AckSpace) (now pn : Nat) (ecn : Option UdpEcnCodepoint)
    (ackEliciting : Bool) :
    (s.recordPacket now pn ecn ackEliciting).recvPnRanges = recordRecvPn s.recvPnRanges pn := by
  unfold AckSpace.recordPacket
  cases ackEliciting <;> rfl

theorem generateAck_recvPnRanges (s : AckSpace) (env : AckEnv) (space : PacketNumberSpace) :
    (s.generateAck env space).2.recvPnRanges = s.recvPnRanges := by
  unfold AckSpace.generateAck
  split
  · rfl
  · split <;> rfl

/-- A generated frame covers what the receiver tracks. -/
theorem covers_of_generateAck {env : AckEnv} {space : PacketNumberSpace} {ack : AckFrame} {pn : Nat}
    (h : s.generateAck env space = (some ack, t))
    (hcovers : Covers (ack.ranges.map fun r => (r.start, r.stop)) pn) :
    Covers s.recvPnRanges pn := by
  rw [(generateAck_eq_some h).1, toAckRanges, List.map_map] at hcovers
  simpa [Function.comp_def] using hcovers

theorem receivedPns_concat (x : AckEvent × Option AckFrame) :
    receivedPns (tr ++ [x]) = receivedPns tr ++ receivedPns [x] :=
  List.filterMap_append

theorem Honest.step {e : AckEvent} {r : Option AckFrame} (h : Honest s tr)
    (hok : ∀ pn ∈ receivedPns [(e, r)], pn ≤ u64Max) (hstep : s.step e = some (r, t)) :
    Honest t (tr ++ [(e, r)]) := by
  have hbound : ∀ pn ∈ receivedPns (tr ++ [(e, r)]), pn ≤ u64Max := by
    intro pn hpn
    rw [receivedPns_concat] at hpn
    exact (List.mem_append.mp hpn).elim (h.bound pn) (hok pn)
  have hold : ∀ ack ∈ tr.filterMap Prod.snd, ∀ pn,
      Covers (ack.ranges.map fun r => (r.start, r.stop)) pn →
        pn ∈ receivedPns (tr ++ [(e, r)]) := by
    intro ack hack pn hpn
    rw [receivedPns_concat]
    exact List.mem_append_left _ (h.acks ack hack pn hpn)
  cases e with
  | receive now pn ecn ackEliciting =>
    obtain ⟨rfl, rfl⟩ := Prod.mk.inj (Option.some.inj hstep)
    refine ⟨hbound, ?_, fun ack hack => hold ack (by simpa using hack)⟩
    rw [recordPacket_recvPnRanges]
    rw [receivedPns_concat] at hbound ⊢
    exact h.tracks.record hbound
  | acknowledge env =>
    have hgenerate : s.generateAck env .applicationData = (r, t) := Option.some.inj hstep
    have hranges := generateAck_recvPnRanges s env .applicationData
    have hsame : receivedPns (tr ++ [(.acknowledge env, r)]) = receivedPns tr := by
      rw [receivedPns_concat]
      exact List.append_nil _
    rw [hgenerate] at hranges
    refine ⟨hbound, ?_, fun ack hack pn hpn => ?_⟩
    · rw [hsame, hranges]
      exact h.tracks
    · rw [List.filterMap_append] at hack
      rcases List.mem_append.mp hack with hack | hack
      · exact hold ack hack pn hpn
      · obtain rfl : r = some ack := by simpa using hack
        rw [hsame]
        exact h.tracks.sound pn (covers_of_generateAck hgenerate hpn)

end Receiver

namespace AckLink

variable {γ : Type u} {alg : CongestionAlgorithm γ} {timeThreshold : Nat → Nat} {l : AckLink γ}

/-- Packets arrive only if they were sent, and ACK frames only if they were generated. -/
def Delivers (l : AckLink γ) : PeersEvent RecoveryEvent AckEvent → Prop
  | .left (.ack .applicationData ack _ _) => ack ∈ l.rightTrace.filterMap Prod.snd
  | .right (.receive _ pn _ _) => pn < l.left.nextPn .applicationData ∧ pn ≤ u64Max
  | _ => True

theorem Delivers.bound {e : AckEvent} {r : Option AckFrame} (hok : l.Delivers (.right e)) :
    ∀ pn ∈ receivedPns [(e, r)], pn ≤ u64Max := by
  cases e with
  | receive => simpa [receivedPns] using hok.2
  | acknowledge => simp [receivedPns]

/-- An acknowledgement that reaches the sender is of a packet that arrived. -/
theorem received_of_acknowledges (h : Honest l.right l.rightTrace) {e : RecoveryEvent} {pn : Nat}
    (hok : l.Delivers (.left e)) (hack : e.acknowledges pn = true) :
    pn ∈ receivedPns l.rightTrace := by
  unfold RecoveryEvent.acknowledges at hack
  split at hack
  · next ack _ _ =>
    apply h.acks ack hok pn
    obtain ⟨r, hr, hin⟩ := List.any_eq_true.mp hack
    exact ⟨r, hr, by simpa [LossDetection.inRange] using hin⟩
  · cases hack

/-- What holds of a packet from the moment it is sent, where the sender's trace begins. -/
structure Followed (pn : Nat) (frames : List Frame) (s : RecoveryState γ) (l : AckLink γ) :
    Prop where
  honest : Honest l.right l.rightTrace
  kept : RecoveryState.PacketKept pn frames s l.leftTrace l.left
  arrived : ∀ x ∈ l.leftTrace, x.1.acknowledges pn = true → pn ∈ receivedPns l.rightTrace

namespace Followed

variable {pn : Nat} {frames : List Frame} {s : RecoveryState γ} (h : Followed pn frames s l)
include h

theorem sender {e : RecoveryEvent} {moves : List Move} {t : RecoveryState γ}
    (hok : l.Delivers (.left e)) (hstep : l.left.step alg timeThreshold e = some (moves, t)) :
    Followed pn frames s (l.goLeft e moves t) := by
  refine ⟨h.honest, h.kept.step hstep, fun x hx hack => ?_⟩
  rcases List.mem_append.mp hx with hx | hx
  · exact h.arrived x hx hack
  · obtain rfl := List.mem_singleton.mp hx
    exact received_of_acknowledges h.honest hok hack

theorem receiver {e : AckEvent} {r : Option AckFrame} {t : AckSpace}
    (hok : l.Delivers (.right e)) (hstep : l.right.step e = some (r, t)) :
    Followed pn frames s (l.goRight e r t) := by
  refine ⟨h.honest.step hok.bound hstep, h.kept, fun x hx hack => ?_⟩
  dsimp only [Peers.goRight]
  rw [receivedPns_concat]
  exact List.mem_append_left _ (h.arrived x hx hack)

/-- Frames are released only for a packet that arrived. -/
theorem received_of_released (hplace : l.left.FramesAt l.leftTrace pn frames .released) :
    pn ∈ receivedPns l.rightTrace := by
  have hmem : (⟨.applicationData, pn, frames, .released⟩ : Move) ∈
      appMoves pn (l.leftTrace.flatMap Prod.snd) := by simp [hplace.2.2]
  obtain ⟨hmem, hpn⟩ := List.mem_filter.mp hmem
  obtain ⟨x, hx, hmem⟩ := List.mem_flatMap.mp hmem
  have hfate := h.kept.fates x hx _ (List.mem_filter.mpr ⟨hmem, hpn⟩)
  refine h.arrived x hx ?_
  unfold RecoveryEvent.fateOf at hfate
  split at hfate
  · assumption
  · cases hfate

end Followed

/-- From the moment an ApplicationData packet with a frame to be retransmitted is sent and
tracked, its frames are in exactly one place, and they are released only if the packet has
arrived: until then they are in `sent_frames` or back in the queue, whatever is lost, repeated
or reordered between the two. -/
theorem released_frames_arrived (alg : CongestionAlgorithm γ) (timeThreshold : Nat → Nat)
    {tr tr' : List (PeersEvent RecoveryEvent AckEvent × Unit)} {l l' : AckLink γ}
    {frames : List Frame} {size : Nat} {appKind : Option ApplicationPacketKind} {now : Nat}
    {ecn : Option UdpEcnCodepoint}
    (hrun : Run (Peers.step (RecoveryState.step alg timeThreshold) AckSpace.step) Delivers
      { left := .new alg, right := {} } tr l)
    (hframes : frames.any Frame.isRetransmittable = true)
    (hrun' : Run (Peers.step (RecoveryState.step alg timeThreshold) AckSpace.step) Delivers
      { l with
        left := l.left.sendPacket .applicationData frames size true appKind now ecn
        leftTrace := [] } tr' l') :
    ∃ place, (∀ other, l'.left.FramesAt l'.leftTrace (l.left.nextPn .applicationData) frames other
        ↔ other = place) ∧
      (place = .released → l.left.nextPn .applicationData ∈ receivedPns l'.rightTrace) := by
  obtain ⟨hnumbered, hhonest⟩ : l.left.Numbered ∧ Honest l.right l.rightTrace := by
    have hinit : (RecoveryState.new alg).Numbered := by
      refine ⟨fun _ he => ?_, fun _ _ _ h => ?_⟩
      · cases he
      · cases h
    refine Peers.invariant hrun (I := fun l => l.left.Numbered ∧ Honest l.right l.rightTrace)
      ⟨hinit, by simp [receivedPns], tracks_nil, by simp⟩ ?_ ?_
    · exact fun l e moves s hinv _ hstep => ⟨RecoveryState.step_numbered hinv.1 hstep, hinv.2⟩
    · exact fun l e r s hinv hok hstep => ⟨hinv.1, hinv.2.step hok.bound hstep⟩
  have hack : frames.any Frame.isAckEliciting = true := by
    obtain ⟨f, hf, hretransmit⟩ := List.any_eq_true.mp hframes
    exact List.any_eq_true.mpr ⟨f, hf, Frame.isAckEliciting_of_isRetransmittable hretransmit⟩
  have hfollowed : Followed (l.left.nextPn .applicationData) frames l.left l' := by
    refine Peers.invariant hrun' (I := Followed _ frames l.left) ?_ ?_ ?_
    · exact ⟨hhonest, .sent hnumbered size appKind now ecn hack, by simp⟩
    · exact fun l e moves s hinv hok hstep => hinv.sender hok hstep
    · exact fun l e r s hinv hok hstep => hinv.receiver hok hstep
  obtain ⟨place, hplace, hunique⟩ := hfollowed.kept.place
  refine ⟨place, fun other => ⟨hunique other, fun heq => heq ▸ hplace⟩, ?_⟩
  rintro rfl
  exact hfollowed.received_of_released hplace

/-- A packet arrives twice and is acknowledged; its frame is released. -/
theorem released_frame_arrived : ∃ tr l,
    Run (Peers.step (RecoveryState.step NewReno.algorithm RecoveryState.nineEighths) AckSpace.step)
      Delivers ⟨(RecoveryState.new NewReno.algorithm).sendPacket .applicationData
        [.stream ⟨0, 0, true, [7]⟩] 100 true (some .oneRtt) 0 none, {}, [], []⟩ tr l ∧
    l.left.FramesAt l.leftTrace 0 [.stream ⟨0, 0, true, [7]⟩] .released ∧
    0 ∈ receivedPns l.rightTrace := by
  have hsent : Run (Peers.step (RecoveryState.step NewReno.algorithm RecoveryState.nineEighths)
      AckSpace.step) Delivers ⟨(RecoveryState.new NewReno.algorithm).sendPacket .applicationData
        [.stream ⟨0, 0, true, [7]⟩] 100 true (some .oneRtt) 0 none, {}, [], []⟩ [] _ := .nil
  have hfirst := hsent.push (.right (.receive 3 0 none true)) rfl ⟨by decide, by decide⟩
  have hagain := hfirst.push (.right (.receive 4 0 none true)) rfl ⟨by decide, by decide⟩
  have hack := hagain.push (.right (.acknowledge ⟨4, 25, 3, fun _ => true⟩)) rfl trivial
  have hrun := hack.push (.left (.ack .applicationData ⟨0, 0, [⟨0, 0⟩], none⟩ 0 5)) rfl
    (List.mem_singleton.mpr rfl)
  obtain ⟨place, hplace, harrived⟩ :=
    released_frames_arrived NewReno.algorithm _ .nil rfl hrun
  have hreleased : _ = place := (hplace .released).mp ⟨rfl, rfl, rfl⟩
  exact ⟨_, _, hrun, ⟨rfl, rfl, rfl⟩, harrived hreleased.symm⟩

end AckLink

end Starfish.Quic
