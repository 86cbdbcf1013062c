import Starfish.Lib.Peers
import Starfish.Quic.Connection.Reassembly
import Starfish.Quic.Connection.SendOrder

/-!
# A stream between two connections

One connection writes to a stream, the other one reads from it. The network cuts up, loses,
delays, repeats and reorders the STREAM frames between them. However the steps of both are
interleaved, the reader's application gets the bytes the writes accepted, in order, and it is
told the end only after all of them.
-/

namespace Starfish.Quic

/-- A writer and a reader. -/
abbrev StreamLink := Peers Transport TransportEvent TransportResponse
  Transport TransportEvent TransportResponse

/-- The frame carries a part of the other one, and its end only with its last byte. -/
def StreamFrame.PartOf (f g : StreamFrame) : Prop :=
  ∃ front back, g.data = front ++ f.data ++ back ∧ f.offset = g.offset + front.length ∧
    (f.fin = true → g.fin = true ∧ back = [])

/-- Writes stop at FIN. Of STREAM frames only parts of those that were queued arrive, and the
stream is not reset. -/
def StreamLink.Delivers (sid : Nat) (l : StreamLink) :
    PeersEvent TransportEvent TransportEvent → Prop
  | .left e => NoWriteAfterFin sid l.left e
  | .right (.frame (.stream f)) => f.streamId = sid →
      ∃ g ∈ streamFrames (framesOf l.left sid), f.PartOf g
  | .right (.frame (.resetStream id _ _)) => id ≠ sid
  | .right _ => True

/-- Where the data of a frame stands in the data of all of them. -/
theorem ContiguousFrom.split {offset : Nat} {fs : List StreamFrame} {g : StreamFrame}
    (h : ContiguousFrom offset fs) (hg : g ∈ fs) :
    ∃ front back, fs.flatMap StreamFrame.data = front ++ g.data ++ back ∧
      g.offset = offset + front.length := by
  induction fs generalizing offset with
  | nil => cases hg
  | cons f rest ih =>
    obtain ⟨hoff, hrest⟩ := h
    rcases List.mem_cons.mp hg with rfl | hg
    · exact ⟨[], rest.flatMap StreamFrame.data, rfl, hoff⟩
    · obtain ⟨front, back, hdata, hoffset⟩ := ih hrest hg
      refine ⟨f.data ++ front, back, ?_, ?_⟩
      · rw [List.flatMap_cons, hdata]
        simp only [List.append_assoc]
      · rw [hoffset, List.length_append, Nat.add_assoc]

/-- A step of the writer keeps the ends it has announced. -/
theorem SendChange.announced {t u : Transport} {sid n : Nat} {e : TransportEvent}
    {r : TransportResponse} (h : SendChange t sid e r u) (hn : n ∈ announced (framesOf t sid)) :
    n ∈ Quic.announced (framesOf u sid) := by
  cases h with
  | same _ _ _ _ hframes => rwa [hframes]
  | stopped _ _ _ hframes | write _ _ _ _ _ _ hframes =>
    rw [hframes, announced_append]
    exact List.mem_append_left _ hn

namespace StreamLink

variable {sid : Nat} {l : StreamLink} {e : TransportEvent} {r : TransportResponse} {t : Transport}

/-- What both parties agree on. The reader's state is compared with every string that goes on
from the bytes accepted so far, since the writer may add to them. -/
structure Agrees (sid : Nat) (l : StreamLink) : Prop where
  leftNumbered : l.left.streams.Numbered
  rightNumbered : l.right.streams.Numbered
  sends : SendInv sid l.leftTrace l.left
  reflects : ∀ S, acceptedData sid l.leftTrace <+: S →
    Reflects S sid l.rightTrace (viewOf l.right sid)
  ends : ∀ n, FinAt sid l.rightTrace n → n ∈ announced (framesOf l.left sid)

namespace Agrees

variable (h : Agrees sid l)
include h

theorem writer (hok : l.Delivers sid (.left e)) (hstep : l.left.step e = some (r, t)) :
    Agrees sid (l.goLeft e r t) := by
  have hcases := Transport.step_cases h.leftNumbered hstep
  refine ⟨hcases.numbered h.leftNumbered, h.rightNumbered,
    h.sends.step (hcases.sendChange sid) hok, fun S hS => h.reflects S ?_, fun n hn => ?_⟩
  · dsimp only [Peers.goLeft] at hS
    rw [acceptedData_snoc] at hS
    exact (List.prefix_append _ _).trans hS
  · exact (hcases.sendChange sid).announced (h.ends n hn)

/-- A part of a queued frame is a part of what was accepted. -/
theorem carriesParts (hok : l.Delivers sid (.right e)) {S : Bytes}
    (hS : acceptedData sid l.leftTrace <+: S) : CarriesParts S sid e := by
  cases e with
  | frame frame =>
    cases frame with
    | stream f =>
      intro hsid
      obtain ⟨g, hg, front, back, hdata, hoffset, -⟩ := hok hsid
      obtain ⟨before, after, hall, hstart⟩ := h.sends.contiguous.split hg
      obtain ⟨rest, rfl⟩ := hS
      rw [← h.sends.data, hall, hdata]
      have hpos : f.offset = (before ++ front).length := by
        rw [hoffset, hstart, List.length_append, Nat.zero_add]
      have hparts : before ++ (front ++ f.data ++ back) ++ after ++ rest =
          (before ++ front) ++ (f.data ++ (back ++ after ++ rest)) := by
        simp only [List.append_assoc]
      rw [hparts, Segment.IsSlice, hpos, List.drop_left]
      refine ⟨List.prefix_append _ _, ?_⟩
      simp only [List.length_append]
      omega
    | resetStream => exact hok
    | _ => trivial
  | _ => trivial

theorem reader (hok : l.Delivers sid (.right e)) (hstep : l.right.step e = some (r, t)) :
    Agrees sid (l.goRight e r t) := by
  have hcases := Transport.step_cases h.rightNumbered hstep
  refine ⟨h.leftNumbered, hcases.numbered h.rightNumbered, h.sends, fun S hS => ?_,
    fun n hn => ?_⟩
  · exact (reflects_step (h.reflects S hS) hcases (h.carriesParts hok hS)).1
  · rcases (finAt_snoc n).mp hn with hn | ⟨f, r', hmem, hsid, hfin, rfl⟩
    · exact h.ends n hn
    · obtain ⟨rfl, -⟩ := Prod.mk.inj (List.mem_singleton.mp hmem)
      obtain ⟨g, hg, front, back, hdata, hoffset, hend⟩ := hok hsid
      obtain ⟨hgfin, rfl⟩ := hend hfin
      have hstop : f.offset + f.data.length = g.offset + g.data.length := by
        simp only [hoffset, hdata, List.length_append, List.length_nil]
        omega
      rw [hstop]
      exact mem_announced_of_fin hg hgfin

/-- The end is told with the last byte that was accepted. -/
theorem all_of_fin {bufLen : Nat} {data : Bytes}
    (hstep : l.right.step (.recv sid bufLen) = some (.received data true, t)) :
    returned sid l.rightTrace ++ data = acceptedData sid l.leftTrace := by
  have hreflects := h.reflects _ (List.prefix_refl _)
  obtain ⟨st, st', hst, hread⟩ := StreamRead.of_step hreflects hstep
  rw [viewOf_some hst] at hreflects
  obtain ⟨n, hn, hle⟩ := (hreflects.fin_iff hread).mp rfl
  rw [h.sends.announced_eq n (h.ends n hn), ← h.sends.length, List.take_length] at hle
  refine List.IsPrefix.eq_of_length_le ?_ hle.length_le
  rw [hreflects.returned_append hread]
  exact List.take_prefix _ _

end Agrees

/-- Whatever the network does to the STREAM frames, the application reads the bytes the writes
accepted, from the first one on and in order; and when it is told FIN, it has all of them. -/
theorem reads_what_was_written {side side' : Side} {maxBidi maxUni maxStreamData maxData maxBidi'
    maxUni' maxStreamData' maxData' : Nat} (sid : Nat) {l : StreamLink}
    {tr : List (PeersEvent TransportEvent TransportEvent × Unit)}
    (hrun : Run (Peers.step Transport.step Transport.step) (Delivers sid)
      { left := .new side maxBidi maxUni maxStreamData maxData
        right := .new side' maxBidi' maxUni' maxStreamData' maxData' } tr l) :
    returned sid l.rightTrace <+: acceptedData sid l.leftTrace ∧
      ∀ bufLen data t, l.right.step (.recv sid bufLen) = some (.received data true, t) →
        returned sid l.rightTrace ++ data = acceptedData sid l.leftTrace := by
  have hagrees : Agrees sid l := by
    refine Peers.invariant hrun (I := Agrees sid) ?_ ?_ ?_
    · exact ⟨StreamManager.new_numbered _ _ _ _, StreamManager.new_numbered _ _ _ _,
        SendInv.new _ _ _ _ _ _, fun S _ => reflects_empty S sid, by simp [FinAt]⟩
    · exact fun l e r t hinv hok hstep => hinv.writer hok hstep
    · exact fun l e r t hinv hok hstep => hinv.reader hok hstep
  refine ⟨?_, fun bufLen data t hstep => hagrees.all_of_fin hstep⟩
  rw [(hagrees.reflects _ (List.prefix_refl _)).returned_eq]
  exact List.take_prefix _ _

/-- Three bytes are written and cut in two; the second part arrives first. -/
theorem reads_three_bytes : ∃ tr l,
    Run (Peers.step Transport.step Transport.step) (Delivers 0)
      ⟨.new .client 1 1 10 10, .new .server 1 1 10 10, [], []⟩ tr l ∧
    (∃ t, l.right.step (.recv 0 9) = some (.received [1, 2, 3] true, t)) ∧
    returned 0 l.rightTrace ++ [1, 2, 3] = acceptedData 0 l.leftTrace := by
  have hstart : Run (Peers.step Transport.step Transport.step) (Delivers 0)
    ⟨.new .client 1 1 10 10, .new .server 1 1 10 10, [], []⟩ [] _ := .nil
  have hopen := hstart.push (.left .openBidi) rfl trivial
  have hwrite := hopen.push (.left (.send .connected (some .oneRtt) 0 [1, 2, 3] true)) rfl
    (by
      intro _ _ st hst hsent
      obtain rfl := Option.some.inj hst
      cases hsent)
  have hsecond := hwrite.push (.right (.frame (.stream ⟨0, 1, true, [2, 3]⟩))) rfl
    fun _ => ⟨⟨0, 0, true, [1, 2, 3]⟩, by decide, [1], [], rfl, rfl, fun _ => ⟨rfl, rfl⟩⟩
  have hfirst := hsecond.push (.right (.frame (.stream ⟨0, 0, false, [1]⟩))) rfl
    fun _ => ⟨⟨0, 0, true, [1, 2, 3]⟩, by decide, [], [2, 3], rfl, rfl, by decide⟩
  exact ⟨_, _, hfirst, ⟨_, rfl⟩, (reads_what_was_written 0 hfirst).2 9 [1, 2, 3] _ rfl⟩

end StreamLink

end Starfish.Quic
