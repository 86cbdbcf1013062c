import Starfish.Lib.Peers
import Starfish.Quic.Connection.RecvCredit
import Starfish.Quic.Connection.SendCredit

/-!
# Credit between two connections

One connection writes, the other one reads and advertises limits. The network loses, delays,
repeats and reorders what they send to each other, but makes nothing up. However the steps of
both are interleaved, the reader never refuses a STREAM frame for exceeding a limit.
-/

namespace Starfish.Quic

/-- A writer and a reader. -/
abbrev CreditLink := Peers StreamLife StreamLifeEvent TransportResponse
  StreamLife StreamLifeEvent (TransportResponse × List Frame)

/-- Limits arrive only if they were advertised, and STREAM frames carry only bytes that were
accepted. The limits of the transport parameters are applied once, before the first step. -/
def CreditLink.Delivers (l : CreditLink) : PeersEvent StreamLifeEvent StreamLifeEvent → Prop
  | .left (.frame (.maxData n)) => n ∈ limitsOf .connection l.rightTrace
  | .left (.frame (.maxStreamData sid n)) => n ∈ limitsOf (.stream sid) l.rightTrace
  | .left (.call (.peerLimits _)) => False
  | .right (.frame (.stream f)) => f.offset + f.data.length ≤ acceptedOn f.streamId l.leftTrace
  | _ => True

theorem highestOffset_le {sid n : Nat} {frames : List StreamFrame}
    (h : ∀ f ∈ frames, f.streamId = sid → f.offset + f.data.length ≤ n) :
    highestOffset sid frames ≤ n := by
  induction frames using List.reverseRecOn with
  | nil => exact Nat.zero_le n
  | append_singleton frames f ih =>
    have hold := ih fun g hg => h g (List.mem_append_left _ hg)
    have hnew := h f (by simp)
    rw [highestOffset_concat]
    split
    · next hsid => exact max_le hold (hnew hsid)
    · exact hold

/-- The streams of a set have accepted no more than all streams. -/
theorem sum_acceptedOn_le (sids : Finset Nat) (tr : LifeTrace) :
    ∑ sid ∈ sids, acceptedOn sid tr ≤ acceptedTotal tr := by
  induction tr using List.reverseRecOn with
  | nil => simp [acceptedOn]
  | append_singleton tr x ih =>
    have hone : ∑ sid ∈ sids, acceptedBy sid x ≤ ((acceptedWrite x).map Prod.snd).getD 0 := by
      unfold acceptedBy
      cases acceptedWrite x with
      | none => simp
      | some write =>
        dsimp only
        rw [Finset.sum_ite_eq']
        split
        · exact Nat.le_refl _
        · exact Nat.zero_le _
    simp only [acceptedOn_concat, acceptedTotal_concat, Finset.sum_add_distrib]
    exact Nat.add_le_add ih hone

/-- The last limit never falls. -/
theorem lastLimit_le_concat {initial : Level → Nat} {tr : AdvertisingTrace}
    {x : StreamLifeEvent × TransportResponse × List Frame} {lvl : Level}
    (h : (advertised initial lvl (tr ++ [x])).Pairwise (· ≤ ·)) :
    lastLimit initial lvl tr ≤ lastLimit initial lvl (tr ++ [x]) := by
  apply le_lastLimit h
  unfold lastLimit advertised
  rw [limitsOf_concat]
  cases hlimits : limitsOf lvl tr using List.reverseRecOn with
  | nil => simp
  | append_singleton limits last => simp

/-- What the books of the writer have to do with those of the reader. -/
structure CreditLink.Agrees (limits : PeerLimits) (initialMaxData initialMaxStreamData : Nat)
    (l : CreditLink) : Prop where
  sound : l.left.Sound
  sends : SendBooks limits l.leftTrace l.left.transport.credit
  receives : RecvBooks initialMaxData initialMaxStreamData l.rightTrace l.right
  dataGranted : largestDataGrant limits l.leftTrace ≤
    lastLimit (initialLimit initialMaxData initialMaxStreamData) .connection l.rightTrace
  streamGranted : ∀ isLocal sid, largestStreamGrant limits isLocal sid l.leftTrace ≤
    lastLimit (initialLimit initialMaxData initialMaxStreamData) (.stream sid) l.rightTrace
  carried : ∀ f ∈ offered l.rightTrace, f.offset + f.data.length ≤ acceptedOn f.streamId l.leftTrace
  accepted : ∀ f r frames, (.frame (.stream f), r, frames) ∈ l.rightTrace → r.overLimit = false

namespace CreditLink.Agrees

variable {limits : PeerLimits} {initialMaxData initialMaxStreamData : Nat} {l : CreditLink}
  (h : Agrees limits initialMaxData initialMaxStreamData l)
include h

theorem usedBy_le {frames : List StreamFrame}
    (hframes : ∀ f ∈ frames, f.offset + f.data.length ≤ acceptedOn f.streamId l.leftTrace)
    (lvl : Level) : usedBy frames lvl ≤
      lastLimit (initialLimit initialMaxData initialMaxStreamData) lvl l.rightTrace := by
  have hstream : ∀ sid, highestOffset sid frames ≤ acceptedOn sid l.leftTrace := fun sid =>
    highestOffset_le fun f hf hsid => hsid ▸ hframes f hf
  cases lvl with
  | stream sid => exact (hstream sid).trans ((h.sends.within sid).trans (h.streamGranted _ sid))
  | connection =>
    have hsum := (Finset.sum_le_sum fun sid _ => hstream sid).trans
      (sum_acceptedOn_le (frames.map (·.streamId)).toFinset l.leftTrace)
    have hsent := h.sends.connection_within
    rw [h.sends.total] at hsent
    exact hsum.trans (hsent.trans h.dataGranted)

theorem le_last {lvl : Level} {n : Nat} (hn : n ∈ limitsOf lvl l.rightTrace) :
    n ≤ lastLimit (initialLimit initialMaxData initialMaxStreamData) lvl l.rightTrace :=
  le_lastLimit (h.receives.limits.ascending lvl) n (List.mem_cons_of_mem _ hn)

theorem writer {e : StreamLifeEvent} {r : TransportResponse} {s : StreamLife}
    (hok : l.Delivers (.left e)) (hstep : l.left.step e = some (r, s)) :
    Agrees limits initialMaxData initialMaxStreamData (l.goLeft e r s) := by
  obtain ⟨c, hopens, hcredit⟩ := StreamLife.step_credit h.sound.tabled hstep
  refine ⟨h.sound.step hstep, (h.sends.opens hopens).step hcredit, h.receives, ?_, ?_, ?_,
    h.accepted⟩ <;> dsimp only [Peers.goLeft]
  · rw [largestDataGrant_concat]
    refine max_le h.dataGranted ?_
    dsimp only [dataGrant]
    split
    · exact h.le_last hok
    · exact hok.elim
    · exact Nat.zero_le _
  · intro isLocal sid
    rw [largestStreamGrant_concat]
    refine max_le (h.streamGranted isLocal sid) ?_
    dsimp only [streamGrant]
    split
    · split
      · next hsid => exact h.le_last (hsid ▸ hok)
      · exact Nat.zero_le _
    · exact hok.elim
    · exact Nat.zero_le _
  · intro f hf
    rw [acceptedOn_concat]
    exact Nat.le_add_right_of_le (h.carried f hf)

/-- A STREAM frame that the network delivers is not over a limit. -/
theorem accepts {f : StreamFrame} {r : TransportResponse} {s : StreamLife}
    (hok : l.Delivers (.right (.frame (.stream f))))
    (hstep : l.right.step (.frame (.stream f)) = some (r, s)) : r.overLimit = false := by
  rw [StreamLife.step_frame_response hstep]
  refine h.receives.accepts fun lvl _ => h.usedBy_le (fun g hg => ?_) lvl
  rcases List.mem_append.mp hg with hold | hnew
  · exact h.carried g hold
  · obtain rfl := List.mem_singleton.mp hnew
    exact hok

theorem reader {e : StreamLifeEvent} {r : TransportResponse × List Frame} {s : StreamLife}
    (hok : l.Delivers (.right e)) (hstep : l.right.advertisingStep e = some (r, s)) :
    Agrees limits initialMaxData initialMaxStreamData (l.goRight e r s) := by
  obtain ⟨hstep, hframes⟩ := StreamLife.advertisingStep_eq_some hstep
  have hreceives := h.receives.step hstep
  rw [← hframes] at hreceives
  have hgrows := fun lvl => lastLimit_le_concat (hreceives.limits.ascending lvl)
  refine ⟨h.sound, h.sends, hreceives, h.dataGranted.trans (hgrows _),
    fun isLocal sid => (h.streamGranted isLocal sid).trans (hgrows _), ?_, ?_⟩
  · intro f hf
    obtain ⟨x, hx, hframe⟩ := List.mem_filterMap.mp hf
    rcases List.mem_append.mp hx with hold | hnew
    · exact h.carried f (List.mem_filterMap.mpr ⟨x, hold, hframe⟩)
    · obtain rfl := List.mem_singleton.mp hnew
      unfold StreamLifeEvent.streamFrame at hframe
      split at hframe
      · next heq =>
        cases hframe
        dsimp only at heq
        subst heq
        exact hok
      · cases hframe
  · intro f response frames hmem
    rcases List.mem_append.mp hmem with hold | hnew
    · exact h.accepted f response frames hold
    · obtain ⟨rfl, rfl⟩ := Prod.mk.inj (List.mem_singleton.mp hnew)
      exact h.accepts hok hstep

end CreditLink.Agrees

/-- A writer that applies limits no larger than those of the reader's transport parameters is
never over a limit, whatever both sides do and whatever the network does to the frames. -/
theorem writer_never_over_limit (writerSide readerSide : Side)
    {maxBidi maxUni maxBidi' maxUni' : Nat}
    (initialMaxStreamData initialMaxData initialMaxStreamData' initialMaxData' : Nat)
    (hbidi : maxBidi ≤ u64Max) (huni : maxUni ≤ u64Max)
    (hbidi' : maxBidi' ≤ u64Max) (huni' : maxUni' ≤ u64Max) {limits : PeerLimits}
    (hdata : limits.initialMaxData ≤ initialMaxData')
    (hstream : ∀ isLocal sid, limits.forStream isLocal sid ≤ initialMaxStreamData')
    {before : LifeTrace} {s₀ : StreamLife}
    (hbefore : Run StreamLife.step (fun _ e => e.isSend = false)
      (StreamLife.new writerSide maxBidi maxUni initialMaxStreamData initialMaxData) before s₀)
    {tr : List (PeersEvent StreamLifeEvent StreamLifeEvent × Unit)} {l : CreditLink}
    (hrun : Run (Peers.step StreamLife.step StreamLife.advertisingStep) CreditLink.Delivers
      { left := { s₀ with transport := s₀.transport.applyPeerLimits limits }
        right := StreamLife.new readerSide maxBidi' maxUni' initialMaxStreamData' initialMaxData' }
      tr l) :
    ∀ f r frames, (.frame (.stream f), r, frames) ∈ l.rightTrace → r.overLimit = false := by
  obtain ⟨hsound, hunsent⟩ := StreamLife.credit_invariant (I := fun _ c => c.Unsent) hbefore
    (StreamLife.new_sound writerSide initialMaxStreamData initialMaxData hbidi huni)
    (.new writerSide maxBidi maxUni initialMaxStreamData initialMaxData)
    (fun _ _ _ h hopens => h.opens hopens)
    (fun _ _ _ _ e r h hsend _ hstep => h.step hstep (acceptedWrite_of_not_isSend hsend r))
  have hsends : SendBooks limits [] (s₀.transport.applyPeerLimits limits).credit := by
    rw [Transport.applyPeerLimits_credit]
    exact .init limits hunsent fun sid a => StreamLife.used_of_account hsound.tabled
  refine (Peers.invariant hrun (I := CreditLink.Agrees limits initialMaxData' initialMaxStreamData')
    ?_ ?_ ?_).accepted
  · exact ⟨hsound.step (e := .call (.peerLimits limits)) rfl, hsends,
      .new readerSide initialMaxStreamData' initialMaxData' hbidi' huni', hdata, hstream,
      by simp [offered], by simp⟩
  · exact fun l e r s hagrees hok hstep => hagrees.writer hok hstep
  · exact fun l e r s hagrees hok hstep => hagrees.reader hok hstep

/-- One byte is written, arrives, and arrives again. -/
theorem repeated_byte_not_over_limit : ∃ tr l,
    Run (Peers.step StreamLife.step StreamLife.advertisingStep) CreditLink.Delivers
      { left := { StreamLife.new .client 1 1 10 10 with
          transport := (StreamLife.new .client 1 1 10 10).transport.applyPeerLimits threeBytes }
        right := StreamLife.new .server 1 1 5 3 } tr l ∧ l.rightTrace.length = 2 ∧
    ∀ f r frames, (.frame (.stream f), r, frames) ∈ l.rightTrace → r.overLimit = false := by
  have hnil : Run (Peers.step StreamLife.step StreamLife.advertisingStep) CreditLink.Delivers
    { left := { StreamLife.new .client 1 1 10 10 with
        transport := (StreamLife.new .client 1 1 10 10).transport.applyPeerLimits threeBytes }
      right := StreamLife.new .server 1 1 5 3 } [] _ := .nil
  have hopen := hnil.push (.left (.call .openBidi)) rfl trivial
  have hsend := hopen.push (.left (.call (.send .connected (some .oneRtt) 0 [7] false))) rfl trivial
  have hfirst := hsend.push (.right (.frame (.stream ⟨0, 0, false, [7]⟩))) rfl (Nat.le_refl 1)
  have hagain := hfirst.push (.right (.frame (.stream ⟨0, 0, false, [7]⟩))) rfl (Nat.le_refl 1)
  have hstream : ∀ isLocal sid, threeBytes.forStream isLocal sid ≤ 5 := by
    intro isLocal sid
    unfold PeerLimits.forStream
    split <;> decide
  exact ⟨_, _, hagain, rfl, writer_never_over_limit .client .server 10 10 5 3 (by decide)
    (by decide) (by decide) (by decide) (by decide) hstream .nil hagain⟩

end Starfish.Quic
