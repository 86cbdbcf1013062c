import Starfish.Lib.OrdMapTotal
import Starfish.Quic.Connection.StreamRecvSteps

/-!
# The receive ledger

The connection's flow control should have charged the peer, for every stream,
with the highest offset received or with the final size, whichever is larger.
-/

namespace Starfish.Quic

def reach (sid : Nat) : TransportEvent → Nat
  | .frame (.stream f) => if f.streamId = sid then f.offset + f.data.length else 0
  | _ => 0

def fixedBy (sid : Nat) : TransportEvent → Option Nat
  | .frame (.stream f) =>
    if f.streamId = sid ∧ f.fin = true then some (f.offset + f.data.length) else none
  | .frame (.resetStream id _ finalSize) => if id = sid then some finalSize else none
  | _ => none

def highest (sid : Nat) (tr : TransportTrace) : Nat :=
  tr.foldl (fun n x => max n (reach sid x.1)) 0

def finalSizes (sid : Nat) (tr : TransportTrace) : List Nat :=
  tr.filterMap fun x => fixedBy sid x.1

def dueFor (sid : Nat) (tr : TransportTrace) : Nat :=
  max (highest sid tr) ((finalSizes sid tr).head?.getD 0)

/-- The ledger is right: the connection's total is what is due for all streams. -/
structure LedgerExact (tr : TransportTrace) (t : Transport) : Prop where
  balance : t.flowControl.received = t.streams.streams.total fun sid _ => dueFor sid tr
  all_streams : ∀ sid, t.streams.get sid = none → dueFor sid tr = 0
  stable : ∀ sid, ∀ n ∈ finalSizes sid tr, ∀ k ∈ finalSizes sid tr, n = k
  not_below : ∀ sid, ∀ n ∈ finalSizes sid tr, highest sid tr ≤ n

def ResetWithinReceived (t : Transport) : TransportEvent → Prop
  | .frame (.resetStream sid _ finalSize) =>
    finalSize ≤ ((t.streams.get sid).map fun st => st.flowControl.received).getD 0
  | _ => True

section Trace

variable {sid : Nat} {tr : TransportTrace} {e : TransportEvent} {r : TransportResponse}

@[simp] theorem highest_nil : highest sid [] = 0 := rfl

@[simp] theorem finalSizes_nil : finalSizes sid [] = [] := rfl

theorem highest_snoc : highest sid (tr ++ [(e, r)]) = max (highest sid tr) (reach sid e) := by
  simp [highest]

theorem finalSizes_snoc :
    finalSizes sid (tr ++ [(e, r)]) = finalSizes sid tr ++ (fixedBy sid e).toList := by
  cases h : fixedBy sid e <;> simp [finalSizes, h]

theorem RecvSilent.reach_eq (h : RecvSilent sid e r) : reach sid e = 0 := by
  cases e with
  | frame frame =>
    cases frame with
    | stream f => exact if_neg h
    | _ => rfl
  | _ => rfl

theorem RecvSilent.fixedBy_eq (h : RecvSilent sid e r) : fixedBy sid e = none := by
  cases e with
  | frame frame =>
    cases frame with
    | stream f => exact if_neg fun hf => h hf.1
    | resetStream id code n => exact if_neg h
    | _ => rfl
  | _ => rfl

end Trace

/-! ## One stream -/

/-- The receive part of a stream as the trace determines it. -/
structure LedgerView (sid : Nat) (tr : TransportTrace) (v : RecvView) : Prop where
  received : v.received = highest sid tr
  finalSize : v.finalSize = (finalSizes sid tr).head?
  fixed : ∀ n ∈ finalSizes sid tr, v.finalSize = some n
  not_below : ∀ n ∈ finalSizes sid tr, highest sid tr ≤ n

variable {sid : Nat} {tr : TransportTrace} {v v' : RecvView} {e : TransportEvent}
  {r : TransportResponse}

theorem ledgerView_empty (sid : Nat) : LedgerView sid [] emptyView :=
  ⟨rfl, rfl, by simp, by simp⟩

theorem LedgerView.silent (h : LedgerView sid tr v) (hreach : reach sid e = 0)
    (hfixed : fixedBy sid e = none) (hreceived : v'.received = v.received)
    (hfinal : v'.finalSize = v.finalSize) : LedgerView sid (tr ++ [(e, r)]) v' := by
  have hhigh : highest sid (tr ++ [(e, r)]) = highest sid tr := by
    rw [highest_snoc, hreach, Nat.max_zero]
  have hsizes : finalSizes sid (tr ++ [(e, r)]) = finalSizes sid tr := by
    rw [finalSizes_snoc, hfixed]
    simp
  refine ⟨?_, ?_, ?_, ?_⟩
  all_goals grind [cases LedgerView]

theorem LedgerView.fix {n : Nat} (h : LedgerView sid tr v) (hfixed : fixedBy sid e = some n)
    (hreach : v'.received = max v.received (reach sid e)) (hle : v'.received ≤ n)
    (hfinal : v'.finalSize = some n) (hsame : ∀ k, v.finalSize = some k → k = n) :
    LedgerView sid (tr ++ [(e, r)]) v' := by
  have hhigh : highest sid (tr ++ [(e, r)]) = v'.received := by
    rw [highest_snoc, ← h.received, hreach]
  have hall : ∀ k ∈ finalSizes sid (tr ++ [(e, r)]), k = n := by
    grind [cases LedgerView, finalSizes_snoc]
  refine ⟨hhigh.symm, ?_, ?_, ?_⟩
  · cases hsizes : finalSizes sid (tr ++ [(e, r)]) with
    | nil => simp [finalSizes_snoc, hfixed] at hsizes
    | cons k rest => rw [List.head?_cons, hall k (by simp [hsizes]), hfinal]
  · intro k hk
    rw [hall k hk, hfinal]
  · intro k hk
    rw [hhigh, hall k hk]
    exact hle

variable {t : Transport}

theorem LedgerView.before {st : StreamState} (h : LedgerView sid tr (viewOf t sid))
    (hbefore : StreamBefore t sid st) : LedgerView sid tr st.recvView := by
  rcases hbefore with hst | ⟨hnone, direction, isLocal, sendMax, recvMax, rfl⟩
  · rwa [viewOf_some hst] at h
  · rw [viewOf, hnone] at h
    exact ⟨h.received, h.finalSize, h.fixed, h.not_below⟩

theorem LedgerView.stream {st st' : StreamState} {conn conn' : ConnectionFlowControl}
    {f : StreamFrame} (h : LedgerView sid tr st.recvView) (hsid : f.streamId = sid)
    (hrecv : StreamReceived st conn f st' conn') :
    LedgerView sid (tr ++ [(.frame (.stream f), r)]) st'.recvView := by
  have hreach : reach sid (.frame (.stream f)) = f.offset + f.data.length := if_pos hsid
  by_cases hfin : f.fin = true
  · obtain ⟨hsame, hle⟩ := hrecv.final hfin
    refine h.fix (if_pos ⟨hsid, hfin⟩) ?_ ?_ ?_ hsame
    · rw [hreach]
      exact hrecv.received
    · simp only [StreamState.recvView, hrecv.received]
      omega
    · simp only [StreamState.recvView, hrecv.finalSize, hfin, if_true]
  · have hsizes : finalSizes sid (tr ++ [(.frame (.stream f), r)]) = finalSizes sid tr := by
      rw [finalSizes_snoc, show fixedBy sid (.frame (.stream f)) = none from
        if_neg fun hf => hfin hf.2]
      simp
    have hfinal : st'.finalSize = st.finalSize := by simp [hrecv.finalSize, hfin]
    refine ⟨?_, ?_, ?_, ?_⟩
    · rw [highest_snoc, hreach, ← h.received]
      exact hrecv.received
    · rw [hsizes, ← h.finalSize]
      exact hfinal
    · intro n hn
      rw [hsizes] at hn
      exact hfinal.trans (h.fixed n hn)
    · intro n hn
      rw [hsizes] at hn
      have hbelow := h.not_below n hn
      have hwithin := hrecv.within n (h.fixed n hn)
      rw [highest_snoc, hreach]
      omega

theorem LedgerView.dueFor_eq (h : LedgerView sid tr v) :
    dueFor sid tr = max v.received (v.finalSize.getD 0) := by
  rw [dueFor, h.received, h.finalSize]

/-! ## Steps and runs -/

variable {u : Transport}

theorem LedgerView.step (h : LedgerView sid tr (viewOf t sid)) (hchange : RecvChange t sid e r u) :
    LedgerView sid (tr ++ [(e, r)]) (viewOf u sid) := by
  cases hchange with
  | same hsilent hview =>
    have hv : viewOf u sid = viewOf t sid := by rw [viewOf, hview, viewOf]
    exact h.silent hsilent.reach_eq hsilent.fixedBy_eq (by rw [hv]) (by rw [hv])
  | @created _ _ _ st hsilent hnone hget hfresh =>
    rw [viewOf, hnone] at h
    have hv : viewOf u sid = st.recvView := by rw [viewOf, hget, Option.getD_some]
    obtain ⟨direction, isLocal, sendMax, recvMax, rfl⟩ := hfresh
    exact h.silent hsilent.reach_eq hsilent.fixedBy_eq (by rw [hv]; rfl) (by rw [hv]; rfl)
  | @stream f st st' u hsid hbefore hget hrecv =>
    rw [viewOf_some hget]
    exact (h.before hbefore).stream hsid hrecv
  | @reset code finalSize st st' u hbefore hget hrecv =>
    obtain ⟨hsame, hle, hfinal, hfc, -⟩ := receiveResetStream_spec hrecv
    rw [viewOf_some hget]
    refine (h.before hbefore).fix (if_pos rfl) ?_ ?_ hfinal hsame
    all_goals grind [StreamState.recvView, reach]
  | @read bufLen st st' res u hst hget hread =>
    rw [viewOf_some hst] at h
    rw [viewOf_some hget]
    obtain ⟨hfc, hfinal, -⟩ := receiveRead_keeps hread
    exact h.silent rfl rfl (by simp only [StreamState.recvView, hfc]) hfinal

/-- The sum of the highest offsets of all streams. -/
def totalReceived (t : Transport) : Nat :=
  t.streams.streams.total fun _ st => st.flowControl.received

theorem contribution_received (t : Transport) (sid : Nat) :
    t.streams.streams.contribution (fun _ st => st.flowControl.received) sid =
      (viewOf t sid).received := by
  unfold OrdMap.contribution viewOf StreamManager.get
  cases t.streams.streams.find? sid <;> rfl

theorem Transport.StepCases.conn_received (h : Transport.StepCases t e r u)
    (he : ∀ f, e ≠ .frame (.stream f)) : u.flowControl.received = t.flowControl.received := by
  cases h with
  | quiet _ hsame => exact hsame.received
  | opened _ _ _ => rfl
  | stream _ _ _ => exact absurd rfl (he _)
  | reset hacc _ _ | stopSending hacc _ _ => exact congrArg _ hacc.flowControl
  | acknowledged _ => rfl
  | write _ _ _ _ _ _ => rfl
  | read _ _ => rfl

theorem RecvChange.received_eq (h : RecvChange t sid e r u)
    (he : ∀ f, e = .frame (.stream f) → f.streamId ≠ sid) :
    (viewOf u sid).received = (viewOf t sid).received := by
  cases h with
  | same _ hview => rw [viewOf, hview, viewOf]
  | created _ hnone hget hfresh =>
    obtain ⟨direction, isLocal, sendMax, recvMax, rfl⟩ := hfresh
    rw [viewOf, hget, viewOf, hnone]
    rfl
  | stream hsid _ _ _ => exact absurd hsid (he _ rfl)
  | reset hbefore hget hrecv =>
    obtain ⟨-, -, -, hfc, -⟩ := receiveResetStream_spec hrecv
    rw [viewOf_some hget]
    rcases hbefore with hst | ⟨hnone, direction, isLocal, sendMax, recvMax, rfl⟩
    · rw [viewOf_some hst]
      simp only [StreamState.recvView, hfc]
    · simp only [StreamState.recvView, hfc, viewOf, hnone]
      rfl
  | read hst hget hread =>
    rw [viewOf_some hget, viewOf_some hst]
    simp only [StreamState.recvView, (receiveRead_keeps hread).1]

theorem totalReceived_step (h : Transport.StepCases t e r u) :
    u.flowControl.received + totalReceived t = t.flowControl.received + totalReceived u := by
  by_cases he : ∃ f, e = .frame (.stream f)
  · obtain ⟨f, rfl⟩ := he
    have hothers : ∀ j, j ≠ f.streamId →
        u.streams.streams.contribution (fun _ st => st.flowControl.received) j =
          t.streams.streams.contribution (fun _ st => st.flowControl.received) j := by
      intro j hj
      rw [contribution_received, contribution_received]
      refine (h.recvChange j).received_eq ?_
      grind
    have hupdate := OrdMap.total_update f.streamId hothers
    rw [contribution_received, contribution_received] at hupdate
    have hcharged : u.flowControl.received + (viewOf t f.streamId).received =
        t.flowControl.received + (viewOf u f.streamId).received := by
      cases h.recvChange f.streamId with
      | same hsilent _ | created hsilent _ _ _ => exact absurd rfl hsilent
      | stream _ hbefore hget hrecv =>
        rw [viewOf_some hget]
        rcases hbefore with hst | ⟨hnone, direction, isLocal, sendMax, recvMax, rfl⟩
        · rw [viewOf_some hst]
          exact hrecv.charged
        · rw [viewOf, hnone]
          exact hrecv.charged
    unfold totalReceived
    omega
  · have hother : ∀ f, e ≠ .frame (.stream f) := fun f hf => he ⟨f, hf⟩
    have htotal : totalReceived u = totalReceived t := by
      refine OrdMap.total_congr fun j => ?_
      rw [contribution_received, contribution_received]
      exact (h.recvChange j).received_eq fun f hf => absurd hf (hother f)
    rw [h.conn_received hother, htotal]

/-- What holds in every run: the views of all streams and the sum of their offsets. -/
structure LedgerInv (tr : TransportTrace) (t : Transport) : Prop where
  numbered : t.streams.Numbered
  views : ∀ sid, LedgerView sid tr (viewOf t sid)
  total : t.flowControl.received = totalReceived t

theorem LedgerInv.step (h : LedgerInv tr t) (hstep : t.step e = some (r, u)) :
    LedgerInv (tr ++ [(e, r)]) u := by
  have hcases := Transport.step_cases h.numbered hstep
  refine ⟨hcases.numbered h.numbered, fun sid => (h.views sid).step (hcases.recvChange sid), ?_⟩
  have htotal := totalReceived_step hcases
  have := h.total
  omega

theorem LedgerInv.exact_iff (h : LedgerInv tr t) :
    LedgerExact tr t ↔ ∀ sid n, (viewOf t sid).finalSize = some n → n ≤ (viewOf t sid).received := by
  have hle : ∀ x ∈ t.streams.streams.entries, x.2.flowControl.received ≤ dueFor x.1 tr := by
    intro x hx
    have hst : t.streams.get x.1 = some x.2 := OrdMap.find?_eq_some_iff.mpr hx
    rw [(h.views x.1).dueFor_eq, viewOf_some hst]
    exact Nat.le_max_left _ _
  have hiff := OrdMap.total_eq_iff (f := fun _ (st : StreamState) => st.flowControl.received)
    (g := fun sid _ => dueFor sid tr) hle
  constructor
  · intro hexact sid n hn
    cases hst : t.streams.get sid with
    | none => simp [viewOf, hst, emptyView] at hn
    | some st =>
      have heq := hiff.mp (h.total.symm.trans hexact.balance) (sid, st)
        (OrdMap.find?_eq_some_iff.mp hst)
      rw [(h.views sid).dueFor_eq, hn] at heq
      rw [viewOf_some hst] at heq ⊢
      grind [StreamState.recvView]
  · intro hfinal
    refine ⟨?_, ?_, ?_, fun sid => (h.views sid).not_below⟩
    · rw [h.total]
      refine hiff.mpr fun x hx => ?_
      have hst : t.streams.get x.1 = some x.2 := OrdMap.find?_eq_some_iff.mpr hx
      have hx' := hfinal x.1
      rw [(h.views x.1).dueFor_eq]
      rw [viewOf_some hst] at hx' ⊢
      cases hfs : x.2.finalSize with
      | none => simp [StreamState.recvView, hfs]
      | some n =>
        grind [StreamState.recvView]
    · intro sid hnone
      rw [(h.views sid).dueFor_eq, viewOf, hnone]
      rfl
    · intro sid n hn k hk
      have hn' := (h.views sid).fixed n hn
      exact Option.some.inj (hn'.symm.trans ((h.views sid).fixed k hk))

theorem LedgerInv.new (side : Side) (maxBidi maxUni maxStreamData maxData : Nat) :
    LedgerInv [] (Transport.new side maxBidi maxUni maxStreamData maxData) :=
  ⟨StreamManager.new_numbered side maxBidi maxUni maxStreamData, fun sid => ledgerView_empty sid, rfl⟩

theorem LedgerInv.within_step_iff (h : LedgerInv tr t) (hstep : t.step e = some (r, u))
    (hwithin : ∀ sid n, (viewOf t sid).finalSize = some n → n ≤ (viewOf t sid).received) :
    (∀ sid n, (viewOf u sid).finalSize = some n → n ≤ (viewOf u sid).received) ↔
      ResetWithinReceived t e := by
  have hcases := Transport.step_cases h.numbered hstep
  -- every stream on which no RESET_STREAM frame arrives keeps within what was received
  have hother : ∀ sid, (∀ code n, e ≠ .frame (.resetStream sid code n)) →
      ∀ n, (viewOf u sid).finalSize = some n → n ≤ (viewOf u sid).received := by
    intro sid hreset n
    have hold := hwithin sid n
    cases hcases.recvChange sid with
    | same _ hview => rwa [show viewOf u sid = viewOf t sid by rw [viewOf, hview, viewOf]]
    | created _ hnone hget hfresh =>
      obtain ⟨direction, isLocal, sendMax, recvMax, rfl⟩ := hfresh
      rw [viewOf, hget]
      exact fun hn => by cases hn
    | @stream f st st' u hsid hbefore hget hrecv =>
      rw [viewOf_some hget]
      simp only [StreamState.recvView, hrecv.finalSize, hrecv.received]
      split
      · grind
      · intro hn
        rcases hbefore with hst | ⟨hnone, direction, isLocal, sendMax, recvMax, rfl⟩
        · rw [viewOf_some hst] at hold
          exact Nat.le_trans (hold hn) (Nat.le_max_left _ _)
        · cases hn
    | reset _ _ _ => exact absurd rfl (hreset _ _)
    | read hst hget hread =>
      obtain ⟨hfc, hfinal, -⟩ := receiveRead_keeps hread
      rw [viewOf_some hst] at hold
      rw [viewOf_some hget]
      simpa only [StreamState.recvView, hfc, hfinal] using hold
  by_cases he : ∃ sid code n, e = .frame (.resetStream sid code n)
  · obtain ⟨sid, code, n, rfl⟩ := he
    have hreceived : (viewOf t sid).received =
        ((t.streams.get sid).map fun st => st.flowControl.received).getD 0 := by
      rw [viewOf]
      cases t.streams.get sid <;> rfl
    have hsame := (hcases.recvChange sid).received_eq fun f hf => by cases hf
    have hfinal : (viewOf u sid).finalSize = some n := by
      have hview := (h.step hstep).views sid
      refine hview.fixed n ?_
      rw [finalSizes_snoc]
      simp [fixedBy]
    grind [ResetWithinReceived]
  · refine iff_of_true (fun sid => hother sid fun code n heq => he ⟨sid, code, n, heq⟩) ?_
    cases e with
    | frame frame =>
      cases frame with
      | resetStream sid code n => exact absurd ⟨sid, code, n, rfl⟩ he
      | _ => trivial
    | _ => trivial

theorem ledger_run {side : Side} {maxBidi maxUni maxStreamData maxData : Nat}
    (hrun : Run Transport.step ResetWithinReceived (Transport.new side maxBidi maxUni maxStreamData maxData) tr t)
    :
    LedgerInv tr t ∧
      ∀ sid n, (viewOf t sid).finalSize = some n → n ≤ (viewOf t sid).received := by
  refine hrun.invariant (I := fun tr t => LedgerInv tr t ∧
    ∀ sid n, (viewOf t sid).finalSize = some n → n ≤ (viewOf t sid).received) ?_ ?_
  · exact ⟨LedgerInv.new side maxBidi maxUni maxStreamData maxData, fun sid n hn => by cases hn⟩
  · rintro tr t e r u ⟨hinv, hwithin⟩ hok hstep
    exact ⟨hinv.step hstep, (hinv.within_step_iff hstep hwithin).mpr hok⟩

/-- The ledger is right as long as every RESET_STREAM frame names a final size that
has been received already; the first one that does not makes it wrong. -/
theorem ledger_exact_iff {side : Side} {maxBidi maxUni maxStreamData maxData : Nat}
    {tr : TransportTrace} {t : Transport}
    (hrun : Run Transport.step ResetWithinReceived
      (Transport.new side maxBidi maxUni maxStreamData maxData) tr t) :
    LedgerExact tr t ∧ ∀ e r u, t.step e = some (r, u) →
      (LedgerExact (tr ++ [(e, r)]) u ↔ ResetWithinReceived t e) := by
  obtain ⟨hinv, hwithin⟩ := ledger_run hrun
  refine ⟨hinv.exact_iff.mpr hwithin, ?_⟩
  intro e r u hstep
  rw [(hinv.step hstep).exact_iff, hinv.within_step_iff hstep hwithin]

/-- Two bytes arrive and the stream is reset at their end. -/
theorem ledger_exact_reset_at_end : ∃ t u,
    (Transport.new .server 1 1 10 10).step (.frame (.stream ⟨0, 0, false, [10, 20]⟩)) =
      some (.done, t) ∧
    t.step (.frame (.resetStream 0 7 2)) = some (.done, u) ∧
    LedgerExact [(.frame (.stream ⟨0, 0, false, [10, 20]⟩), .done),
      (.frame (.resetStream 0 7 2), .done)] u := by
  refine ⟨_, _, rfl, rfl, (ledger_exact_iff (((Run.nil (s := Transport.new .server 1 1 10 10)).push
    (TransportEvent.frame (.stream ⟨0, 0, false, [10, 20]⟩)) rfl trivial).push
    (TransportEvent.frame (.resetStream 0 7 2)) rfl ?_)).1⟩
  exact Nat.le_refl 2

/-- A stream is reset with final size 5 before any byte of it arrived: nothing is
charged to the connection. -/
theorem reset_is_not_charged : ∃ tr t,
    Run Transport.step (fun _ _ => True) (Transport.new .server 1 1 10 10) tr t ∧
      ¬ LedgerExact tr t := by
  refine ⟨_, _, Run.nil.push (TransportEvent.frame (.resetStream 0 7 5)) rfl trivial, ?_⟩
  intro hexact
  have hbalance := hexact.balance
  revert hbalance
  decide

end Starfish.Quic
