import Mathlib.Algebra.BigOperators.Group.Finset.Piecewise
import Starfish.Quic.Connection.Credit

/-!
# Send credit

What the application may write is bounded by two windows, that of the stream and that of
the connection, which are charged together. Over every run from the moment at which the
limits of the peer are known, neither limit is overrun, on any stream that ever existed.
-/

namespace Starfish.Quic

def acceptedWrite : StreamLifeEvent × TransportResponse → Option (Nat × Nat)
  | (.call (.send _ _ sid _ _), .sent len) => some (sid, len)
  | _ => none

def acceptedBy (sid : Nat) (x : StreamLifeEvent × TransportResponse) : Nat :=
  match acceptedWrite x with
  | some (id, len) => if sid = id then len else 0
  | none => 0

def acceptedOn (sid : Nat) (tr : LifeTrace) : Nat := (tr.map (acceptedBy sid)).sum

def acceptedTotal (tr : LifeTrace) : Nat :=
  (tr.map fun x => ((acceptedWrite x).map Prod.snd).getD 0).sum

def streamGrant (isLocal : Bool) (sid : Nat) : StreamLifeEvent → Nat
  | .frame (.maxStreamData id n) => if id = sid then n else 0
  | .call (.peerLimits limits) => limits.forStream isLocal sid
  | _ => 0

def dataGrant : StreamLifeEvent → Nat
  | .frame (.maxData n) => n
  | .call (.peerLimits limits) => limits.initialMaxData
  | _ => 0

def largestStreamGrant (limits : PeerLimits) (isLocal : Bool) (sid : Nat) (tr : LifeTrace) : Nat :=
  tr.foldl (fun n x => max n (streamGrant isLocal sid x.1)) (limits.forStream isLocal sid)

def largestDataGrant (limits : PeerLimits) (tr : LifeTrace) : Nat :=
  tr.foldl (fun n x => max n (dataGrant x.1)) limits.initialMaxData

/-! ## How the quantities grow -/

section

variable (tr : LifeTrace) (x : StreamLifeEvent × TransportResponse)

theorem acceptedOn_concat (sid : Nat) :
    acceptedOn sid (tr ++ [x]) = acceptedOn sid tr + acceptedBy sid x := by
  simp [acceptedOn]

theorem acceptedTotal_concat :
    acceptedTotal (tr ++ [x]) = acceptedTotal tr + ((acceptedWrite x).map Prod.snd).getD 0 := by
  simp [acceptedTotal]

theorem largestStreamGrant_concat (limits : PeerLimits) (isLocal : Bool) (sid : Nat) :
    largestStreamGrant limits isLocal sid (tr ++ [x]) =
      max (largestStreamGrant limits isLocal sid tr) (streamGrant isLocal sid x.1) :=
  List.foldl_concat ..

theorem largestDataGrant_concat (limits : PeerLimits) :
    largestDataGrant limits (tr ++ [x]) = max (largestDataGrant limits tr) (dataGrant x.1) :=
  List.foldl_concat ..

theorem sum_acceptedBy {n : Nat} (h : ∀ sid, n ≤ sid → acceptedBy sid x = 0) :
    ∑ sid ∈ Finset.range n, acceptedBy sid x = ((acceptedWrite x).map Prod.snd).getD 0 := by
  unfold acceptedBy at h ⊢
  cases hwrite : acceptedWrite x with
  | none => simp
  | some write =>
    rw [hwrite] at h
    dsimp only at h ⊢
    rw [Finset.sum_ite_eq']
    split
    · rfl
    · next hout =>
      have hzero := h write.1 (by simpa using hout)
      rw [if_pos rfl] at hzero
      exact hzero.symm

end

theorem acceptedTotal_eq_sum {tr : LifeTrace} {n : Nat}
    (h : ∀ sid, n ≤ sid → acceptedOn sid tr = 0) :
    acceptedTotal tr = ∑ sid ∈ Finset.range n, acceptedOn sid tr := by
  induction tr using List.reverseRecOn with
  | nil => simp [acceptedTotal, acceptedOn]
  | append_singleton tr x ih =>
    have hboth : ∀ sid, n ≤ sid → acceptedOn sid tr = 0 ∧ acceptedBy sid x = 0 := by
      grind [acceptedOn_concat]
    rw [acceptedTotal_concat, ih fun sid hsid => (hboth sid hsid).1,
      ← sum_acceptedBy x fun sid hsid => (hboth sid hsid).2, ← Finset.sum_add_distrib]
    simp [acceptedOn_concat]

/-! ## The invariant -/

def Account.Unsent (a : Account) : Prop := a.flowControl.sent = 0 ∧ a.sendOffset = 0

/-- Nothing has been sent yet. -/
structure Credit.Unsent (c : Credit) : Prop where
  connection : c.connection.sent = 0
  account : ∀ sid a, c.account sid = some a → a.Unsent
  newAccount : ∀ sid, (c.newAccount sid).Unsent

/-- The books agree with what was accepted and granted so far. -/
structure SendBooks (limits : PeerLimits) (tr : LifeTrace) (c : Credit) : Prop where
  used : ∀ sid a, c.account sid = some a → c.used sid
  unused : ∀ sid, ¬ c.used sid → acceptedOn sid tr = 0
  offset : ∀ sid a, c.account sid = some a →
    a.flowControl.sent = a.sendOffset ∧ a.sendOffset = acceptedOn sid tr
  limit : ∀ sid a, c.account sid = some a →
    a.flowControl.sendMax ≤ largestStreamGrant limits (c.isLocal sid) sid tr
  within : ∀ sid, acceptedOn sid tr ≤ largestStreamGrant limits (c.isLocal sid) sid tr
  newAccount : ∀ sid, (c.newAccount sid).Unsent ∧
    (c.newAccount sid).flowControl.sendMax ≤ largestStreamGrant limits (c.isLocal sid) sid tr
  total : c.connection.sent = acceptedTotal tr
  connection_limit : c.connection.sendMax ≤ largestDataGrant limits tr
  connection_within : c.connection.sent ≤ largestDataGrant limits tr

namespace Credit

variable {c c' : Credit} {tr : LifeTrace} {limits : PeerLimits}

theorem Unsent.opens (h : c.Unsent) (hopens : c.Opens c') : c'.Unsent where
  connection := by rw [hopens.connection, h.connection]
  account := fun sid a ha => by
    grind [cases Opens, cases Unsent]
  newAccount := by rw [hopens.newAccount]; exact h.newAccount

end Credit

structure FlowControl.SameSend (fc fc' : FlowControl) : Prop where
  sent : fc'.sent = fc.sent
  sendMax : fc'.sendMax = fc.sendMax

theorem StreamFlowControl.onDataReceived_sameSend (fc : StreamFlowControl) (offset len : Nat) :
    FlowControl.SameSend fc (StreamFlowControl.onDataReceived fc offset len).2 := by
  unfold StreamFlowControl.onDataReceived
  split <;> exact ⟨rfl, rfl⟩

theorem FlowControl.extend_sameSend (fc : FlowControl) : fc.SameSend fc.extend := by
  unfold extend
  split <;> exact ⟨rfl, rfl⟩

theorem FlowControl.updateFromBlocked_sameSend (fc : FlowControl) (n : Nat) :
    fc.SameSend (fc.updateFromBlocked n).2 := by
  unfold updateFromBlocked
  dsimp only
  split
  · exact ⟨rfl, rfl⟩
  · split <;> exact ⟨rfl, rfl⟩

theorem Account.extend_sameSend (a : Account) :
    a.flowControl.SameSend a.extend.flowControl ∧ a.extend.sendOffset = a.sendOffset := by
  unfold extend
  split
  · exact ⟨a.flowControl.extend_sameSend, rfl⟩
  · exact ⟨⟨rfl, rfl⟩, rfl⟩

namespace SendBooks

variable {c c' : Credit} {tr : LifeTrace} {limits : PeerLimits}

theorem opens (h : SendBooks limits tr c) (hopens : c.Opens c') :
    SendBooks limits tr c' where
  used := fun sid a ha => by
    grind [cases Credit.Opens, cases SendBooks]
  unused := fun sid hunused => h.unused sid fun hused => hunused (hopens.used sid hused)
  offset := fun sid a ha => by
    rcases hopens.account_cases ha with hold | ⟨hunused, -, rfl⟩
    · exact h.offset sid a hold
    · rw [h.unused sid hunused, (h.newAccount sid).1.1, (h.newAccount sid).1.2]
      exact ⟨rfl, rfl⟩
  limit := fun sid a ha => by
    grind [cases Credit.Opens, cases SendBooks]
  within := by rw [hopens.isLocal]; exact h.within
  newAccount := by rw [hopens.isLocal, hopens.newAccount]; exact h.newAccount
  total := by rw [hopens.connection, h.total]
  connection_limit := by rw [hopens.connection]; exact h.connection_limit
  connection_within := by rw [hopens.connection]; exact h.connection_within

/-! ## Steps -/

theorem silent (h : SendBooks limits tr c) {x : StreamLifeEvent × TransportResponse}
    (hx : acceptedWrite x = none) : SendBooks limits (tr ++ [x]) c := by
  have haccepted : ∀ sid, acceptedOn sid (tr ++ [x]) = acceptedOn sid tr := by
    intro sid
    rw [acceptedOn_concat, acceptedBy, hx]
    rfl
  have htotal : acceptedTotal (tr ++ [x]) = acceptedTotal tr := by
    rw [acceptedTotal_concat, hx]
    rfl
  have hstream : ∀ sid, largestStreamGrant limits (c.isLocal sid) sid tr ≤
      largestStreamGrant limits (c.isLocal sid) sid (tr ++ [x]) := by
    simp [largestStreamGrant_concat]
  have hdata : largestDataGrant limits tr ≤ largestDataGrant limits (tr ++ [x]) := by
    rw [largestDataGrant_concat]
    exact Nat.le_max_left _ _
  exact {
    used := h.used
    unused := fun sid hsid => (haccepted sid).trans (h.unused sid hsid)
    offset := fun sid a ha => by rw [haccepted]; exact h.offset sid a ha
    limit := fun sid a ha => Nat.le_trans (h.limit sid a ha) (hstream sid)
    within := fun sid => by rw [haccepted]; exact Nat.le_trans (h.within sid) (hstream sid)
    newAccount := fun sid => ⟨(h.newAccount sid).1, Nat.le_trans (h.newAccount sid).2 (hstream sid)⟩
    total := h.total.trans htotal.symm
    connection_limit := Nat.le_trans h.connection_limit hdata
    connection_within := Nat.le_trans h.connection_within hdata }

theorem setAccount (h : SendBooks limits tr c) {sid : Nat} {a : Account} (a' : Account)
    (ha : c.account sid = some a) (hsent : a'.flowControl.sent = a.flowControl.sent)
    (hoffset : a'.sendOffset = a.sendOffset)
    (hlimit : a'.flowControl.sendMax ≤ largestStreamGrant limits (c.isLocal sid) sid tr) :
    SendBooks limits tr (c.setAccount sid a') := by
  have hcases : ∀ j b, (c.setAccount sid a').account j = some b →
      j = sid ∧ b = a' ∨ c.account j = some b := by
    grind [Credit.setAccount_account]
  exact { h with
    used := fun j b hb => by
      rcases hcases j b hb with ⟨rfl, -⟩ | hold
      · exact h.used j a ha
      · exact h.used j b hold
    offset := fun j b hb => by
      grind [cases SendBooks]
    limit := fun j b hb => by
      rcases hcases j b hb with ⟨rfl, rfl⟩ | hold
      · exact hlimit
      · exact h.limit j b hold }

theorem mapAccounts (h : SendBooks limits tr c) {f : Nat → Account → Account}
    (hf : ∀ sid a, (f sid a).flowControl.sent = a.flowControl.sent ∧
      (f sid a).sendOffset = a.sendOffset ∧
      (a.flowControl.sendMax ≤ largestStreamGrant limits (c.isLocal sid) sid tr →
        (f sid a).flowControl.sendMax ≤ largestStreamGrant limits (c.isLocal sid) sid tr)) :
    SendBooks limits tr { c with account := fun sid => (c.account sid).map (f sid) } where
  used := fun sid a ha => by
    obtain ⟨b, hb, -⟩ := Option.map_eq_some_iff.mp ha
    exact h.used sid b hb
  unused := h.unused
  offset := fun sid a ha => by
    obtain ⟨b, hb, rfl⟩ := Option.map_eq_some_iff.mp ha
    rw [(hf sid b).1, (hf sid b).2.1]
    exact h.offset sid b hb
  limit := fun sid a ha => by
    obtain ⟨b, hb, rfl⟩ := Option.map_eq_some_iff.mp ha
    exact (hf sid b).2.2 (h.limit sid b hb)
  within := h.within
  newAccount := h.newAccount
  total := h.total
  connection_limit := h.connection_limit
  connection_within := h.connection_within

theorem setConnection (h : SendBooks limits tr c) (fc : ConnectionFlowControl)
    (hsent : fc.sent = c.connection.sent) (hlimit : fc.sendMax ≤ largestDataGrant limits tr) :
    SendBooks limits tr { c with connection := fc } :=
  { h with
    total := hsent.trans h.total
    connection_limit := hlimit
    connection_within := hsent ▸ h.connection_within }

theorem send (h : SendBooks limits tr c) {x : StreamLifeEvent × TransportResponse}
    {sid len : Nat} {a : Account} (hx : acceptedWrite x = some (sid, len))
    (ha : c.account sid = some a) (hstream : len ≤ a.flowControl.sendWindow)
    (hconnection : len ≤ c.connection.sendWindow) :
    SendBooks limits (tr ++ [x]) (c.send sid a len) := by
  have haccepted : ∀ j, acceptedOn j (tr ++ [x]) = acceptedOn j tr + if j = sid then len else 0 := by
    intro j
    rw [acceptedOn_concat, acceptedBy, hx]
  have htotal : acceptedTotal (tr ++ [x]) = acceptedTotal tr + len := by
    rw [acceptedTotal_concat, hx]
    rfl
  have hgrant : ∀ isLocal j, largestStreamGrant limits isLocal j tr ≤
      largestStreamGrant limits isLocal j (tr ++ [x]) := by
    simp [largestStreamGrant_concat]
  have hdata : largestDataGrant limits tr ≤ largestDataGrant limits (tr ++ [x]) := by
    rw [largestDataGrant_concat]
    exact Nat.le_max_left _ _
  have hoffset := h.offset sid a ha
  have hlimit := h.limit sid a ha
  have hconn := h.connection_limit
  have hconn' := h.connection_within
  unfold FlowControl.sendWindow at hstream hconnection
  have hcases : ∀ j b, (c.send sid a len).account j = some b →
      j = sid ∧ b = a.send len ∨ j ≠ sid ∧ c.account j = some b := by
    intro j b hb
    rw [Credit.send] at hb
    grind [Credit.setAccount_account]
  exact {
    used := fun j b hb => by
      rcases hcases j b hb with ⟨rfl, -⟩ | ⟨-, hold⟩
      · exact h.used j a ha
      · exact h.used j b hold
    unused := fun j hj => by
      have hne : j ≠ sid := fun heq => hj (heq ▸ h.used sid a ha)
      rw [haccepted, if_neg hne]
      exact h.unused j hj
    offset := fun j b hb => by
      rcases hcases j b hb with ⟨rfl, rfl⟩ | ⟨hne, hold⟩
      · rw [haccepted, if_pos rfl]
        dsimp only [Account.send, Account.change, FlowControl.onDataSent]
        omega
      · rw [haccepted, if_neg hne]
        exact h.offset j b hold
    limit := fun j b hb => by
      rcases hcases j b hb with ⟨rfl, rfl⟩ | ⟨-, hold⟩
      · exact Nat.le_trans hlimit (hgrant _ _)
      · exact Nat.le_trans (h.limit j b hold) (hgrant _ _)
    within := fun j => by
      grind [cases SendBooks, Credit.send, Credit.setAccount]
    newAccount := fun j => ⟨(h.newAccount j).1, Nat.le_trans (h.newAccount j).2 (hgrant _ _)⟩
    total := by
      rw [htotal, ← h.total]
      rfl
    connection_limit := Nat.le_trans hconn hdata
    connection_within := by
      dsimp only [Credit.send, FlowControl.onDataSent]
      omega }

theorem step (h : SendBooks limits tr c) {e : StreamLifeEvent} {r : TransportResponse}
    (hstep : c.Step e r c') : SendBooks limits (tr ++ [(e, r)]) c' := by
  cases hstep with
  | idle hidle =>
    apply h.silent
    unfold acceptedWrite
    split
    · next heq =>
      cases heq
      exact hidle.elim
    · rfl
  | send ha hlen => exact h.send rfl ha (by omega) (by omega)
  | maxData =>
    next n =>
    have hnext := h.silent (x := (.frame (.maxData n), r)) rfl
    refine hnext.setConnection _ (FlowControl.updateSendMax_sent _ _) ?_
    have hlimit := hnext.connection_limit
    rw [largestDataGrant_concat] at hlimit ⊢
    unfold FlowControl.updateSendMax
    split
    · exact Nat.le_max_right _ _
    · exact hlimit
  | maxStreamData ha =>
    next sid n a =>
    have hnext := h.silent (x := (.frame (.maxStreamData sid n), r)) rfl
    refine hnext.setAccount _ ha (FlowControl.updateSendMax_sent _ _) rfl ?_
    have hlimit := hnext.limit _ _ ha
    rw [largestStreamGrant_concat] at hlimit ⊢
    dsimp only [Account.change, streamGrant] at hlimit ⊢
    rw [if_pos rfl] at hlimit ⊢
    grind [FlowControl.updateSendMax]
  | peerLimits =>
    next granted =>
    have hnext := h.silent (x := (.call (.peerLimits granted), r)) rfl
    have hgrant : ∀ sid, granted.forStream (c.isLocal sid) sid ≤
        largestStreamGrant limits (c.isLocal sid) sid (tr ++ [(.call (.peerLimits granted), r)]) := by
      intro sid
      rw [largestStreamGrant_concat]
      exact Nat.le_max_right _ _
    have hdata : granted.initialMaxData ≤
        largestDataGrant limits (tr ++ [(.call (.peerLimits granted), r)]) := by
      rw [largestDataGrant_concat]
      exact Nat.le_max_right _ _
    have hmap := hnext.mapAccounts (f := fun sid a =>
      a.change (·.setSendMax (granted.forStream (c.isLocal sid) sid)))
      fun sid a => ⟨rfl, rfl, fun _ => hgrant sid⟩
    have hconn := hmap.setConnection (c.connection.setSendMax granted.initialMaxData) rfl hdata
    exact { hconn with newAccount := fun sid => ⟨(h.newAccount sid).1, hgrant sid⟩ }
  | receive ha hchecked =>
    next f a =>
    have hnext := h.silent (x := (.frame (.stream f), r)) rfl
    have hsame := StreamFlowControl.onDataReceived_sameSend a.flowControl f.offset f.data.length
    have hset := hnext.setAccount
      (a.change fun fc => (StreamFlowControl.onDataReceived fc f.offset f.data.length).2) ha
      hsame.sent rfl (hsame.sendMax ▸ hnext.limit _ _ ha)
    exact hset.setConnection _ rfl hnext.connection_limit
  | extend =>
    have hnext := h.silent (x := (.call .flowControlUpdates, r)) rfl
    have hmap := hnext.mapAccounts (f := fun _ => Account.extend) fun sid a => by
      have hsame := a.extend_sameSend
      exact ⟨hsame.1.sent, hsame.2, fun hle => hsame.1.sendMax ▸ hle⟩
    have hsame := c.connection.extend_sameSend
    exact hmap.setConnection _ hsame.sent (hsame.sendMax ▸ hnext.connection_limit)
  | dataBlocked =>
    next n =>
    have hnext := h.silent (x := (.frame (.dataBlocked n), r)) rfl
    have hsame := c.connection.updateFromBlocked_sameSend n
    exact hnext.setConnection _ hsame.sent (hsame.sendMax ▸ hnext.connection_limit)
  | streamDataBlocked ha hreceives =>
    next sid n a =>
    have hnext := h.silent (x := (.frame (.streamDataBlocked sid n), r)) rfl
    have hsame := a.flowControl.updateFromBlocked_sameSend n
    exact hnext.setAccount _ ha hsame.sent rfl (hsame.sendMax ▸ hnext.limit _ _ ha)

end SendBooks

theorem Credit.Unsent.step {c c' : Credit} (h : c.Unsent) {e : StreamLifeEvent}
    {r : TransportResponse} (hstep : c.Step e r c') (hsend : acceptedWrite (e, r) = none) :
    c'.Unsent := by
  have hset : ∀ {sid : Nat} {a : Account} (a' : Account), c.account sid = some a → a'.Unsent →
      (c.setAccount sid a').Unsent := by
    intro sid a a' ha ha'
    refine ⟨h.connection, fun j b hb => ?_, h.newAccount⟩
    grind [cases Unsent, Credit.setAccount_account]
  cases hstep with
  | idle => exact h
  | send => cases hsend
  | maxData => exact { h with connection := (FlowControl.updateSendMax_sent _ _).trans h.connection }
  | maxStreamData ha =>
    have hold := h.account _ _ ha
    exact hset _ ha ⟨(FlowControl.updateSendMax_sent _ _).trans hold.1, hold.2⟩
  | peerLimits =>
    refine ⟨h.connection, fun sid a ha => ?_, h.newAccount⟩
    obtain ⟨b, hb, rfl⟩ := Option.map_eq_some_iff.mp ha
    exact h.account sid b hb
  | receive ha hchecked =>
    next f a =>
    have hold := h.account _ _ ha
    have hsame := StreamFlowControl.onDataReceived_sameSend a.flowControl f.offset f.data.length
    have hnext := hset (a.change fun fc =>
      (StreamFlowControl.onDataReceived fc f.offset f.data.length).2) ha
      ⟨hsame.sent.trans hold.1, hold.2⟩
    exact ⟨h.connection, hnext.account, hnext.newAccount⟩
  | extend =>
    refine ⟨c.connection.extend_sameSend.sent.trans h.connection, fun sid a ha => ?_, h.newAccount⟩
    obtain ⟨b, hb, rfl⟩ := Option.map_eq_some_iff.mp ha
    have hold := h.account sid b hb
    exact ⟨b.extend_sameSend.1.sent.trans hold.1, b.extend_sameSend.2.trans hold.2⟩
  | dataBlocked =>
    exact { h with
      connection := (FlowControl.updateFromBlocked_sameSend _ _).sent.trans h.connection }
  | streamDataBlocked ha =>
    have hold := h.account _ _ ha
    exact hset _ ha ⟨(FlowControl.updateFromBlocked_sameSend _ _).sent.trans hold.1, hold.2⟩

/-! ## Whole runs -/

theorem Credit.Unsent.new (side : Side) (maxBidi maxUni initialMaxStreamData initialMaxData : Nat) :
    (StreamLife.new side maxBidi maxUni initialMaxStreamData initialMaxData).transport.credit.Unsent :=
  ⟨rfl, fun _ _ h => (by cases h), fun _ => ⟨rfl, rfl⟩⟩

def StreamLifeEvent.isSend : StreamLifeEvent → Bool
  | .call (.send _ _ _ _ _) => true
  | _ => false

theorem acceptedWrite_of_not_isSend {e : StreamLifeEvent} (h : e.isSend = false)
    (r : TransportResponse) : acceptedWrite (e, r) = none := by
  unfold acceptedWrite
  split
  · next heq =>
    cases heq
    cases h
  · rfl

theorem SendBooks.init {c : Credit} (limits : PeerLimits) (h : c.Unsent)
    (hused : ∀ sid a, c.account sid = some a → c.used sid) :
    SendBooks limits [] (c.applyLimits limits) where
  used := fun sid a ha => by
    obtain ⟨b, hb, -⟩ := Option.map_eq_some_iff.mp ha
    exact hused sid b hb
  unused := fun _ _ => rfl
  offset := fun sid a ha => by
    obtain ⟨b, hb, rfl⟩ := Option.map_eq_some_iff.mp ha
    have hold := h.account sid b hb
    exact ⟨hold.1.trans hold.2.symm, hold.2⟩
  limit := fun sid a ha => by
    obtain ⟨b, -, rfl⟩ := Option.map_eq_some_iff.mp ha
    exact Nat.le_refl _
  within := fun _ => Nat.zero_le _
  newAccount := fun sid => ⟨h.newAccount sid, Nat.le_refl _⟩
  total := h.connection
  connection_limit := Nat.le_refl _
  connection_within := by
    rw [show (c.applyLimits limits).connection.sent = 0 from h.connection]
    exact Nat.zero_le _

/-- The send credit of a connection: every stream has sent what was accepted on it and no more
than the peer has granted, the connection has sent what all streams together have, and a write
is accepted up to the smaller of the two windows. -/
structure SendCredit (limits : PeerLimits) (tr : LifeTrace) (t : Transport) : Prop where
  offset : ∀ sid st, t.streams.get sid = some st →
    st.flowControl.sent = st.sendOffset ∧ st.sendOffset = acceptedOn sid tr
  stream_within : ∀ sid, acceptedOn sid tr ≤
    largestStreamGrant limits (t.streams.isLocalInitiated sid) sid tr
  total : ∀ n, (∀ sid, t.streams.Used sid → sid < n) →
    t.flowControl.sent = ∑ sid ∈ Finset.range n, acceptedOn sid tr
  connection_within : t.flowControl.sent ≤ largestDataGrant limits tr
  accepts : ∀ state kind sid data fin len t',
    t.streamSend state kind sid data fin = (.ok len, t') →
    ∃ st, t.streams.get sid = some st ∧
      len = min data.length (min (st.flowControl.sendMax - st.sendOffset)
        (t.flowControl.sendMax - t.flowControl.sent))

theorem SendBooks.sendCredit {limits : PeerLimits} {tr : LifeTrace} {t : Transport}
    (h : SendBooks limits tr t.credit) : SendCredit limits tr t where
  offset := fun sid st hst => h.offset sid st.account (Transport.credit_account hst)
  stream_within := h.within
  total := fun n hn => by
    rw [show t.flowControl.sent = acceptedTotal tr from h.total]
    apply acceptedTotal_eq_sum
    intro sid hsid
    exact h.unused sid fun hused => Nat.not_lt.mpr hsid (hn sid hused)
  connection_within := h.connection_within
  accepts := fun state kind sid data fin len t' hsend => by
    have hstep := Transport.streamSend_credit hsend
    generalize t'.credit = c' at hstep
    cases hstep with
    | idle hidle => exact hidle.elim
    | send ha hlen =>
      cases hget : t.streams.get sid with
      | none =>
        rw [Transport.credit_account_none hget] at ha
        cases ha
      | some st =>
        rw [Transport.credit_account hget] at ha
        cases ha
        refine ⟨st, rfl, hlen.trans ?_⟩
        have hoffset : st.flowControl.sent = st.sendOffset :=
          (h.offset sid st.account (Transport.credit_account hget)).1
        rw [← hoffset]
        rfl

/-- In every run from the moment at which the peer's limits are applied, with any writes, any
MAX_DATA and MAX_STREAM_DATA frames and whatever else happens to the streams, no limit of the
peer is overrun. -/
theorem send_credit_never_overrun (side : Side) {maxBidi maxUni : Nat}
    (initialMaxStreamData initialMaxData : Nat) (hbidi : maxBidi ≤ u64Max) (huni : maxUni ≤ u64Max)
    {limits : PeerLimits} {before tr : LifeTrace} {s₀ s : StreamLife}
    (hbefore : Run StreamLife.step (fun _ e => e.isSend = false)
      (StreamLife.new side maxBidi maxUni initialMaxStreamData initialMaxData) before s₀)
    (hrun : Run StreamLife.step (fun _ _ => True)
      { s₀ with transport := s₀.transport.applyPeerLimits limits } tr s) :
    SendCredit limits tr s.transport := by
  obtain ⟨hsound, hunsent⟩ := StreamLife.credit_invariant (I := fun _ c => c.Unsent) hbefore
    (StreamLife.new_sound side initialMaxStreamData initialMaxData hbidi huni)
    (.new side maxBidi maxUni initialMaxStreamData initialMaxData) (fun _ _ _ h hopens => h.opens hopens)
    (fun _ _ _ _ e r h hsend _ hstep => h.step hstep (acceptedWrite_of_not_isSend hsend r))
  have hsound' : StreamLife.Sound { s₀ with transport := s₀.transport.applyPeerLimits limits } :=
    hsound.step (e := .call (.peerLimits limits)) rfl
  have hinit : SendBooks limits [] (s₀.transport.applyPeerLimits limits).credit := by
    rw [Transport.applyPeerLimits_credit]
    exact .init limits hunsent fun sid a => StreamLife.used_of_account hsound.tabled
  exact (StreamLife.credit_invariant hrun hsound' hinit (fun _ _ _ h hopens => h.opens hopens)
    (fun _ _ _ _ _ _ h _ _ hstep => h.step hstep)).2.sendCredit

def threeBytes : PeerLimits where
  initialMaxData := 3
  initialMaxStreamDataBidiLocal := 5
  initialMaxStreamDataBidiRemote := 5
  initialMaxStreamDataUni := 5
  initialMaxStreamsBidi := 1
  initialMaxStreamsUni := 1

/-- Of four bytes the connection accepts three, and a stale MAX_DATA does not take them back. -/
theorem three_of_four_accepted :
    ∃ tr s, acceptedOn 0 tr = 3 ∧ SendCredit threeBytes tr s := by
  have hnil : Run StreamLife.step (fun _ _ => True) { StreamLife.new .client 1 1 10 10 with
    transport := (StreamLife.new .client 1 1 10 10).transport.applyPeerLimits threeBytes } [] _ :=
    .nil
  have hopen := hnil.push (.call .openBidi) rfl trivial
  have hsend := hopen.push (.call (.send .connected (some .oneRtt) 0 [1, 2, 3, 4] false)) rfl trivial
  have hstale := hsend.push (.frame (.maxData 1)) rfl trivial
  exact ⟨_, _, rfl, send_credit_never_overrun .client 10 10 (by decide) (by decide) .nil hstale⟩

end Starfish.Quic
