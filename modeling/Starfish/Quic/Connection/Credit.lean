import Mathlib.Logic.Function.Basic
import Starfish.Quic.Connection.StreamLife
import Starfish.Quic.Connection.StreamSteps

/-!
# Credit

Flow control as a machine of its own: the counters of the connection, an account for each
stream, and one operation for each way in which credit is used, granted or advertised. Every
step of the streams of a connection is a step of this machine, perhaps after streams have
been opened or collected.
-/

namespace Starfish.Quic

/-- A round of updates: the limit is extended if half of the window is used. -/
def FlowControl.extend (fc : FlowControl) : FlowControl :=
  match fc.shouldSendMax with
  | none => fc
  | some newMax => fc.commitMax newMax

/-- What flow control knows of a stream. -/
structure Account where
  flowControl : StreamFlowControl
  sendOffset : Nat
  receives : Bool
deriving DecidableEq, Repr

namespace Account

def change (a : Account) (f : FlowControl → FlowControl) : Account :=
  { a with flowControl := f a.flowControl }

def send (a : Account) (len : Nat) : Account :=
  { a.change (·.onDataSent len) with sendOffset := a.sendOffset + len }

def extend (a : Account) : Account := if a.receives then a.change .extend else a

end Account

def PeerLimits.forStream (limits : PeerLimits) (isLocal : Bool) (sid : Nat) : Nat :=
  match streamDirection sid, isLocal with
  | .bidirectional, true => limits.initialMaxStreamDataBidiRemote
  | .bidirectional, false => limits.initialMaxStreamDataBidiLocal
  | .unidirectional, true => limits.initialMaxStreamDataUni
  | .unidirectional, false => 0

@[ext]
structure Credit where
  connection : ConnectionFlowControl
  account : Nat → Option Account
  /-- The account a stream starts with. -/
  newAccount : Nat → Account
  isLocal : Nat → Bool
  /-- The identifiers of the streams that have been opened so far. -/
  used : Nat → Prop

namespace TransportResponse

/-- What a caller is told about a frame. -/
def ofResult : Except QuicError Unit → TransportResponse
  | .ok () => .done
  | .error e => .refused e

/-- A frame was refused because the peer had exceeded a limit. -/
def overLimit : TransportResponse → Bool
  | .refused (.transport .flowControlError _) => true
  | _ => false

end TransportResponse

namespace Credit

def setAccount (c : Credit) (sid : Nat) (a : Account) : Credit :=
  { c with account := Function.update c.account sid (some a) }

def send (c : Credit) (sid : Nat) (a : Account) (len : Nat) : Credit :=
  { c.setAccount sid (a.send len) with connection := c.connection.onDataSent len }

/-- Data of the peer: the connection is charged with what is new to the stream. -/
def receive (c : Credit) (sid : Nat) (a : Account) (offset len : Nat) : Credit :=
  { c.setAccount sid (a.change fun fc => (StreamFlowControl.onDataReceived fc offset len).2) with
    connection := ConnectionFlowControl.onDataReceived c.connection
      (StreamFlowControl.onDataReceived a.flowControl offset len).1 }

def applyLimits (c : Credit) (limits : PeerLimits) : Credit :=
  let limited (sid : Nat) (a : Account) : Account :=
    a.change (·.setSendMax (limits.forStream (c.isLocal sid) sid))
  { c with
    connection := c.connection.setSendMax limits.initialMaxData
    account := fun sid => (c.account sid).map (limited sid)
    newAccount := fun sid => limited sid (c.newAccount sid) }

/-- A round of updates for the connection and all streams. -/
def extend (c : Credit) : Credit :=
  { c with
    connection := c.connection.extend
    account := fun sid => (c.account sid).map Account.extend }

/-- A round of updates for one stream. -/
def extendOne (c : Credit) (sid : Nat) : Credit :=
  { c with account := Function.update c.account sid ((c.account sid).map Account.extend) }

/-- Streams are opened with identifiers that are new, or collected. -/
structure Opens (c c' : Credit) : Prop where
  connection : c'.connection = c.connection
  newAccount : c'.newAccount = c.newAccount
  isLocal : c'.isLocal = c.isLocal
  used : ∀ sid, c.used sid → c'.used sid
  account : ∀ sid, c'.account sid = c.account sid ∨ c'.account sid = none ∨
    ¬ c.used sid ∧ c'.used sid ∧ c'.account sid = some (c.newAccount sid)

/-- Data of the peer keeps within the limits of the stream and of the connection. -/
def Checked (c : Credit) (a : Account) (offset len : Nat) : Prop :=
  (StreamFlowControl.onDataReceived a.flowControl offset len).2.checkRecvLimit = true ∧
    (ConnectionFlowControl.onDataReceived c.connection
      (StreamFlowControl.onDataReceived a.flowControl offset len).1).checkRecvLimit = true

def Idle (c : Credit) : StreamLifeEvent → TransportResponse → Prop
  | .frame (.maxData _), _ => False
  | .frame (.maxStreamData sid _), _ => c.account sid = none
  | .frame (.dataBlocked _), _ => False
  | .frame (.streamDataBlocked sid _), _ => ∀ a, c.account sid = some a → a.receives = false
  | .call (.peerLimits _), _ => False
  | .call .flowControlUpdates, _ => False
  | .call (.send _ _ _ _ _), .sent _ => False
  | _, _ => True

inductive Step (c : Credit) : StreamLifeEvent → TransportResponse → Credit → Prop
  | idle {e : StreamLifeEvent} {r : TransportResponse} (hidle : c.Idle e r) : c.Step e r c
  | send {state : ConnectionState} {kind : Option ApplicationPacketKind} {sid : Nat}
      {data : Bytes} {fin : Bool} {a : Account} {len : Nat} (ha : c.account sid = some a)
      (hlen : len = min data.length (min a.flowControl.sendWindow c.connection.sendWindow)) :
      c.Step (.call (.send state kind sid data fin)) (.sent len) (c.send sid a len)
  | maxData {r : TransportResponse} {n : Nat} :
      c.Step (.frame (.maxData n)) r { c with connection := c.connection.updateSendMax n }
  | maxStreamData {r : TransportResponse} {sid n : Nat} {a : Account}
      (ha : c.account sid = some a) :
      c.Step (.frame (.maxStreamData sid n)) r
        (c.setAccount sid (a.change (·.updateSendMax n)))
  | peerLimits {r : TransportResponse} {limits : PeerLimits} :
      c.Step (.call (.peerLimits limits)) r (c.applyLimits limits)
  | receive {r : TransportResponse} {f : StreamFrame} {a : Account}
      (ha : c.account f.streamId = some a)
      (hchecked : r.overLimit = false → c.Checked a f.offset f.data.length) :
      c.Step (.frame (.stream f)) r (c.receive f.streamId a f.offset f.data.length)
  | extend {r : TransportResponse} : c.Step (.call .flowControlUpdates) r c.extend
  | dataBlocked {r : TransportResponse} {n : Nat} :
      c.Step (.frame (.dataBlocked n)) r
        { c with connection := (c.connection.updateFromBlocked n).2 }
  | streamDataBlocked {r : TransportResponse} {sid n : Nat} {a : Account}
      (ha : c.account sid = some a) (hreceives : a.receives = true) :
      c.Step (.frame (.streamDataBlocked sid n)) r
        (c.setAccount sid (a.change fun fc => (fc.updateFromBlocked n).2))

theorem setAccount_account (c : Credit) (sid j : Nat) (a : Account) :
    (c.setAccount sid a).account j = if j = sid then some a else c.account j :=
  Function.update_apply ..

variable {c : Credit} {sid : Nat} {a : Account}

theorem setAccount_self (h : c.account sid = some a) : c.setAccount sid a = c := by
  unfold setAccount
  rw [← h, Function.update_eq_self]

theorem send_zero (h : c.account sid = some a) : c.send sid a 0 = c := by
  rw [send, show a.send 0 = a from rfl, setAccount_self h]
  rfl

theorem Opens.account_cases {c' : Credit} (h : c.Opens c') (ha : c'.account sid = some a) :
    c.account sid = some a ∨ ¬ c.used sid ∧ c'.used sid ∧ a = c.newAccount sid := by
  grind [cases Opens]

theorem Opens.refl (c : Credit) : c.Opens c := ⟨rfl, rfl, rfl, fun _ => id, fun _ => .inl rfl⟩

end Credit

/-! ## The credit of a connection's streams -/

def StreamState.account (st : StreamState) : Account := ⟨st.flowControl, st.sendOffset, st.recv.isSome⟩

namespace StreamManager

def newStream (m : StreamManager) (sid : Nat) : StreamState :=
  .new sid (streamDirection sid) (m.isLocalInitiated sid)
    (m.initialLimitsForStream sid (m.isLocalInitiated sid)).1
    (m.initialLimitsForStream sid (m.isLocalInitiated sid)).2

def Used (m : StreamManager) (sid : Nat) : Prop := sid / 4 < m.openedCount sid

end StreamManager

/-! ## What the operations on a stream do to its account -/

@[simp] theorem markReceived_account (st : StreamState) : (markReceived st).account = st.account := by
  grind [markReceived, StreamState.account]

@[simp] theorem fixFinalSize_account (st : StreamState) (stop : Nat) :
    (fixFinalSize st stop).account = st.account := by
  grind [fixFinalSize, StreamState.account]

/-- Either nothing is charged, or stream and connection are charged together; the frame is then
refused for its size, or both limits are kept. -/
theorem receiveStreamFrame_account (st : StreamState) (conn : ConnectionFlowControl)
    (f : StreamFrame) :
    (receiveStreamFrame st conn f).2.1.account = st.account ∧
        (receiveStreamFrame st conn f).2.2 = conn ∨
      (receiveStreamFrame st conn f).2.1.account = st.account.change (fun fc =>
          (StreamFlowControl.onDataReceived fc f.offset f.data.length).2) ∧
        (receiveStreamFrame st conn f).2.2 = ConnectionFlowControl.onDataReceived conn
          (StreamFlowControl.onDataReceived st.flowControl f.offset f.data.length).1 ∧
        ((TransportResponse.ofResult (receiveStreamFrame st conn f).1).overLimit = false →
          (StreamFlowControl.onDataReceived st.flowControl f.offset f.data.length).2.checkRecvLimit
              = true ∧
            (ConnectionFlowControl.onDataReceived conn (StreamFlowControl.onDataReceived
              st.flowControl f.offset f.data.length).1).checkRecvLimit = true) := by
  unfold receiveStreamFrame
  dsimp only
  split
  · exact .inl ⟨rfl, rfl⟩
  split
  · exact .inl ⟨rfl, rfl⟩
  split
  · exact .inl ⟨rfl, rfl⟩
  split
  · exact .inr ⟨rfl, rfl, fun h => by cases h⟩
  next hstream =>
  split
  · exact .inr ⟨rfl, rfl, fun h => by cases h⟩
  next hconn =>
  rw [Bool.not_eq_true', Bool.not_eq_false] at hstream hconn
  split
  · refine .inr ⟨?_, rfl, fun _ => ⟨hstream, hconn⟩⟩
    split <;> rfl
  · refine .inr ⟨?_, rfl, fun _ => ⟨hstream, hconn⟩⟩
    rw [markReceived_account]
    split
    · rw [fixFinalSize_account]
      split <;> rfl
    · split <;> rfl

theorem receiveResetStream_account (st : StreamState) (sid code finalSize : Nat) :
    (receiveResetStream st sid code finalSize).2.account = st.account := by
  grind [receiveResetStream, Option.isSome_iff_ne_none, StreamState.account]

theorem receiveRead_account (st : StreamState) (sid bufLen : Nat) :
    (receiveRead st sid bufLen).2.account = st.account := by
  grind [receiveRead, StreamState.account]

theorem acknowledged_account (st : StreamState) (f : StreamFrame) :
    (Transport.acknowledged st f).account = st.account := by
  have hack : (st.acknowledgeSentData f.offset f.data.length f.fin).account = st.account := by
    unfold StreamState.acknowledgeSentData
    split <;> split <;> rfl
  unfold Transport.acknowledged
  dsimp only
  split <;> exact hack

namespace Transport

def credit (t : Transport) : Credit where
  connection := t.flowControl
  account := fun sid => (t.streams.get sid).map StreamState.account
  newAccount := fun sid => (t.streams.newStream sid).account
  isLocal := t.streams.isLocalInitiated
  used := t.streams.Used

variable {sid id : Nat} {m : StreamManager} {t' : Transport}

theorem credit_account {t : Transport} {st : StreamState}
    (h : t.streams.get sid = some st) : t.credit.account sid = some st.account :=
  congrArg (Option.map StreamState.account) h

theorem credit_setStream (t : Transport) (sid : Nat) (st : StreamState) :
    (t.setStream sid st).credit = t.credit.setAccount sid st.account := by
  refine Credit.ext rfl ?_ rfl rfl rfl
  funext j
  rw [Credit.setAccount_account]
  have hget : (t.setStream sid st).streams.get j = if j = sid then some st else t.streams.get j :=
    StreamManager.get_set _ _ _ _
  refine (congrArg (Option.map StreamState.account) hget).trans ?_
  split <;> rfl

theorem credit_setStream_same {t : Transport} {st st' : StreamState}
    (h : t.streams.get sid = some st) (hsame : st'.account = st.account) :
    (t.setStream sid st').credit = t.credit := by
  rw [credit_setStream, hsame, Credit.setAccount_self (credit_account h)]

theorem credit_account_none {t : Transport} (h : t.streams.get sid = none) :
    t.credit.account sid = none :=
  congrArg (Option.map StreamState.account) h

/-! ## Opening and collecting streams -/

theorem opens_of_streams {t : Transport} (hside : m.side = t.streams.side)
    (hlimits : m.initialLimitsForStream = t.streams.initialLimitsForStream)
    (hused : ∀ sid, t.streams.Used sid → m.Used sid)
    (hget : ∀ sid, m.get sid = t.streams.get sid ∨ m.get sid = none ∨
      ¬ t.streams.Used sid ∧ m.Used sid ∧ m.get sid = some (t.streams.newStream sid)) :
    t.credit.Opens { t with streams := m }.credit where
  connection := rfl
  newAccount := by
    funext sid
    dsimp only [credit]
    unfold StreamManager.newStream StreamManager.isLocalInitiated
    rw [hlimits, hside]
  isLocal := by
    funext sid
    dsimp only [credit]
    unfold StreamManager.isLocalInitiated
    rw [hside]
  used := hused
  account := fun sid => by
    rcases hget sid with hsame | hnone | ⟨hnew, hnow, hget⟩
    · exact .inl (congrArg (Option.map StreamState.account) hsame)
    · exact .inr (.inl (congrArg (Option.map StreamState.account) hnone))
    · exact .inr (.inr ⟨hnew, hnow, congrArg (Option.map StreamState.account) hget⟩)

theorem openLocal_opens {t : Transport} (h : Tabled t.streams) {direction : StreamDirection}
    (hopen : t.streams.OpensLocal direction id m) : t.credit.Opens { t with streams := m }.credit := by
  obtain ⟨initial, created, hconsistent⟩ := h
  obtain ⟨hl, hd, hdiv⟩ := hopen.class_eq hconsistent.nextId
  have hcount : ∀ sid, t.streams.openedCount sid ≤ m.openedCount sid := by
    intro sid
    have hlocal := hopen.localOpened (streamDirection sid)
    rw [StreamManager.openedCount, StreamManager.openedCount, hopen.isLocalInitiated,
      hopen.remoteOpened]
    grind
  apply opens_of_streams hopen.side hopen.limits fun sid h => Nat.lt_of_lt_of_le h (hcount sid)
  intro sid
  have hget := hopen.get_eq hconsistent.nextId sid
  by_cases hsid : sid = id
  · subst hsid
    refine .inr (.inr ⟨?_, ?_, ?_⟩)
    · unfold StreamManager.Used StreamManager.openedCount
      rw [if_pos hl, hd]
      omega
    · unfold StreamManager.Used StreamManager.openedCount
      rw [hopen.isLocalInitiated, if_pos hl, hd, hopen.localOpened, if_pos rfl]
      omega
    · rw [hget, if_pos rfl, StreamManager.newStream, hl, hd]
  · exact .inl (hget.trans (if_neg hsid))

theorem openRemoteUpTo_opens (t : Transport) (direction : StreamDirection) {opened : Nat}
    (hopened : t.streams.remoteOpened direction ≤ opened) :
    t.credit.Opens { t with streams := t.streams.openRemoteUpTo direction opened }.credit := by
  have hcount : ∀ sid, (t.streams.openRemoteUpTo direction opened).openedCount sid =
      if t.streams.isLocalInitiated sid = false ∧ streamDirection sid = direction then opened
      else t.streams.openedCount sid :=
    StreamManager.openedCount_setRemoteOpened _ _ _
  have hremote : ∀ sid, t.streams.isLocalInitiated sid = false ∧ streamDirection sid = direction →
      t.streams.openedCount sid = t.streams.remoteOpened direction := by
    rintro sid ⟨hl, rfl⟩
    rw [StreamManager.openedCount, hl]
    rfl
  refine opens_of_streams (by cases direction <;> rfl) (by cases direction <;> rfl) ?_ ?_
  · grind [StreamManager.Used]
  · intro sid
    rw [StreamManager.get, StreamTable.openRemoteUpTo_streams]
    rcases t.streams.openRemote_find? direction (t.streams.remoteStreamBase direction)
      (t.streams.remoteOpened direction) (opened - t.streams.remoteOpened direction) sid with
      ⟨⟨n, hfrom, hto, rfl⟩, hnew⟩ | ⟨-, hsame⟩
    · have hclass := StreamTable.remoteStreamBase_class t.streams direction n
      have hbase := t.streams.remoteStreamBase_lt direction
      refine .inr (.inr ⟨?_, ?_, ?_⟩)
      · rw [StreamManager.Used, hremote _ hclass]
        omega
      · rw [StreamManager.Used, hcount, if_pos hclass]
        omega
      · rw [hnew, StreamManager.newStream, hclass.1, hclass.2]
    · exact .inl hsame

theorem acceptNamed_opens {t : Transport} (h : t.acceptNamed sid = .ok t') :
    t.credit.Opens t'.credit := by
  unfold acceptNamed at h
  split at h
  · split at h
    · cases h
    · next m hm =>
      cases h
      rcases StreamManager.acceptStream_cases hm with ⟨-, rfl⟩ | ⟨-, -, rfl⟩ | ⟨-, hle, rfl⟩
      · exact .refl _
      · exact .refl _
      · exact openRemoteUpTo_opens t _ (Nat.le_succ_of_le hle)
  · cases h
    exact .refl _

theorem gcClosedStreams_opens (t : Transport) :
    t.credit.Opens { t with streams := t.streams.gcClosedStreams.2 }.credit := by
  refine opens_of_streams rfl rfl (fun _ hused => hused) ?_
  intro sid
  cases hget : t.streams.gcClosedStreams.2.get sid with
  | none => exact .inr (.inl rfl)
  | some st =>
    refine .inl (Eq.symm ?_)
    have hmem := OrdMap.find?_eq_some_iff.mp hget
    exact OrdMap.find?_eq_some_iff.mpr (List.mem_of_mem_filter hmem)

/-! ## Every step is a step of the credit -/

def CreditStep (t : Transport) (e : StreamLifeEvent) (r : TransportResponse) (t' : Transport) :
    Prop :=
  ∃ c, t.credit.Opens c ∧ c.Step e r t'.credit

theorem CreditStep.idle {t : Transport} {e : StreamLifeEvent} {r : TransportResponse}
    (hopens : t.credit.Opens t'.credit) (hidle : t'.credit.Idle e r) : CreditStep t e r t' :=
  ⟨_, hopens, .idle hidle⟩

theorem CreditStep.of_step {t : Transport} {e : StreamLifeEvent} {r : TransportResponse}
    (h : t.credit.Step e r t'.credit) : CreditStep t e r t' :=
  ⟨_, .refl _, h⟩

theorem CreditStep.same {t : Transport} {e : StreamLifeEvent} {r : TransportResponse}
    (hsame : t'.credit = t.credit) (hidle : t.credit.Idle e r) : CreditStep t e r t' :=
  .idle (hsame ▸ .refl _) (hsame ▸ hidle)

variable {t : Transport} {r : TransportResponse}

theorem processStream_credit (f : StreamFrame) :
    CreditStep t (.frame (.stream f)) (.ofResult (t.processStream f).1) (t.processStream f).2 := by
  unfold processStream
  split
  · exact .same rfl trivial
  · next t' hacc =>
    have hopens := acceptNamed_opens hacc
    split
    · exact .idle hopens trivial
    · next st hst =>
      rcases receiveStreamFrame_account st t'.flowControl f with
        ⟨hst', hconn⟩ | ⟨hst', hconn, hchecked⟩
      · refine ⟨t'.credit, hopens, ?_⟩
        have hsame := credit_setStream_same hst hst'
        dsimp only
        rw [hconn]
        exact hsame ▸ .idle trivial
      · refine ⟨t'.credit, hopens, ?_⟩
        have hset := credit_setStream t' f.streamId (receiveStreamFrame st t'.flowControl f).2.1
        rw [hst'] at hset
        have hcredit : ({ t'.setStream f.streamId (receiveStreamFrame st t'.flowControl f).2.1 with
            flowControl := (receiveStreamFrame st t'.flowControl f).2.2 } : Transport).credit =
            t'.credit.receive f.streamId st.account f.offset f.data.length := by
          have haccount := congrArg Credit.account hset
          exact Credit.ext hconn haccount rfl rfl rfl
        rw [hcredit]
        exact .receive (credit_account hst) hchecked

theorem processResetStream_credit (sid code finalSize : Nat) :
    CreditStep t (.frame (.resetStream sid code finalSize)) r
      (t.processResetStream sid code finalSize).2 := by
  unfold processResetStream
  split
  · exact .same rfl trivial
  · next t' hacc =>
    have hopens := acceptNamed_opens hacc
    split
    · exact .idle hopens trivial
    · next st hst =>
      have hsame := credit_setStream_same hst (receiveResetStream_account st sid code finalSize)
      exact .idle (hsame ▸ hopens) trivial

theorem processStopSending_credit (sid code : Nat) :
    CreditStep t (.frame (.stopSending sid code)) r (t.processStopSending sid code).2 := by
  unfold processStopSending
  split
  · exact .same rfl trivial
  · next t' hacc =>
    have hopens := acceptNamed_opens hacc
    split
    · exact .idle hopens trivial
    · next st hst =>
      split
      · exact .idle hopens trivial
      · have hsame : (t'.setStream sid { st with send := some .resetSent }).credit = t'.credit :=
          credit_setStream_same hst rfl
        refine .idle ?_ trivial
        exact hsame ▸ hopens

theorem processFrame_credit (frame : Frame) :
    CreditStep t (.frame frame) (.ofResult (t.processFrame frame).1) (t.processFrame frame).2 := by
  cases frame with
  | stream f => exact processStream_credit f
  | resetStream sid code finalSize => exact processResetStream_credit sid code finalSize
  | stopSending sid code => exact processStopSending_credit sid code
  | maxData n => exact .of_step .maxData
  | maxStreamData sid n =>
    simp only [processFrame]
    split
    · next hnone => exact .same rfl (credit_account_none hnone)
    · next st hst =>
      apply CreditStep.of_step
      rw [credit_setStream]
      exact .maxStreamData (credit_account hst)
  | maxStreams bidirectional n =>
    simp only [processFrame]
    split
    · exact .same rfl trivial
    · split
      · refine .same ?_ trivial
        dsimp only [StreamManager.updateMaxBidiStreams]
        split <;> rfl
      · refine .same ?_ trivial
        dsimp only [StreamManager.updateMaxUniStreams]
        split <;> rfl
  | dataBlocked n =>
    simp only [processFrame]
    split <;> exact .of_step .dataBlocked
  | streamDataBlocked sid n =>
    simp only [processFrame]
    split
    · next hnone =>
      refine .same rfl ?_
      intro a ha
      rw [credit_account_none hnone] at ha
      cases ha
    · next st hst =>
      split
      · next hrecv =>
        refine .same rfl ?_
        intro a ha
        rw [credit_account hst] at ha
        cases ha
        simpa [StreamState.account] using hrecv
      · next hrecv =>
        have hreceives : st.account.receives = true := by
          simpa [StreamState.account, Option.isSome_iff_ne_none] using hrecv
        have hstep := Credit.Step.streamDataBlocked (r := .done) (n := n) (credit_account hst)
          hreceives
        have hset := credit_setStream t sid
          { st with flowControl := (st.flowControl.updateFromBlocked n).2 }
        apply CreditStep.of_step
        split <;> exact hset ▸ hstep
  | streamsBlocked bidirectional n =>
    simp only [processFrame]
    split <;> exact .same rfl trivial
  | _ => exact .same rfl trivial

/-! ### Calls -/

def limitStream (limit : Nat) (st : StreamState) : StreamState :=
  { st with flowControl := st.flowControl.setSendMax limit }

theorem applyPeerLimits_credit (limits : PeerLimits) :
    (t.applyPeerLimits limits).credit = t.credit.applyLimits limits := by
  have hlimit : ∀ sid, ((t.applyPeerLimits limits).streams.initialLimitsForStream sid
      (t.streams.isLocalInitiated sid)) = (limits.forStream (t.streams.isLocalInitiated sid) sid,
        (t.streams.initialLimitsForStream sid (t.streams.isLocalInitiated sid)).2) := by
    intro sid
    unfold StreamManager.initialLimitsForStream PeerLimits.forStream
    cases streamDirection sid <;> cases t.streams.isLocalInitiated sid <;> rfl
  refine Credit.ext rfl ?_ ?_ rfl rfl
  · funext sid
    have hget : (t.applyPeerLimits limits).streams.get sid = (t.streams.get sid).map
        (limitStream (limits.forStream (t.streams.isLocalInitiated sid) sid)) :=
      OrdMap.find?_map _ _ _
    refine (congrArg (Option.map StreamState.account) hget).trans ?_
    dsimp only [Credit.applyLimits, credit]
    rw [Option.map_map, Option.map_map]
    rfl
  · funext sid
    have hlocal : (t.applyPeerLimits limits).streams.isLocalInitiated sid =
        t.streams.isLocalInitiated sid := rfl
    dsimp only [Credit.applyLimits, credit]
    unfold StreamManager.newStream
    rw [hlocal, hlimit]
    rfl

theorem extendStream_credit (t : Transport) (sid : Nat) :
    (t.extendStream sid).credit = t.credit.extendOne sid := by
  unfold extendStream
  split
  · next hnone =>
    rw [Credit.extendOne, credit_account_none hnone, Option.map_none, ← credit_account_none hnone,
      Function.update_eq_self]
  · next st hst =>
    have hset : ∀ a, st.account.extend = a → t.credit.setAccount sid a = t.credit.extendOne sid := by
      intro a ha
      rw [Credit.extendOne, credit_account hst, Option.map_some, ha]
      rfl
    split
    · next hrecv =>
      have hsame : st.account.extend = st.account := by
        have hreceives : st.account.receives = false := by simpa [StreamState.account] using hrecv
        rw [Account.extend, hreceives]
        rfl
      rw [← hset _ hsame, Credit.setAccount_self (credit_account hst)]
    · next hrecv =>
      have hreceives : st.account.receives = true := by
        simpa [StreamState.account, Option.isSome_iff_ne_none] using hrecv
      have hextend : st.account.extend = st.account.change FlowControl.extend := by
        rw [Account.extend, hreceives]
        rfl
      split
      · next hno =>
        have hsame : st.account.extend = st.account := by
          rw [hextend, Account.change, FlowControl.extend, show
            st.account.flowControl.shouldSendMax = none from hno]
        rw [← hset _ hsame, Credit.setAccount_self (credit_account hst)]
      · next newMax hmax =>
        have hcommit : st.account.extend =
            ({ st with flowControl := st.flowControl.commitMax newMax } : StreamState).account := by
          rw [hextend, Account.change, FlowControl.extend, show
            st.account.flowControl.shouldSendMax = some newMax from hmax]
          rfl
        rw [← hset _ hcommit]
        exact credit_setStream t sid _

theorem foldl_extendStream_credit {sids : List Nat} (hnodup : sids.Nodup) (t : Transport) :
    (sids.foldl extendStream t).credit =
      { t.credit with account := fun sid =>
          if sid ∈ sids then (t.credit.account sid).map Account.extend
          else t.credit.account sid } := by
  induction sids generalizing t with
  | nil => exact Credit.ext rfl (by funext sid; rfl) rfl rfl rfl
  | cons first rest ih =>
    have hnodup := List.nodup_cons.mp hnodup
    rw [List.foldl_cons, ih hnodup.2, extendStream_credit]
    refine Credit.ext rfl ?_ rfl rfl rfl
    funext sid
    dsimp only [Credit.extendOne]
    by_cases hfirst : sid = first
    · subst hfirst
      simp [hnodup.1]
    · simp [hfirst]

theorem generateFlowControlUpdates_credit (t : Transport) :
    t.generateFlowControlUpdates.credit = t.credit.extend := by
  have hconn : ∀ t' : Transport, t'.streams = t.streams →
      t'.flowControl = t.flowControl.extend →
      (t.streams.streams.keys.foldl extendStream t').credit = t.credit.extend := by
    intro t' hstreams hflow
    have hcredit : t'.credit = { t.credit with connection := t.flowControl.extend } := by
      unfold credit
      rw [hstreams, hflow]
    rw [foldl_extendStream_credit t.streams.streams.keys_nodup, hcredit]
    refine Credit.ext rfl ?_ rfl rfl rfl
    funext sid
    dsimp only [Credit.extend]
    split
    · rfl
    · next hnot =>
      have hnone : t.streams.get sid = none := by
        cases hget : t.streams.get sid with
        | none => rfl
        | some st =>
          exact absurd (OrdMap.mem_keys_iff.mpr (by rw [← StreamManager.get, hget]; rfl)) hnot
      rw [credit_account_none hnone]
      rfl
  grind [generateFlowControlUpdates, FlowControl.extend, Transport.pushBack]

theorem streamSend_credit {state : ConnectionState} {kind : Option ApplicationPacketKind}
    {data : Bytes} {fin : Bool} {len : Nat}
    (h : t.streamSend state kind sid data fin = (.ok len, t')) :
    t.credit.Step (.call (.send state kind sid data fin)) (.sent len) t'.credit := by
  unfold streamSend at h
  split at h
  · cases h
  split at h
  · cases h
  · next st hst =>
    split at h
    · cases h
    split at h
    · cases h
    dsimp only at h
    have hstep : t.credit.Step (.call (.send state kind sid data fin)) (.sent (t.writeLen st data))
        (t.credit.send sid st.account (t.writeLen st data)) :=
      .send (credit_account hst) rfl
    split at h
    · cases h
      have hset := credit_setStream t sid (written st (t.writeLen st data)
        (fin && t.writeLen st data == data.length))
      have haccount := congrArg Credit.account hset
      convert hstep using 1
      exact Credit.ext rfl haccount rfl rfl rfl
    · next hnothing =>
      cases h
      have hzero : t'.writeLen st data = 0 := by
        grind
      grind [Credit.send_zero, credit_account]

theorem streamRecv_credit (t : Transport) (sid bufLen : Nat) :
    (t.streamRecv sid bufLen).2.credit = t.credit := by
  grind [streamRecv, credit_setStream_same, receiveRead_account]

theorem acknowledgeStreamFrame_credit (t : Transport) (f : StreamFrame) :
    (t.acknowledgeStreamFrame f).credit = t.credit := by
  grind [acknowledgeStreamFrame, credit_setStream_same, acknowledged_account]

theorem generateStreamLimitUpdates_credit (t : Transport) :
    t.generateStreamLimitUpdates.credit = t.credit := by
  unfold generateStreamLimitUpdates
  dsimp only
  split <;> split <;> rfl

theorem call_credit {e : TransportEvent} (htabled : Tabled t.streams)
    (hcall : e.isCall = true) (h : t.step e = some (r, t')) : CreditStep t (.call e) r t' := by
  cases e with
  | frame => cases hcall
  | acknowledged => cases hcall
  | peerLimits limits =>
    cases h
    apply CreditStep.of_step
    rw [applyPeerLimits_credit]
    exact .peerLimits
  | openBidi | openUni =>
    obtain ⟨_, _, _, hopen, rfl, rfl⟩ | ⟨rfl, _, rfl⟩ := step_open (by simp) h
    · exact .idle (openLocal_opens htabled hopen) trivial
    · exact .same rfl trivial
  | send state kind sid data fin =>
    simp only [step] at h
    split at h
    · next hsend =>
      cases h
      exact .of_step (streamSend_credit hsend)
    · next hsend =>
      cases h
      rw [streamSend_error hsend]
      exact .same rfl trivial
  | recv sid bufLen =>
    have hsame := streamRecv_credit t sid bufLen
    simp only [step] at h
    split at h <;> next heq =>
      cases h
      rw [heq] at hsame
      exact .same hsame trivial
  | flowControlUpdates =>
    cases h
    apply CreditStep.of_step
    rw [generateFlowControlUpdates_credit]
    exact .extend
  | streamLimitUpdates =>
    cases h
    exact .same (generateStreamLimitUpdates_credit t) trivial

end Transport

abbrev LifeTrace : Type := List (StreamLifeEvent × TransportResponse)

namespace StreamLife

variable {s s' : StreamLife} {e : StreamLifeEvent} {r : TransportResponse}

theorem foldl_acknowledgeFrame_credit (frames : List Frame) (t : Transport) :
    (frames.foldl acknowledgeFrame t).credit = t.credit := by
  induction frames generalizing t with
  | nil => rfl
  | cons f frames ih =>
    rw [List.foldl_cons, ih]
    unfold acknowledgeFrame
    split
    · exact Transport.acknowledgeStreamFrame_credit t _
    · rfl

theorem step_credit (htabled : Tabled s.transport.streams) (h : s.step e = some (r, s')) :
    Transport.CreditStep s.transport e r s'.transport := by
  cases e with
  | frame frame =>
    have hframe := Transport.processFrame_credit (t := s.transport) frame
    simp only [step] at h
    split at h <;> next heq =>
      cases h
      rwa [heq] at hframe
  | call e =>
    grind [step, Transport.call_credit]
  | gcClosedStreams =>
    cases h
    exact .idle (Transport.gcClosedStreams_opens s.transport) trivial
  | transmit pn frames rest =>
    simp only [step] at h
    split at h
    · cases h
      exact .same rfl trivial
    · cases h
  | packetAcked pn =>
    simp only [step] at h
    split at h
    · cases h
    · cases h
      exact .same (foldl_acknowledgeFrame_credit _ _) trivial
  | packetLost pn =>
    simp only [step] at h
    split at h
    · cases h
    · cases h
      exact .same rfl trivial

/-- What opening and collecting streams keeps, and every step of the credit as well, holds along
every run. -/
theorem credit_invariant {ok : StreamLife → StreamLifeEvent → Prop}
    {tr : LifeTrace} {I : LifeTrace → Credit → Prop} (hrun : Run step ok s tr s')
    (hsound : s.Sound) (hinit : I [] s.transport.credit)
    (hopens : ∀ tr c c', I tr c → c.Opens c' → I tr c')
    (hstep : ∀ tr (t : StreamLife) c c' e r, I tr c → ok t e → t.transport.credit.Opens c →
      c.Step e r c' → I (tr ++ [(e, r)]) c') :
    s'.Sound ∧ I tr s'.transport.credit := by
  apply hrun.invariant (I := fun tr s => s.Sound ∧ I tr s.transport.credit) ⟨hsound, hinit⟩
  intro tr t e r u ⟨hsound, hinv⟩ hok hstep'
  refine ⟨hsound.step hstep', ?_⟩
  obtain ⟨c, hopen, hcredit⟩ := step_credit hsound.tabled hstep'
  grind

theorem used_of_account (htabled : Tabled s.transport.streams) {sid : Nat} {a : Account}
    (h : s.transport.credit.account sid = some a) : s.transport.credit.used sid := by
  obtain ⟨initial, created, hconsistent⟩ := htabled
  apply (hconsistent.created_iff sid).mp
  apply hconsistent.live_created
  cases hget : s.transport.streams.get sid with
  | none =>
    rw [Transport.credit_account_none hget] at h
    cases h
  | some st => rfl

end StreamLife

end Starfish.Quic
