import Starfish.Quic.Server.Endpoint

/-!
# Routing tables

The tables of an endpoint are consistent if every handle in them denotes a connection, a
connection is routed to by exactly the identifiers it has issued and not retired, and the queue
of connections that wait to be accepted agrees with its set. All events keep them consistent but
one: a new connection is also routed to by the identifier it was created with, and if its first
datagram retired that one, the identifier stays in the table until the next update.
-/

namespace Starfish.Quic

/-! ## Connections that wait to be accepted -/

structure Queued (live : ConnectionHandle → Prop) (q : Established) : Prop where
  live : ∀ handle ∈ q.1, live handle
  nodup : q.1.Nodup
  sameMembers : ∀ handle, handle ∈ q.1 ↔ handle ∈ q.2

namespace Queued

variable {live live' : ConnectionHandle → Prop} {q : Established} {handle : ConnectionHandle}

theorem mono (h : Queued live q) (hlive : ∀ handle, live handle → live' handle) :
    Queued live' q :=
  ⟨fun handle hmem => hlive handle (h.live handle hmem), h.nodup, h.sameMembers⟩

theorem queue (h : Queued live q) (hlive : live handle) :
    Queued live (queueEstablishedHandle q handle) := by
  unfold queueEstablishedHandle
  split
  · exact h
  · next hnew =>
    refine ⟨fun other hother => ?_, ?_, fun other => ?_⟩
    · grind [cases Queued]
    · grind [cases Queued]
    · rw [List.mem_append, List.mem_singleton, Finset.mem_insert, h.sameMembers, or_comm]

theorem dequeue (h : Queued live q) : Queued live (dequeueEstablishedHandle q).2 := by
  unfold dequeueEstablishedHandle
  split
  · exact h
  · next first rest hq =>
    have hnodup := h.nodup
    rw [hq, List.nodup_cons] at hnodup
    refine ⟨fun other hother => h.live other ?_, hnodup.2, fun other => ?_⟩
    all_goals grind [cases Queued]

theorem unqueue (h : Queued live q) (hlive : ∀ other, other ≠ handle → live other → live' other) :
    Queued live' (unqueueEstablishedHandle q handle) := by
  refine ⟨fun other hother => ?_, h.nodup.filter _, fun other => ?_⟩
  · obtain ⟨hmem, hne⟩ := List.mem_filter.mp hother
    exact hlive other (of_decide_eq_true hne) (h.live other hmem)
  · rw [unqueueEstablishedHandle, Finset.mem_erase, List.mem_filter, h.sameMembers,
      decide_eq_true_iff, and_comm]

end Queued

/-! ## Consistent tables -/

namespace QuicEndpoint

variable {owner : Bytes → ConnectionHandle} {ep ep' : QuicEndpoint} {handle : ConnectionHandle}
  {conn : ManagedConnection}

def Live (ep : QuicEndpoint) (handle : ConnectionHandle) : Prop :=
  ∃ conn, ep.connections handle = some conn

structure Consistent (ep : QuicEndpoint) : Prop where
  cidLive : ∀ cid handle, ep.cidToHandle cid = some handle → ep.Live handle
  initialLive : ∀ dcid handle, ep.initialDcidToHandle dcid = some handle → ep.Live handle
  cids : ∀ handle conn, ep.connections handle = some conn →
    ∀ cid, ep.cidToHandle cid = some handle ↔ cid ∈ conn.localCidBytes
  tokens : ∀ cid token, ep.cidToResetToken cid = some token →
    ∃ handle, ep.cidToHandle cid = some handle
  established : Queued ep.Live ep.established

def Owns (owner : Bytes → ConnectionHandle) (handle : ConnectionHandle) (conn : ManagedConnection) :
    Prop :=
  ∀ cid ∈ conn.localCidBytes, owner cid = handle

instance (owner : Bytes → ConnectionHandle) (handle : ConnectionHandle)
    (conn : ManagedConnection) : Decidable (Owns owner handle conn) :=
  inferInstanceAs (Decidable (∀ cid ∈ conn.localCidBytes, owner cid = handle))

/-- What carries over from event to event. The tables may be behind the connection `busy`. -/
structure Coherent (owner : Bytes → ConnectionHandle) (busy : Option ConnectionHandle)
    (ep : QuicEndpoint) : Prop where
  cidLive : ∀ cid handle, ep.cidToHandle cid = some handle → ep.Live handle
  initialLive : ∀ dcid handle, ep.initialDcidToHandle dcid = some handle → ep.Live handle
  cids : ∀ handle conn, ep.connections handle = some conn → busy ≠ some handle →
    ∀ cid, ep.cidToHandle cid = some handle ↔ cid ∈ conn.localCidBytes
  tokens : ∀ cid token, ep.cidToResetToken cid = some token →
    ∃ handle, ep.cidToHandle cid = some handle
  established : Queued ep.Live ep.established
  below : ∀ handle, ep.Live handle → handle < ep.nextHandle
  owned : ∀ cid handle, ep.cidToHandle cid = some handle → owner cid = handle

theorem setConnection_apply (ep : QuicEndpoint) (handle other : ConnectionHandle)
    (conn : ManagedConnection) : (ep.setConnection handle conn).connections other =
      if other = handle then some conn else ep.connections other :=
  Table.insert_apply _ _ _ _

theorem setConnection_live (hlive : ep.Live handle) (other : ConnectionHandle) :
    (ep.setConnection handle conn).Live other ↔ ep.Live other := by
  unfold Live
  rw [setConnection_apply]
  split
  · next hother =>
    rw [hother]
    exact ⟨fun _ => hlive, fun _ => ⟨conn, rfl⟩⟩
  · exact Iff.rfl

variable {cid token : Bytes}

theorem mem_localCidResetTokens (h : (cid, token) ∈ conn.localCidResetTokens) :
    cid ∈ conn.localCidBytes := by
  obtain ⟨entry, hentry, hsome⟩ := List.mem_filterMap.mp h
  obtain ⟨_, -, heq⟩ := Option.map_eq_some_iff.mp hsome
  cases heq
  exact List.mem_map_of_mem hentry

/-! ## What the operations do to the tables -/

variable {other : ConnectionHandle}

theorem removeConnection_connections :
    (ep.removeConnection handle).connections other = some conn ↔
      other ≠ handle ∧ ep.connections other = some conn := by
  simp [removeConnection, Table.erase_apply]

theorem removeConnection_live :
    (ep.removeConnection handle).Live other ↔ other ≠ handle ∧ ep.Live other := by
  unfold Live
  simp only [removeConnection_connections, exists_and_left]

theorem removeConnection_cidToHandle :
    (ep.removeConnection handle).cidToHandle cid = some other ↔
      other ≠ handle ∧ ep.cidToHandle cid = some other := by
  dsimp only [removeConnection]
  rw [Table.retain_eq_some_iff, decide_eq_true_iff, and_comm]

variable {dcid initialDcid : Bytes} {new : NewConnection}

theorem removeConnection_initialDcidToHandle :
    (ep.removeConnection handle).initialDcidToHandle dcid = some other ↔
      other ≠ handle ∧ ep.initialDcidToHandle dcid = some other := by
  dsimp only [removeConnection]
  rw [Table.retain_eq_some_iff, decide_eq_true_iff, and_comm]

theorem removeConnection_cidToResetToken :
    (ep.removeConnection handle).cidToResetToken cid = some token ↔
      ep.cidToHandle cid ≠ some handle ∧ ep.cidToResetToken cid = some token := by
  simp [removeConnection, Table.retain_eq_some_iff, cidsForHandle, and_comm]

variable {update : ConnectionUpdate}

theorem applyConnectionUpdate_cidToHandle (hopen : update.closed = false) :
    (ep.applyConnectionUpdate handle update).cidToHandle cid = some other ↔
      (cid ∈ update.localCids ∧ other = handle) ∨
        (cid ∉ update.localCids ∧ other ≠ handle ∧ ep.cidToHandle cid = some other) := by
  unfold applyConnectionUpdate
  rw [hopen]
  simp only [Bool.false_eq_true, if_false, Table.insertAll_const]
  split
  · next hmem => simp [hmem, eq_comm]
  · next hmem =>
    rw [Table.retain_eq_some_iff]
    simp [hmem, and_comm]

theorem applyConnectionUpdate_cidToResetToken (hopen : update.closed = false)
    (h : (ep.applyConnectionUpdate handle update).cidToResetToken cid = some token) :
    (cid, token) ∈ update.resetTokens ∨
      (ep.cidToResetToken cid = some token ∧
        (ep.cidToHandle cid ≠ some handle ∨ cid ∈ update.localCids)) := by
  unfold applyConnectionUpdate at h
  rw [hopen] at h
  refine (Table.insertAll_eq_some h).imp_right fun hretained => ?_
  rw [Table.retain_eq_some_iff, cidsForHandle, Bool.or_eq_true, Bool.not_eq_true',
    beq_eq_false_iff_ne, decide_eq_true_iff] at hretained
  exact hretained

theorem applyConnectionUpdate_kept (ep : QuicEndpoint) (handle : ConnectionHandle)
    (hopen : update.closed = false) :
    (ep.applyConnectionUpdate handle update).connections = ep.connections ∧
      (ep.applyConnectionUpdate handle update).initialDcidToHandle = ep.initialDcidToHandle ∧
      (ep.applyConnectionUpdate handle update).nextHandle = ep.nextHandle ∧
      (ep.applyConnectionUpdate handle update).established =
        if update.established then queueEstablishedHandle ep.established handle
        else ep.established := by
  grind [applyConnectionUpdate]

theorem registerConnection_eq_some
    (h : ep.registerConnection initialDcid new = some (handle, ep')) :
    handle = ep.nextHandle ∧ ep'.nextHandle = ep.nextHandle + 1 ∧
      ep'.connections = ep.connections.insert handle new.conn ∧
      (∀ cid, ep'.cidToHandle cid = if cid = new.localCid ∨ cid ∈ new.conn.localCidBytes
        then some handle else ep.cidToHandle cid) ∧
      ep'.initialDcidToHandle = ep.initialDcidToHandle.insert initialDcid handle ∧
      ep'.cidToResetToken = ep.cidToResetToken.insertAll new.conn.localCidResetTokens ∧
      ep'.established = if new.conn.isEstablished then queueEstablishedHandle ep.established handle
        else ep.established := by
  obtain ⟨nextHandle, hnext, heq⟩ := Option.map_eq_some_iff.mp h
  cases heq
  refine ⟨rfl, checkedAdd_eq_some hnext, rfl, fun cid => ?_, rfl, rfl, rfl⟩
  dsimp only
  rw [Table.insertAll_const, Table.insert_apply]
  grind

/-! ## Events keep the tables coherent -/

namespace Coherent

theorem bind (owner : Bytes → ConnectionHandle) : Coherent owner none .bind where
  cidLive _ _ h := by cases h
  initialLive _ _ h := by cases h
  cids _ _ h := by cases h
  tokens _ _ h := by cases h
  established := ⟨fun _ h => (by cases h), List.nodup_nil, fun _ => Iff.rfl⟩
  below _ h := by cases h with | intro _ h => cases h
  owned _ _ h := by cases h

theorem consistent (h : Coherent owner none ep) : ep.Consistent :=
  ⟨h.cidLive, h.initialLive, fun handle conn hconn => h.cids handle conn hconn (by simp),
    h.tokens, h.established⟩

theorem owns (h : Coherent owner none ep) (hconn : ep.connections handle = some conn) :
    Owns owner handle conn :=
  fun cid hcid => h.owned cid handle ((h.cids handle conn hconn (by simp) cid).mpr hcid)

theorem setConnection (h : Coherent owner none ep) (hlive : ep.Live handle)
    (conn : ManagedConnection) : Coherent owner (some handle) (ep.setConnection handle conn) where
  cidLive cid other hcid := (setConnection_live hlive other).mpr (h.cidLive cid other hcid)
  initialLive dcid other hdcid := (setConnection_live hlive other).mpr (h.initialLive dcid other hdcid)
  cids other conn' hconn hbusy := by
    rw [setConnection_apply, if_neg fun heq : other = handle => hbusy (heq ▸ rfl)] at hconn
    exact h.cids other conn' hconn (by simp)
  tokens := h.tokens
  established := h.established.mono fun other => (setConnection_live hlive other).mpr
  below other hother := h.below other ((setConnection_live hlive other).mp hother)
  owned := h.owned

theorem setState (h : Coherent owner none ep) (hconn : ep.connections handle = some conn)
    (state : ConnectionState) :
    Coherent owner none (ep.setConnection handle { conn with state := state }) := by
  have hbusy := h.setConnection ⟨conn, hconn⟩ { conn with state := state }
  refine ⟨hbusy.cidLive, hbusy.initialLive, fun other conn' hother _ => ?_, hbusy.tokens,
    hbusy.established, hbusy.below, hbusy.owned⟩
  rw [setConnection_apply] at hother
  split at hother
  · next heq =>
    cases hother
    rw [heq]
    exact h.cids handle conn hconn (by simp)
  · exact h.cids other conn' hother (by simp)

theorem busy (h : Coherent owner none ep) (handle : ConnectionHandle) :
    Coherent owner (some handle) ep :=
  ⟨h.cidLive, h.initialLive, fun other conn hconn _ => h.cids other conn hconn (by simp),
    h.tokens, h.established, h.below, h.owned⟩

theorem removeConnection (h : Coherent owner (some handle) ep) :
    Coherent owner none (ep.removeConnection handle) := by
  refine ⟨fun cid other hcid => ?_, fun dcid other hdcid => ?_, fun other conn hconn _ cid => ?_,
    fun cid token htoken => ?_, h.established.unqueue fun other hne hlive => ?_,
    fun other hother => h.below other (removeConnection_live.mp hother).2,
    fun cid other hcid => h.owned cid other (removeConnection_cidToHandle.mp hcid).2⟩
  · obtain ⟨hne, hold⟩ := removeConnection_cidToHandle.mp hcid
    exact removeConnection_live.mpr ⟨hne, h.cidLive cid other hold⟩
  · obtain ⟨hne, hold⟩ := removeConnection_initialDcidToHandle.mp hdcid
    exact removeConnection_live.mpr ⟨hne, h.initialLive dcid other hold⟩
  · obtain ⟨hne, hold⟩ := removeConnection_connections.mp hconn
    rw [removeConnection_cidToHandle,
      ← h.cids other conn hold (fun heq => hne (Option.some.inj heq).symm) cid]
    exact and_iff_right hne
  · obtain ⟨hnot, hold⟩ := removeConnection_cidToResetToken.mp htoken
    obtain ⟨other, hother⟩ := h.tokens cid token hold
    refine ⟨other, removeConnection_cidToHandle.mpr ⟨fun heq => hnot (heq ▸ hother), hother⟩⟩
  · exact removeConnection_live.mpr ⟨hne, hlive⟩

theorem applyConnectionUpdate (h : Coherent owner (some handle) ep)
    (hconn : ep.connections handle = some conn) (howns : Owns owner handle conn) :
    Coherent owner none (ep.applyConnectionUpdate handle (.capture conn)) := by
  by_cases hclosed : (ConnectionUpdate.capture conn).closed = true
  · rw [QuicEndpoint.applyConnectionUpdate, if_pos hclosed]
    exact h.removeConnection
  rw [Bool.not_eq_true] at hclosed
  obtain ⟨hconnections, hinitial, hnext, hestablished⟩ :=
    applyConnectionUpdate_kept ep handle hclosed
  have hlive : ∀ other, (ep.applyConnectionUpdate handle (.capture conn)).Live other ↔
      ep.Live other := by
    intro other
    unfold Live
    rw [hconnections]
  -- an identifier that is current here is mapped to no other connection
  have howner : ∀ cid other, ep.cidToHandle cid = some other → other ≠ handle →
      cid ∉ conn.localCidBytes := by
    intro cid other hcid hne hmem
    exact hne ((h.owned cid other hcid).symm.trans (howns cid hmem))
  refine ⟨fun cid other hcid => ?_, fun dcid other hdcid => ?_, fun other conn' hconn' _ cid => ?_,
    fun cid token htoken => ?_, ?_, fun other hother => ?_, fun cid other hcid => ?_⟩
  · rw [hlive]
    rcases (applyConnectionUpdate_cidToHandle hclosed).mp hcid with ⟨-, rfl⟩ | ⟨-, -, hold⟩
    · exact ⟨conn, hconn⟩
    · exact h.cidLive cid other hold
  · rw [hlive]
    rw [hinitial] at hdcid
    exact h.initialLive dcid other hdcid
  · grind [cases Coherent, applyConnectionUpdate_cidToHandle, ConnectionUpdate.capture]
  · rcases applyConnectionUpdate_cidToResetToken hclosed htoken with hnew | ⟨hold, hkept⟩
    · exact ⟨handle, (applyConnectionUpdate_cidToHandle hclosed).mpr
        (.inl ⟨mem_localCidResetTokens hnew, rfl⟩)⟩
    · grind [cases Coherent, applyConnectionUpdate_cidToHandle]
  · rw [hestablished]
    have hqueued := h.established.mono fun other => (hlive other).mpr
    split
    · exact hqueued.queue ((hlive handle).mpr ⟨conn, hconn⟩)
    · exact hqueued
  · rw [hnext]
    exact h.below other ((hlive other).mp hother)
  · rcases (applyConnectionUpdate_cidToHandle hclosed).mp hcid with ⟨hmem, rfl⟩ | ⟨-, -, hold⟩
    · exact howns cid hmem
    · exact h.owned cid other hold

theorem registerConnection
    (h : Coherent owner none ep) (hreg : ep.registerConnection initialDcid new = some (handle, ep'))
    (howns : Owns owner ep.nextHandle new.conn) (hfirst : new.localCid ∈ new.conn.localCidBytes) : Coherent owner none ep' := by
  obtain ⟨rfl, hnext, hconnections, hcids, hinitial, htokens, hestablished⟩ :=
    registerConnection_eq_some hreg
  have hlive : ∀ other, ep'.Live other ↔ other = ep.nextHandle ∨ ep.Live other := by
    intro other
    unfold Live
    rw [hconnections, Table.insert_apply]
    split
    all_goals grind
  have hmapped : ∀ cid other, ep'.cidToHandle cid = some other ↔
      (cid ∈ new.conn.localCidBytes ∧ other = ep.nextHandle) ∨
        (cid ∉ new.conn.localCidBytes ∧ ep.cidToHandle cid = some other) := by
    grind
  refine ⟨fun cid other hcid => ?_, fun dcid other hdcid => ?_, fun other conn hconn _ cid => ?_,
    fun cid token htoken => ?_, ?_, fun other hother => ?_, fun cid other hcid => ?_⟩
  · rw [hlive]
    rcases (hmapped cid other).mp hcid with ⟨-, heq⟩ | ⟨-, hold⟩
    · exact .inl heq
    · exact .inr (h.cidLive cid other hold)
  · rw [hinitial, Table.insert_apply] at hdcid
    grind [cases Coherent]
  · rw [hmapped]
    rw [hconnections, Table.insert_apply] at hconn
    split at hconn
    · next heq =>
      grind [cases Coherent]
    · next hne =>
      rw [← h.cids other conn hconn (by simp) cid]
      constructor
      · grind
      · intro hold
        refine .inr ⟨fun hmem => hne ?_, hold⟩
        exact (h.owned cid other hold).symm.trans (howns cid hmem)
  · rw [htokens] at htoken
    by_cases hmem : cid ∈ new.conn.localCidBytes
    · exact ⟨_, (hmapped cid _).mpr (.inl ⟨hmem, rfl⟩)⟩
    · rcases Table.insertAll_eq_some htoken with hnew | hold
      · exact absurd (mem_localCidResetTokens hnew) hmem
      · obtain ⟨other, hother⟩ := h.tokens cid token hold
        exact ⟨other, (hmapped cid other).mpr (.inr ⟨hmem, hother⟩)⟩
  · rw [hestablished]
    have hqueued := h.established.mono fun other hother => (hlive other).mpr (.inr hother)
    split
    · exact hqueued.queue ((hlive _).mpr (.inl rfl))
    · exact hqueued
  · rw [hnext]
    rcases (hlive other).mp hother with rfl | hold
    · exact Nat.lt_succ_self _
    · exact Nat.lt_succ_of_lt (h.below other hold)
  · rcases (hmapped cid other).mp hcid with ⟨hmem, rfl⟩ | ⟨-, hold⟩
    · exact howns cid hmem
    · exact h.owned cid other hold

end Coherent

/-! ## Runs -/

def KeepsOwner (owner : Bytes → ConnectionHandle) (work : ConnectionWork) : Prop :=
  ∀ handle conn conn', Owns owner handle conn → work handle conn = .ok conn' →
    Owns owner handle conn'

def Distinct (owner : Bytes → ConnectionHandle) (ep : QuicEndpoint) : EndpointEvent → Prop
  | .datagram _ feed flush created => KeepsOwner owner feed ∧ KeepsOwner owner flush ∧
      ∀ new ∈ created, Owns owner ep.nextHandle new.conn
  | .timeouts _ _ flush => KeepsOwner owner flush
  | .flushAll _ flush => KeepsOwner owner flush
  | .accept => True
  | .closeConnection _ _ => True

def registers (ep : QuicEndpoint) : EndpointEvent → Option NewConnection
  | .datagram dcid _ _ created =>
    if ep.cidToHandle dcid = none ∧ ep.initialDcidToHandle dcid = none ∧
      ep.cidToResetToken dcid = none then created else none
  | _ => none

/-- A new connection still has the identifier it was created with. -/
def KeepsFirst (ep : QuicEndpoint) (e : EndpointEvent) : Prop :=
  ∀ new ∈ ep.registers e, new.localCid ∈ new.conn.localCidBytes

instance (ep : QuicEndpoint) (e : EndpointEvent) : Decidable (ep.KeepsFirst e) :=
  inferInstanceAs (Decidable (∀ new ∈ ep.registers e, new.localCid ∈ new.conn.localCidBytes))

variable {e : EndpointEvent} {r : EndpointResponse}

theorem receive_cases {feed flush : ConnectionWork} {created : Option NewConnection}
    (h : ep.receive dcid feed flush created = some (r, ep')) :
    (ep.registers (.datagram dcid feed flush created) = none ∧
        (ep' = ep ∨ ∃ handle, ep' = ep.routeDatagramToConnection feed flush handle)) ∨
      ∃ new handle, ep.registers (.datagram dcid feed flush created) = some new ∧
        created = some new ∧ ep.registerConnection dcid new = some (handle, ep') := by
  unfold receive at h
  dsimp only [registers]
  split at h
  · next handle hcid =>
    grind
  · next hcid =>
    split at h
    · next handle hdcid =>
      grind
    · next hdcid =>
      split at h
      · next token htoken =>
        grind
      · next htoken =>
        rw [if_pos ⟨hcid, hdcid, htoken⟩]
        split at h
        · next new =>
          obtain ⟨⟨handle, ep₁⟩, hreg, heq⟩ := Option.map_eq_some_iff.mp h
          grind
        · cases h
          exact .inl ⟨rfl, .inl rfl⟩

namespace Coherent

theorem driveConnection {work : ConnectionWork} (h : Coherent owner none ep)
    (hwork : KeepsOwner owner work) (handle : ConnectionHandle) :
    Coherent owner none (ep.driveConnection work handle) := by
  unfold QuicEndpoint.driveConnection
  split
  · exact h
  · next conn hconn =>
    split
    · next conn' hok =>
      refine (h.setConnection ⟨conn, hconn⟩ conn').applyConnectionUpdate ?_
        (hwork handle conn conn' (h.owns hconn) hok)
      rw [setConnection_apply, if_pos rfl]
    · exact (h.busy handle).removeConnection

variable {timers : ConnectionHandle → ManagedConnection → ConnectionState} {flush : ConnectionWork}

theorem timeoutTurn {acc : QuicEndpoint × List ConnectionHandle}
    (h : Coherent owner none acc.1) (hflush : KeepsOwner owner flush) (handle : ConnectionHandle) :
    Coherent owner none (QuicEndpoint.timeoutTurn timers flush acc handle).1 := by
  unfold QuicEndpoint.timeoutTurn
  split
  · exact h
  · next conn hconn =>
    have hstate := h.setState hconn (timers handle conn)
    dsimp only
    split
    · exact hstate
    · split
      · exact hstate
      · exact hstate.driveConnection hflush handle

theorem handleConnectionTimeouts {handles : List ConnectionHandle}
    (h : Coherent owner none ep) (hflush : KeepsOwner owner flush) :
    Coherent owner none (ep.handleConnectionTimeouts handles timers flush) := by
  have hturns : Coherent owner none
      (handles.foldl (QuicEndpoint.timeoutTurn timers flush) (ep, [])).1 :=
    List.foldlRecOn handles _ (motive := fun acc : QuicEndpoint × List ConnectionHandle =>
      Coherent owner none acc.1) h
      fun _ hacc handle _ => hacc.timeoutTurn hflush handle
  exact List.foldlRecOn _ _ hturns fun _ hep handle _ => (hep.busy handle).removeConnection

theorem close (h : Coherent owner none ep) (handle : ConnectionHandle)
    (close : ManagedConnection → Except QuicError ConnectionState) :
    Coherent owner none (ep.close handle close).2 := by
  unfold QuicEndpoint.close
  split
  · exact h
  · next conn hconn =>
    split
    · exact (h.busy handle).removeConnection
    · next state hok =>
      have hstate := h.setState hconn state
      exact { hstate with established := hstate.established.unqueue fun _ _ hlive => hlive }

theorem step (h : Coherent owner none ep) (hdistinct : Distinct owner ep e)
    (hfirst : ep.KeepsFirst e) (hstep : ep.step e = some (r, ep')) : Coherent owner none ep' := by
  cases e with
  | datagram dcid feed flush created =>
    obtain ⟨hfeed, hflush, hcreated⟩ := hdistinct
    rcases receive_cases hstep with ⟨-, rfl | ⟨handle, rfl⟩⟩ | ⟨new, handle, hnew, hsome, hreg⟩
    · exact h
    · refine h.driveConnection (fun handle conn conn' howns hok => ?_) handle
      cases hfed : feed handle conn with
      | error err =>
        rw [hfed] at hok
        cases hok
      | ok fed =>
        rw [hfed] at hok
        exact hflush handle fed conn' (hfeed handle conn fed howns hfed) hok
    · exact h.registerConnection hreg (hcreated new (hsome ▸ rfl)) (hfirst new hnew)
  | timeouts handles timers flush =>
    cases hstep
    exact h.handleConnectionTimeouts hdistinct
  | flushAll handles flush =>
    cases hstep
    exact List.foldlRecOn handles _ h fun _ hep handle _ => hep.driveConnection hdistinct handle
  | accept =>
    cases hstep
    exact { h with established := h.established.dequeue }
  | closeConnection handle close =>
    cases hstep
    exact h.close handle close

end Coherent

theorem Consistent.registered
    (h : ep'.Consistent) (hreg : ep.registerConnection initialDcid new = some (handle, ep')) :
    new.localCid ∈ new.conn.localCidBytes := by
  obtain ⟨rfl, -, hconnections, hcids, -⟩ := registerConnection_eq_some hreg
  refine (h.cids ep.nextHandle new.conn ?_ new.localCid).mp ?_
  · rw [hconnections, Table.insert_apply, if_pos rfl]
  · rw [hcids, if_pos (.inl rfl)]

end QuicEndpoint

/-- In every run in which the generated identifiers are distinct and every new connection still
has its first identifier when it is entered, the tables are consistent; and from there an event
leaves them consistent exactly if it meets the same condition. -/
theorem endpoint_tables_consistent_iff (owner : Bytes → ConnectionHandle) {tr : EndpointTrace}
    {ep : QuicEndpoint}
    (hrun : Run QuicEndpoint.step (fun ep e => ep.Distinct owner e ∧ ep.KeepsFirst e) .bind tr ep) :
    ep.Consistent ∧ ∀ e r ep', ep.Distinct owner e → ep.step e = some (r, ep') →
      (ep'.Consistent ↔ ep.KeepsFirst e) := by
  have hinv : ep.Coherent owner none :=
    hrun.invariant (I := fun _ ep => ep.Coherent owner none) (QuicEndpoint.Coherent.bind owner)
      fun _ _ _ _ _ hep hok hstep => hep.step hok.1 hok.2 hstep
  refine ⟨hinv.consistent, fun e r ep' hdistinct hstep => ⟨fun hconsistent new hnew => ?_,
    fun hfirst => (hinv.step hdistinct hfirst hstep).consistent⟩⟩
  cases e with
  | datagram dcid feed flush created =>
    rcases QuicEndpoint.receive_cases hstep with ⟨hnone, -⟩ | ⟨new', handle, hsome, -, hreg⟩
    · rw [hnone] at hnew
      cases hnew
    · rw [hsome] at hnew
      cases hnew
      exact hconsistent.registered hreg
  | _ => cases hnew

def exampleConnection (byte : UInt8) : ManagedConnection :=
  ⟨.new (.fromSlice [byte]) (.fromSlice [9]), .connected⟩

/-- Two clients, the first of which has been accepted. -/
theorem two_connections_consistent :
    ∃ ep : QuicEndpoint, ep.cidToHandle [0] = some 0 ∧ ep.cidToHandle [1] = some 1 ∧
      ep.established.1 = [1] ∧ ep.Consistent := by
  have hwork : QuicEndpoint.KeepsOwner (fun cid => (cid.headD 0).toNat) (fun _ conn => .ok conn) :=
    fun handle conn conn' howns hok => Except.ok.inj hok ▸ howns
  have hnil : Run QuicEndpoint.step (fun ep e =>
      ep.Distinct (fun cid => (cid.headD 0).toNat) e ∧ ep.KeepsFirst e) .bind [] _ := .nil
  have hfirst := hnil.push (.datagram [7] (fun _ conn => .ok conn) (fun _ conn => .ok conn)
    (some ⟨[0], exampleConnection 0⟩)) rfl ⟨⟨hwork, hwork, by decide⟩, by decide⟩
  have hsecond := hfirst.push (.datagram [8] (fun _ conn => .ok conn) (fun _ conn => .ok conn)
    (some ⟨[1], exampleConnection 1⟩)) rfl ⟨⟨hwork, hwork, by decide⟩, by decide⟩
  have haccept := hsecond.push .accept rfl ⟨trivial, by decide⟩
  exact ⟨_, rfl, rfl, rfl, (endpoint_tables_consistent_iff _ haccept).1⟩

/-- A client whose first datagram retires the identifier that the server has just chosen: it
stays in the table beside the one that replaces it. -/
theorem retired_first_cid_stays :
    ∃ tr ep, Run QuicEndpoint.step (fun ep e => ep.Distinct (fun _ => 0) e) .bind tr ep ∧
      ep.cidToHandle [0] = some 0 ∧
      ((ep.connections 0).map ManagedConnection.localCidBytes = some [[5]]) ∧
      ¬ ep.Consistent := by
  have hwork : QuicEndpoint.KeepsOwner (fun _ => 0) (fun _ conn => .ok conn) :=
    fun handle conn conn' howns hok => Except.ok.inj hok ▸ howns
  have hnil : Run QuicEndpoint.step (fun ep e => ep.Distinct (fun _ => 0) e) .bind [] _ := .nil
  have hrun := hnil.push (.datagram [7] (fun _ conn => .ok conn) (fun _ conn => .ok conn)
    (some ⟨[0], ⟨(exampleConnection 0).cidManager.retireLocalCid 0 (.fromSlice [5], []),
      .handshake⟩⟩)) rfl ⟨hwork, hwork, by decide⟩
  refine ⟨_, _, hrun, rfl, rfl, fun hconsistent => ?_⟩
  have hmem := (hconsistent.cids 0 _ rfl [0]).mp rfl
  revert hmem
  decide

end Starfish.Quic
