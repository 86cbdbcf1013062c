import Mathlib.Data.Finset.Basic
import Starfish.Lib.Table
import Starfish.Quic.Connection.Streams
import Starfish.Quic.Transport.ConnectionId

/-!
# The endpoint

A server endpoint owns the socket and all connections. Datagrams are routed by the destination
connection identifier to the connection that issued it. The identifiers of a connection change
while it takes a datagram in and while it sends, so the tables of the endpoint are brought up to
date after each. What a connection does with a datagram, when it sends and when its timers
expire is a parameter; the timers and closing leave the identifiers of a connection alone.
-/

namespace Starfish.Quic

def ConnectionIdManager.localCids (m : ConnectionIdManager) : List IssuedConnectionId :=
  m.issued.filter (!·.retired)

abbrev ConnectionHandle := Nat

structure ManagedConnection where
  cidManager : ConnectionIdManager
  state : ConnectionState
deriving DecidableEq

namespace ManagedConnection

def localCidBytes (conn : ManagedConnection) : List Bytes :=
  conn.cidManager.localCids.map fun entry => entry.cid.bytes

def localCidResetTokens (conn : ManagedConnection) : List (Bytes × Bytes) :=
  conn.cidManager.localCids.filterMap fun entry =>
    entry.statelessResetToken.map fun token => (entry.cid.bytes, token)

def isEstablished (conn : ManagedConnection) : Bool := conn.state == .connected

end ManagedConnection

structure ConnectionUpdate where
  localCids : List Bytes
  resetTokens : List (Bytes × Bytes)
  established : Bool
  closed : Bool

def ConnectionUpdate.capture (conn : ManagedConnection) : ConnectionUpdate where
  localCids := conn.localCidBytes
  resetTokens := conn.localCidResetTokens
  established := conn.isEstablished
  closed := conn.state == .closed

/-! ## Connections that wait to be accepted -/

abbrev Established := List ConnectionHandle × Finset ConnectionHandle

def queueEstablishedHandle (q : Established) (handle : ConnectionHandle) : Established :=
  if handle ∈ q.2 then q else (q.1 ++ [handle], insert handle q.2)

def dequeueEstablishedHandle (q : Established) : Option ConnectionHandle × Established :=
  match q.1 with
  | [] => (none, q)
  | handle :: rest => (some handle, (rest, q.2.erase handle))

def unqueueEstablishedHandle (q : Established) (handle : ConnectionHandle) : Established :=
  (q.1.filter (· ≠ handle), q.2.erase handle)

/-! ## The tables -/

structure QuicEndpoint where
  connections : Table ConnectionHandle ManagedConnection
  cidToHandle : Table Bytes ConnectionHandle
  initialDcidToHandle : Table Bytes ConnectionHandle
  cidToResetToken : Table Bytes Bytes
  nextHandle : ConnectionHandle
  established : Established

abbrev ConnectionWork := ConnectionHandle → ManagedConnection → Except QuicError ManagedConnection

/-- A connection that has been created for an Initial packet and has taken it in. -/
structure NewConnection where
  localCid : Bytes
  conn : ManagedConnection

namespace QuicEndpoint

def bind : QuicEndpoint := ⟨.empty, .empty, .empty, .empty, 0, ([], ∅)⟩

def cidsForHandle (ep : QuicEndpoint) (handle : ConnectionHandle) (cid : Bytes) : Bool :=
  ep.cidToHandle cid == some handle

def setConnection (ep : QuicEndpoint) (handle : ConnectionHandle) (conn : ManagedConnection) :
    QuicEndpoint :=
  { ep with connections := ep.connections.insert handle conn }

def removeConnection (ep : QuicEndpoint) (handle : ConnectionHandle) : QuicEndpoint where
  connections := ep.connections.erase handle
  cidToHandle := ep.cidToHandle.retain fun _ mapped => mapped ≠ handle
  initialDcidToHandle := ep.initialDcidToHandle.retain fun _ mapped => mapped ≠ handle
  cidToResetToken := ep.cidToResetToken.retain fun cid _ => !ep.cidsForHandle handle cid
  nextHandle := ep.nextHandle
  established := unqueueEstablishedHandle ep.established handle

def applyConnectionUpdate (ep : QuicEndpoint) (handle : ConnectionHandle)
    (update : ConnectionUpdate) : QuicEndpoint :=
  if update.closed then ep.removeConnection handle
  else
    let current := fun cid => decide (cid ∈ update.localCids)
    { ep with
      cidToHandle := (ep.cidToHandle.retain fun cid mapped =>
          decide (mapped ≠ handle) || current cid).insertAll
        (update.localCids.map (·, handle))
      cidToResetToken := (ep.cidToResetToken.retain fun cid _ =>
          !ep.cidsForHandle handle cid || current cid).insertAll update.resetTokens
      established :=
        if update.established then queueEstablishedHandle ep.established handle
        else ep.established }

def dropFailingConnection (ep : QuicEndpoint) (handle : ConnectionHandle) : QuicEndpoint :=
  ep.removeConnection handle

def driveConnection (ep : QuicEndpoint) (work : ConnectionWork) (handle : ConnectionHandle) :
    QuicEndpoint :=
  match ep.connections handle with
  | none => ep
  | some conn =>
    match work handle conn with
    | .ok conn => (ep.setConnection handle conn).applyConnectionUpdate handle (.capture conn)
    | .error _ => ep.dropFailingConnection handle

def flushConnection (ep : QuicEndpoint) (flush : ConnectionWork) (handle : ConnectionHandle) :
    QuicEndpoint :=
  ep.driveConnection flush handle

def routeDatagramToConnection (ep : QuicEndpoint) (feed flush : ConnectionWork)
    (handle : ConnectionHandle) : QuicEndpoint :=
  ep.driveConnection (fun handle conn => (feed handle conn).bind (flush handle)) handle

def timeoutTurn (timers : ConnectionHandle → ManagedConnection → ConnectionState)
    (flush : ConnectionWork) (acc : QuicEndpoint × List ConnectionHandle)
    (handle : ConnectionHandle) : QuicEndpoint × List ConnectionHandle :=
  match acc.1.connections handle with
  | none => acc
  | some conn =>
    let state := timers handle conn
    let ep := acc.1.setConnection handle { conn with state := state }
    if state = .closed then (ep, acc.2 ++ [handle])
    else if state = .draining then (ep, acc.2)
    else (ep.flushConnection flush handle, acc.2)

def handleConnectionTimeouts (ep : QuicEndpoint) (handles : List ConnectionHandle)
    (timers : ConnectionHandle → ManagedConnection → ConnectionState) (flush : ConnectionWork) :
    QuicEndpoint :=
  let result := handles.foldl (timeoutTurn timers flush) (ep, [])
  result.2.foldl removeConnection result.1

def flushAll (ep : QuicEndpoint) (handles : List ConnectionHandle) (flush : ConnectionWork) :
    QuicEndpoint :=
  handles.foldl (fun ep handle => ep.flushConnection flush handle) ep

/-- Enter a new connection. Its first identifier was copied before the connection took the
datagram in. -/
def registerConnection (ep : QuicEndpoint) (initialDcid : Bytes) (new : NewConnection) :
    Option (ConnectionHandle × QuicEndpoint) :=
  (checkedAdd ep.nextHandle 1).map fun nextHandle =>
    let handle := ep.nextHandle
    (handle, {
      connections := ep.connections.insert handle new.conn
      cidToHandle := (ep.cidToHandle.insert new.localCid handle).insertAll
        (new.conn.localCidBytes.map (·, handle))
      initialDcidToHandle := ep.initialDcidToHandle.insert initialDcid handle
      cidToResetToken := ep.cidToResetToken.insertAll new.conn.localCidResetTokens
      nextHandle := nextHandle
      established :=
        if new.conn.isEstablished then queueEstablishedHandle ep.established handle
        else ep.established })

end QuicEndpoint

/-! ## The machine -/

inductive EndpointEvent
  /-- A datagram; `created` is the connection that its packet opens if no other one takes it. -/
  | datagram (dcid : Bytes) (feed flush : ConnectionWork) (created : Option NewConnection)
  | timeouts (handles : List ConnectionHandle)
      (timers : ConnectionHandle → ManagedConnection → ConnectionState) (flush : ConnectionWork)
  | flushAll (handles : List ConnectionHandle) (flush : ConnectionWork)
  | accept
  | closeConnection (handle : ConnectionHandle)
      (close : ManagedConnection → Except QuicError ConnectionState)

inductive EndpointResponse
  | done
  | routed (handle : ConnectionHandle)
  | statelessReset (token : Bytes)
  | registered (handle : ConnectionHandle)
  | ignored
  | accepted (handle : Option ConnectionHandle)
  | closed (result : Except QuicError Unit)

abbrev EndpointTrace := List (EndpointEvent × EndpointResponse)

namespace QuicEndpoint

/-- Route a datagram. -/
def receive (ep : QuicEndpoint) (dcid : Bytes) (feed flush : ConnectionWork)
    (created : Option NewConnection) : Option (EndpointResponse × QuicEndpoint) :=
  match ep.cidToHandle dcid with
  | some handle => some (.routed handle, ep.routeDatagramToConnection feed flush handle)
  | none =>
    match ep.initialDcidToHandle dcid with
    | some handle => some (.routed handle, ep.routeDatagramToConnection feed flush handle)
    | none =>
      match ep.cidToResetToken dcid with
      | some token => some (.statelessReset token, ep)
      | none =>
        match created with
        | some new => (ep.registerConnection dcid new).map fun x => (.registered x.1, x.2)
        | none => some (.ignored, ep)

def close (ep : QuicEndpoint) (handle : ConnectionHandle)
    (close : ManagedConnection → Except QuicError ConnectionState) :
    Except QuicError Unit × QuicEndpoint :=
  match ep.connections handle with
  | none => (.ok (), ep)
  | some conn =>
    match close conn with
    | .error err => (.error err, ep.removeConnection handle)
    | .ok state =>
      (.ok (), { ep.setConnection handle { conn with state := state } with
        established := unqueueEstablishedHandle ep.established handle })

/-- One event; `none` is a panic. -/
def step (ep : QuicEndpoint) : EndpointEvent → Option (EndpointResponse × QuicEndpoint)
  | .datagram dcid feed flush created => ep.receive dcid feed flush created
  | .timeouts handles timers flush =>
    some (.done, ep.handleConnectionTimeouts handles timers flush)
  | .flushAll handles flush => some (.done, ep.flushAll handles flush)
  | .accept =>
    let result := dequeueEstablishedHandle ep.established
    some (.accepted result.1, { ep with established := result.2 })
  | .closeConnection handle close =>
    let result := ep.close handle close
    some (.closed result.1, result.2)

end QuicEndpoint

end Starfish.Quic
