import Mathlib.Algebra.Group.Nat.Defs
import Mathlib.Algebra.Group.Pi.Lemmas
import Starfish.Quic.Connection.Nonces
import Starfish.Quic.Connection.PeerPaths

/-!
# The amplification limit

Until a peer address is validated, a server sends it at most three times the bytes
received from it. The limit is checked when a packet is built and charged when its
datagram is sent. Initial and Handshake packets are checked together with the
packets that wait in the coalesced datagram; ApplicationData packets are checked
alone, although the coalesced datagram is sent before them.
-/

namespace Starfish.Quic

universe u v

/-- What sending uses of the rest of the connection: the congestion window, the connection
IDs, the path MTU, the key update policy, and the socket with the books kept of what it
has sent. -/
structure Surroundings (α : Type u) (γ : Type v) where
  context : γ → SendContext α
  maxSendUdpPayloadSize : γ → Nat
  keyUpdateDue : γ → KeyState → Bool
  sendTo : γ → α → List BuiltPacket → Except QuicError Unit × γ

/-- A connection with the datagrams that have arrived and those the socket has taken. -/
structure Endpoint (α : Type u) (γ : Type v) where
  keys : KeyState
  paths : PeerPaths α
  rest : γ
  received : List (α × Nat) := []
  sent : List (α × Nat) := []

def bytesFor {α : Type u} [DecidableEq α] (log : List (α × Nat)) (addr : α) : Nat :=
  ((log.filter fun x => decide (x.1 = addr)).map Prod.snd).sum

namespace Endpoint

variable {α : Type u} {γ : Type v} [DecidableEq α] (P : PacketProtection) (R : Surroundings α γ)

/-- The gates that a packet has to pass. -/
def context (e : Endpoint α γ) : SendContext α :=
  { R.context e.rest with canSendToAddr := e.paths.canSendToAddr }

def buildPacketToAddr (e : Endpoint α γ) (space : PacketNumberSpace) (frames : List Frame)
    (payload : Bytes) (addr : α) (trackRetransmission : Bool) (pendingDatagramBytes : Nat) :
    Except QuicError (Option BuiltPacket) × Endpoint α γ :=
  let b := e.keys.buildPacketToAddr P (e.context R) space frames payload addr
    trackRetransmission pendingDatagramBytes
  (b.result.map fun packet => packet.map SealedPacket.toBuiltPacket, { e with keys := b.state })

def sendBuiltDatagramToAddr (e : Endpoint α γ) (addr : α) (packets : List BuiltPacket) :
    Except QuicError Unit × Endpoint α γ :=
  if datagramLen packets = 0 then (.ok (), e)
  else
    match R.sendTo e.rest addr packets with
    | (.error err, rest) => (.error err, { e with rest := rest })
    | (.ok (), rest) =>
      (.ok (),
        { e with
          rest := rest
          paths := e.paths.recordUnvalidatedBytesSent addr (datagramLen packets)
          sent := e.sent ++ [(addr, datagramLen packets)] })

/-- Send frames in a datagram of their own, to any address. Close frames, targeted frames and
MTU probes go this way. -/
def sendFramesToAddr (e : Endpoint α γ) (space : PacketNumberSpace) (frames : List Frame)
    (payload : Bytes) (addr : α) (trackRetransmission : Bool) :
    Except QuicError Bool × Endpoint α γ :=
  match e.buildPacketToAddr P R space frames payload addr trackRetransmission 0 with
  | (.error err, e) => (.error err, e)
  | (.ok none, e) => (.ok false, e)
  | (.ok (some packet), e) =>
    match e.sendBuiltDatagramToAddr R addr [packet] with
    | (.error err, e) => (.error err, e)
    | (.ok (), e) => (.ok true, e)

variable {e' : Endpoint α γ} {space : PacketNumberSpace} {payload : Bytes} {addr : α}
  {trackRetransmission : Bool} {packet : BuiltPacket}

variable {P R} in
theorem buildPacketToAddr_built {e : Endpoint α γ} {frames : List Frame}
    {pendingDatagramBytes : Nat}
    (h : e.buildPacketToAddr P R space frames payload addr trackRetransmission
      pendingDatagramBytes = (.ok (some packet), e')) : ∃ built : SealedPacket,
      (e.keys.buildPacketToAddr P (e.context R) space frames payload addr trackRetransmission
        pendingDatagramBytes).result = .ok (some built) ∧ built.toBuiltPacket = packet := by
  unfold buildPacketToAddr at h
  generalize e.keys.buildPacketToAddr P (e.context R) space frames payload addr
    trackRetransmission pendingDatagramBytes = b at h
  obtain ⟨result, sealed, state⟩ := b
  cases result with
  | error err => simp [Except.map] at h
  | ok built =>
    cases built with
    | none => simp [Except.map] at h
    | some built =>
      grind [Except.map]

/-- The send loop works on the active path. -/
def builder : PacketBuilder (Endpoint α γ) where
  applicationSendKind e := e.keys.applicationSendKind
  hasKeys e space := (e.keys.keys.get space).isSome
  maxSendUdpPayloadSize e := R.maxSendUdpPayloadSize e.rest
  tagLen e space :=
    ((e.keys.sealKeys space (e.keys.packetKind space)).map fun k => P.tagLen k.1).getD 16
  maybeInitiateKeyUpdate e :=
    if R.keyUpdateDue e.rest e.keys then { e with keys := e.keys.initiateKeyUpdate.2 } else e
  build e space frames payload pendingBytes :=
    e.buildPacketToAddr P R space frames payload e.paths.peerAddr true pendingBytes
  sendBuiltDatagram e packets := e.sendBuiltDatagramToAddr R e.paths.peerAddr packets
  build_frames := by
    intro e space frames payload pendingBytes packet e' h
    obtain ⟨built, hbuilt, rfl⟩ := buildPacketToAddr_built h
    exact KeyState.buildPacketToAddr_frames hbuilt

/-! ## Events -/

/-- What a connection is asked to do between two calls of the send loop. -/
inductive Call (α : Type u)
  | datagramReceived (addr : α) (bytes : Nat)
  | packetProcessed (space : PacketNumberSpace) (addr : α)
  | pathValidationStarted (addr : α)
  | pathResponse (addr : α)
  | sendFrames (space : PacketNumberSpace) (frames : List Frame) (payload : Bytes) (addr : α)
      (trackRetransmission : Bool)

/-- Path responses that do not match the challenge do nothing. -/
def call (e : Endpoint α γ) : Call α → Endpoint α γ
  | .datagramReceived addr bytes =>
    { e with
      paths := e.paths.recordUnvalidatedBytesReceived addr bytes
      received := e.received ++ [(addr, bytes)] }
  | .packetProcessed space addr =>
    if e.paths.shouldAutoValidatePeerPath space addr then
      { e with paths := e.paths.markPeerPathValidated addr }
    else e
  | .pathValidationStarted addr => { e with paths := e.paths.ensureEntry addr }
  | .pathResponse addr =>
    { e with paths := (e.paths.markPeerPathValidated addr).setActivePeerAddr addr }
  | .sendFrames space frames payload addr trackRetransmission =>
    (e.sendFramesToAddr P R space frames payload addr trackRetransmission).2

/-- Events of a connection. The send loop appears with its single passes; the coalesced
datagram is local to it, so that no other call comes between a pass and the flush. -/
inductive PathEvent (α : Type u) (γ : Type v)
  | call (c : Call α)
  | pass (space : PacketNumberSpace) (frames : List Frame)
  | flush
  /-- The send loop returned early and dropped the coalesced packets. -/
  | abandoned
  /-- Everything but the paths may change at any time. -/
  | other (keys : KeyState) (rest : γ) (pendingFrames : List (PacketNumberSpace × Frame))

def step (s : Sending (Endpoint α γ)) :
    PathEvent α γ → Option (Unit × Sending (Endpoint α γ))
  | .call c =>
    if s.coalescedPackets.isEmpty then some ((), { s with conn := s.conn.call P R c }) else none
  | .pass space frames => some ((), (sendTurn (builder P R) space s frames).2)
  | .flush => some ((), (flushCoalesced (builder P R) s).2)
  | .abandoned => some ((), { s with coalescedPackets := [] })
  | .other keys rest pendingFrames =>
    some ((), { s with
      conn := { s.conn with keys := keys, rest := rest }
      pendingFrames := pendingFrames })

/-- If the packet that a pass over ApplicationData frames fills has room in the limit, it has
room together with the coalesced packets, which are sent before it. -/
def RoomBehindCoalesced (s : Sending (Endpoint α γ)) (frames : List Frame) : Prop :=
  let e := beforePacket (builder P R) s.conn .applicationData
  ∀ filled len, fillPacket (maxPayload (builder P R) e .applicationData) [] [] frames = .ok filled →
    e.keys.packetLen P (e.context R) .applicationData e.paths.peerAddr filled.payload = some len →
    e.paths.canSendToAddr e.paths.peerAddr len = true →
    e.paths.canSendToAddr e.paths.peerAddr
      (saturatingAdd (datagramLen s.coalescedPackets) len) = true

/-- The condition on an event: ApplicationData packets are checked together with what is
coalesced, and the counter of received bytes stays in the range where its triple is one. -/
def KeepsLimit (s : Sending (Endpoint α γ)) : PathEvent α γ → Prop
  | .call (.datagramReceived addr bytes) =>
    let state := s.conn.paths.peerPathStateForAddr addr
    state.validated = true ∨ 3 * (state.bytesReceived + bytes) < u64Max
  | .pass .applicationData frames => RoomBehindCoalesced P R s frames
  | _ => True

/-! ## The invariant -/

@[simp] theorem bytesFor_nil (a : α) : bytesFor [] a = 0 := rfl

theorem bytesFor_append (log : List (α × Nat)) (addr : α) (bytes : Nat) (a : α) :
    bytesFor (log ++ [(addr, bytes)]) a =
      bytesFor log a + (Pi.single addr bytes : α → Nat) a := by
  unfold bytesFor
  grind

/-- The counters of an unvalidated address are exact, and with the bytes that are still to be
sent they are within the limit. -/
structure WithinLimit (state : PeerPathState) (received sent pending : Nat) : Prop where
  bytesReceived_eq : state.bytesReceived = received
  bytesSent_eq : state.bytesSent = sent
  received_lt : 3 * received < u64Max
  room : sent + pending ≤ 3 * received

/-- Every unvalidated address is within the limit. -/
structure Budgeted (e : Endpoint α γ) (pending : α → Nat) : Prop where
  server : e.paths.side = .server
  limit : ∀ a, (e.paths.peerPathStateForAddr a).validated = false →
    WithinLimit (e.paths.peerPathStateForAddr a) (bytesFor e.received a) (bytesFor e.sent a)
      (pending a)

variable {P R}

variable {e : Endpoint α γ} {pending : α → Nat}

theorem Budgeted.mono {pending' : α → Nat} (h : Budgeted e pending)
    (hle : ∀ a, pending' a ≤ pending a) : Budgeted e pending' where
  server := h.server
  limit a ha :=
    have hlimit := h.limit a ha
    { hlimit with room := Nat.le_trans (Nat.add_le_add_left (hle a) _) hlimit.room }

theorem Budgeted.congr (h : Budgeted e pending) (hpaths : e'.paths = e.paths)
    (hreceived : e'.received = e.received) (hsent : e'.sent = e.sent) : Budgeted e' pending := by
  obtain ⟨hserver, hlimit⟩ := h
  exact ⟨hpaths ▸ hserver, by rw [hpaths, hreceived, hsent]; exact hlimit⟩

theorem Budgeted.canSendToAddr_iff (h : Budgeted e pending) (addr : α) (n m : Nat) :
    e.paths.canSendToAddr addr (saturatingAdd n m) = true ↔
      ((e.paths.peerPathStateForAddr addr).validated = false →
        bytesFor e.sent addr + n + m ≤ 3 * bytesFor e.received addr) := by
  unfold PeerPaths.canSendToAddr
  rw [if_neg (by simp [h.server])]
  dsimp only
  cases hvalid : (e.paths.peerPathStateForAddr addr).validated with
  | true => simp
  | false =>
    obtain ⟨hreceived, hsent, hlt, -⟩ := h.limit addr hvalid
    simp only [Bool.false_eq_true, if_false, decide_eq_true_eq, hreceived, hsent, saturatingAdd,
      saturatingMul, forall_const]
    omega

theorem sendBuiltDatagramToAddr_budgeted {packets : List BuiltPacket}
    (h : Budgeted e (pending + Pi.single addr (datagramLen packets))) :
    Budgeted (e.sendBuiltDatagramToAddr R addr packets).2 pending := by
  have hdrop : Budgeted e pending := h.mono fun a => Nat.le_add_right _ _
  unfold sendBuiltDatagramToAddr
  split
  · exact hdrop
  · split
    · exact hdrop.congr rfl rfl rfl
    · refine ⟨?_, ?_⟩
      · exact (PeerPaths.updateUnvalidated_side _ _ _).trans h.server
      · intro a hvalid
        rw [bytesFor_append]
        simp only [PeerPaths.recordUnvalidatedBytesSent,
          PeerPaths.updateUnvalidated_state h.server] at hvalid ⊢
        by_cases ha : a = addr
        · subst ha
          cases hold : (e.paths.peerPathStateForAddr a).validated with
          | true => simp [hold] at hvalid
          | false =>
            obtain ⟨hreceived, hsent, hlt, hroom⟩ := h.limit a hold
            simp only [Pi.add_apply, Pi.single_eq_same] at hroom
            simp only [and_self, if_true, Pi.single_eq_same]
            refine ⟨hreceived, ?_, hlt, by omega⟩
            simp only [saturatingAdd, hsent]
            omega
        · simp only [ha, false_and, if_false] at hvalid ⊢
          rw [Pi.single_eq_of_ne ha]
          exact hdrop.limit a hvalid

theorem sendBuiltDatagramToAddr_peerAddr (e : Endpoint α γ) (addr : α)
    (packets : List BuiltPacket) :
    (e.sendBuiltDatagramToAddr R addr packets).2.paths.peerAddr = e.paths.peerAddr := by
  unfold sendBuiltDatagramToAddr
  split
  · rfl
  · split
    · rfl
    · exact PeerPaths.updateUnvalidated_peerAddr _ _ _

variable {frames : List Frame}

theorem buildPacketToAddr_room (hP : P.Documented) {n : Nat}
    (hbuild : e.buildPacketToAddr P R space frames payload addr trackRetransmission n = (.ok (some packet), e'))
    : e.keys.packetLen P (e.context R) space addr payload = some packet.size ∧
      e.paths.canSendToAddr addr (saturatingAdd n packet.size) = true := by
  obtain ⟨built, hbuilt, rfl⟩ := buildPacketToAddr_built hbuild
  obtain ⟨hlen, hroom⟩ := KeyState.buildPacketToAddr_size hP hbuilt
  refine ⟨hlen, ?_⟩
  have hmin : saturatingAdd n (min built.size u64Max) = saturatingAdd n built.size := by
    simp only [saturatingAdd]
    omega
  rw [← hmin]
  exact hroom

theorem Budgeted.reserve {n m : Nat} (h : Budgeted e (Pi.single addr n))
    (hroom : e.paths.canSendToAddr addr (saturatingAdd n m) = true) :
    Budgeted e (Pi.single addr (n + m)) := by
  refine ⟨h.server, ?_⟩
  intro a hvalid
  have hlimit := h.limit a hvalid
  by_cases ha : a = addr
  · subst ha
    have hle := (h.canSendToAddr_iff a n m).mp hroom hvalid
    refine { hlimit with room := ?_ }
    simp only [Pi.single_eq_same]
    omega
  · grind

/-! ## The send loop -/

/-- What is within the limit in the send loop: the packets of the coalesced datagram are
still to be sent. -/
def LoopBudgeted (s : Sending (Endpoint α γ)) : Prop :=
  Budgeted s.conn (Pi.single s.conn.paths.peerAddr (datagramLen s.coalescedPackets))

theorem sendDatagram_conn (s : Sending (Endpoint α γ)) (packets : List BuiltPacket) :
    (sendDatagram (builder P R) s packets).2.conn =
      (s.conn.sendBuiltDatagramToAddr R s.conn.paths.peerAddr packets).2 := by
  unfold sendDatagram
  split
  · next err conn hsend => exact (congrArg Prod.snd hsend).symm
  · next conn hsend => exact (congrArg Prod.snd hsend).symm

theorem sendDatagram_budgeted (s : Sending (Endpoint α γ)) (packets : List BuiltPacket) (n : Nat)
    (h : Budgeted s.conn (Pi.single s.conn.paths.peerAddr (n + datagramLen packets))) :
    Budgeted (sendDatagram (builder P R) s packets).2.conn
      (Pi.single (sendDatagram (builder P R) s packets).2.conn.paths.peerAddr n) ∧
    (sendDatagram (builder P R) s packets).2.coalescedPackets = s.coalescedPackets := by
  refine ⟨?_, ?_⟩
  · rw [sendDatagram_conn, sendBuiltDatagramToAddr_peerAddr]
    apply sendBuiltDatagramToAddr_budgeted
    have hadd : (Pi.single s.conn.paths.peerAddr (n + datagramLen packets) : α → Nat) =
        Pi.single s.conn.paths.peerAddr n +
          Pi.single s.conn.paths.peerAddr (datagramLen packets) :=
      Pi.single_add (f := fun _ => Nat) _ _ _
    rw [← hadd]
    exact h
  · unfold sendDatagram
    split <;> rfl

theorem flushCoalesced_budgeted (s : Sending (Endpoint α γ)) (n : Nat)
    (h : Budgeted s.conn
      (Pi.single s.conn.paths.peerAddr (n + datagramLen s.coalescedPackets))) :
    Budgeted (flushCoalesced (builder P R) s).2.conn
      (Pi.single (flushCoalesced (builder P R) s).2.conn.paths.peerAddr n) ∧
    (flushCoalesced (builder P R) s).2.coalescedPackets = [] := by
  unfold flushCoalesced
  split
  · next hempty =>
    rw [List.isEmpty_iff] at hempty
    rw [hempty] at h
    exact ⟨h, hempty⟩
  · exact sendDatagram_budgeted _ _ n h

theorem emitPacket_budgeted (s : Sending (Endpoint α γ)) (space : PacketNumberSpace)
    (packet : BuiltPacket)
    (h : Budgeted s.conn (Pi.single s.conn.paths.peerAddr
      (datagramLen s.coalescedPackets + packet.size))) :
    LoopBudgeted (emitPacket (builder P R) s space packet).2 := by
  have hflush := flushCoalesced_budgeted (P := P) (R := R) s packet.size (by rwa [Nat.add_comm])
  have hsize : datagramLen [packet] = packet.size := by simp [datagramLen]
  unfold emitPacket
  generalize flushCoalesced (builder P R) s = flushed at hflush ⊢
  obtain ⟨result, t⟩ := flushed
  obtain ⟨ht, hempty⟩ := hflush
  dsimp only at ht hempty
  have hidle : LoopBudgeted t := by
    unfold LoopBudgeted
    rw [hempty]
    exact ht.mono fun a => by simp [datagramLen]
  split
  · cases result with
    | error err => exact hidle
    | ok _ =>
      have hsent := sendDatagram_budgeted (P := P) (R := R) t [packet] 0
        (by rwa [hsize, Nat.zero_add])
      unfold LoopBudgeted
      rw [hsent.2, hempty]
      exact hsent.1
  · split
    · unfold LoopBudgeted
      simpa [datagramLen] using h
    · cases result with
      | error err => exact hidle
      | ok _ =>
        unfold LoopBudgeted
        simpa [datagramLen, hempty] using ht

theorem beforePacket_books (e : Endpoint α γ) (space : PacketNumberSpace) :
    (beforePacket (builder P R) e space).paths = e.paths ∧
      (beforePacket (builder P R) e space).received = e.received ∧
      (beforePacket (builder P R) e space).sent = e.sent := by
  unfold beforePacket builder
  grind

variable {s t : Sending (Endpoint α γ)}

theorem LoopBudgeted.congr (h : LoopBudgeted s) (hpaths : t.conn.paths = s.conn.paths)
    (hreceived : t.conn.received = s.conn.received) (hsent : t.conn.sent = s.conn.sent)
    (hcoalesced : t.coalescedPackets = s.coalescedPackets) :
    LoopBudgeted t := by
  unfold LoopBudgeted at h ⊢
  rw [hpaths, hcoalesced]
  exact Budgeted.congr h hpaths hreceived hsent

/-- A pass of the send loop keeps the limit. Initial and Handshake packets are checked with
what is coalesced; for ApplicationData packets this is the condition. -/
theorem sendTurn_budgeted (hP : P.Documented) (h : LoopBudgeted s)
    (hroom : space = .applicationData → RoomBehindCoalesced P R s frames) :
    LoopBudgeted (sendTurn (builder P R) space s frames).2 := by
  obtain ⟨hpaths, hreceived, hsent⟩ := beforePacket_books (P := P) (R := R) s.conn space
  have hbefore : LoopBudgeted { s with conn := beforePacket (builder P R) s.conn space } :=
    h.congr hpaths hreceived hsent rfl
  unfold sendTurn
  dsimp only
  split
  · exact hbefore
  · next filled hfill =>
    split
    · exact hbefore
    · split
      · next err conn hbuild =>
        obtain rfl : _ = conn := congrArg Prod.snd hbuild
        exact hbefore.congr rfl rfl rfl rfl
      · next conn hbuild =>
        obtain rfl : _ = conn := congrArg Prod.snd hbuild
        exact hbefore.congr rfl rfl rfl rfl
      · next packet conn hbuild =>
        obtain ⟨hlen, hgate⟩ := buildPacketToAddr_room hP hbuild
        have hbehind : (beforePacket (builder P R) s.conn space).paths.canSendToAddr
            (beforePacket (builder P R) s.conn space).paths.peerAddr
            (saturatingAdd (datagramLen s.coalescedPackets) packet.size) = true := by
          by_cases happ : space = .applicationData
          · subst happ
            rw [if_pos rfl, PeerPaths.canSendToAddr_saturated] at hgate
            exact hroom rfl filled packet.size hfill hlen hgate
          · rw [if_neg happ] at hgate
            exact hgate
        have hpacket : Budgeted (beforePacket (builder P R) s.conn space)
            (Pi.single (beforePacket (builder P R) s.conn space).paths.peerAddr
              (datagramLen s.coalescedPackets + packet.size)) :=
          Budgeted.reserve hbefore hbehind
        have hconn : Budgeted conn
            (Pi.single conn.paths.peerAddr (datagramLen s.coalescedPackets + packet.size)) := by
          obtain rfl : _ = conn := congrArg Prod.snd hbuild
          exact hpacket.congr rfl rfl rfl
        grind [emitPacket_budgeted]

/-! ## Calls between two send loops -/

theorem datagramReceived_budgeted (h : Budgeted e pending) {bytes : Nat}
    (hok : (e.paths.peerPathStateForAddr addr).validated = true ∨ 3 * ((e.paths.peerPathStateForAddr addr).bytesReceived + bytes) < u64Max)
    : Budgeted (e.call P R (.datagramReceived addr bytes)) pending := by
  refine ⟨(PeerPaths.updateUnvalidated_side _ _ _).trans h.server, ?_⟩
  intro a hvalid
  simp only [call, PeerPaths.recordUnvalidatedBytesReceived,
    PeerPaths.updateUnvalidated_state h.server, bytesFor_append] at hvalid ⊢
  by_cases ha : a = addr
  · subst ha
    cases hold : (e.paths.peerPathStateForAddr a).validated with
    | true => simp [hold] at hvalid
    | false =>
      obtain ⟨hreceived, hsent, hlt, hroom⟩ := h.limit a hold
      have hbytes : 3 * (bytesFor e.received a + bytes) < u64Max := by
        rw [hold, hreceived] at hok
        simpa using hok
      simp only [and_self, if_true, Pi.single_eq_same]
      refine ⟨?_, hsent, hbytes, by omega⟩
      simp only [saturatingAdd, hreceived]
      omega
  · simp only [ha, false_and, if_false] at hvalid ⊢
    rw [Pi.single_eq_of_ne ha]
    exact h.limit a hvalid

theorem markPeerPathValidated_budgeted (h : Budgeted e pending) (addr : α) :
    Budgeted { e with paths := e.paths.markPeerPathValidated addr } pending := by
  refine ⟨(PeerPaths.markPeerPathValidated_side _ _).trans h.server, ?_⟩
  intro a hvalid
  simp only [PeerPaths.markPeerPathValidated_state h.server] at hvalid ⊢
  split at hvalid
  · cases hvalid
  · next ha =>
    rw [if_neg ha]
    exact h.limit a hvalid

theorem Budgeted.of_state (h : Budgeted e pending) {paths : PeerPaths α}
    (hside : paths.side = e.paths.side)
    (hstate : ∀ a, paths.peerPathStateForAddr a = e.paths.peerPathStateForAddr a) :
    Budgeted { e with paths := paths } pending := by
  refine ⟨hside.trans h.server, ?_⟩
  grind [cases Budgeted]

theorem sendFramesToAddr_budgeted (hP : P.Documented) (h : Budgeted e 0) (space : PacketNumberSpace)
    (frames : List Frame) (payload : Bytes) (addr : α) (trackRetransmission : Bool) :
    Budgeted (e.sendFramesToAddr P R space frames payload addr trackRetransmission).2 0 := by
  unfold sendFramesToAddr
  split
  · next err conn hbuild =>
    obtain rfl : _ = conn := congrArg Prod.snd hbuild
    exact h.congr rfl rfl rfl
  · next conn hbuild =>
    obtain rfl : _ = conn := congrArg Prod.snd hbuild
    exact h.congr rfl rfl rfl
  · next packet conn hbuild =>
    obtain ⟨-, hgate⟩ := buildPacketToAddr_room hP hbuild
    have hreserved : Budgeted e (Pi.single addr (0 + packet.size)) :=
      Budgeted.reserve (h.mono fun a => by simp) hgate
    have hconn : Budgeted conn (0 + Pi.single addr (datagramLen [packet])) := by
      obtain rfl : _ = conn := congrArg Prod.snd hbuild
      have hpending : Budgeted e (0 + Pi.single addr (datagramLen [packet])) :=
        hreserved.mono fun a => by simp [datagramLen]
      exact hpending.congr rfl rfl rfl
    have hsent := sendBuiltDatagramToAddr_budgeted (R := R) hconn
    split
    · next err t ht =>
      rw [ht] at hsent
      exact hsent
    · next t ht =>
      rw [ht] at hsent
      exact hsent

theorem call_budgeted (hP : P.Documented) {c : Call α} (h : Budgeted s.conn 0)
    (hok : KeepsLimit P R s (.call c)) :
    Budgeted (s.conn.call P R c) 0 := by
  cases c with
  | datagramReceived addr bytes => exact datagramReceived_budgeted h hok
  | packetProcessed space addr =>
    grind [call, markPeerPathValidated_budgeted]
  | pathValidationStarted addr => exact h.of_state rfl (PeerPaths.ensureEntry_state h.server addr)
  | pathResponse addr =>
    have hmarked := markPeerPathValidated_budgeted h addr
    exact hmarked.of_state (PeerPaths.setActivePeerAddr_side _ _)
      (PeerPaths.setActivePeerAddr_state hmarked.server addr)
  | sendFrames space frames payload addr trackRetransmission =>
    exact sendFramesToAddr_budgeted hP h space frames payload addr trackRetransmission

/-! ## Runs -/

theorem LoopBudgeted.idle (hempty : s.coalescedPackets = []) :
    LoopBudgeted s ↔ Budgeted s.conn 0 := by
  grind [LoopBudgeted, datagramLen, Pi.single_zero]

theorem step_budgeted (hP : P.Documented) {e : PathEvent α γ} {r : Unit} (h : LoopBudgeted s)
    (hok : KeepsLimit P R s e) (hstep : step P R s e = some (r, t)) :
    LoopBudgeted t := by
  cases e with
  | call c =>
    grind [step, LoopBudgeted.idle, call_budgeted]
  | pass space frames =>
    cases hstep
    apply sendTurn_budgeted hP h
    intro happ
    subst happ
    exact hok
  | flush =>
    cases hstep
    obtain ⟨hflush, hempty⟩ := flushCoalesced_budgeted (P := P) (R := R) s 0
      (by rw [Nat.zero_add]; exact h)
    exact (LoopBudgeted.idle hempty).mpr (hflush.mono fun a => by simp)
  | abandoned =>
    cases hstep
    exact (LoopBudgeted.idle rfl).mpr (Budgeted.mono h fun a => Nat.zero_le _)
  | other keys rest pendingFrames =>
    cases hstep
    exact h.congr rfl rfl rfl rfl

/-! ## Every call of the send loop is a run of passes -/

variable (P R) in
/-- Some run leads from one state to the other. -/
def Reaches (s t : Sending (Endpoint α γ)) : Prop :=
  ∃ tr, Run (step P R) (fun _ _ => True) s tr t

theorem Reaches.refl (s : Sending (Endpoint α γ)) : Reaches P R s s := ⟨[], .nil⟩

theorem Reaches.trans {u : Sending (Endpoint α γ)} (h : Reaches P R s t) (hnext : Reaches P R t u) :
    Reaches P R s u := by
  obtain ⟨tr, hrun⟩ := h
  obtain ⟨tr', hrun'⟩ := hnext
  exact ⟨tr ++ tr', hrun.trans hrun'⟩

theorem Reaches.of_step (e : PathEvent α γ) (h : step P R s e = some ((), t)) : Reaches P R s t :=
  ⟨[] ++ [(e, ())], .snoc .nil trivial h⟩

theorem Reaches.of_pendingFrames (s : Sending (Endpoint α γ))
    (pending : List (PacketNumberSpace × Frame)) :
    Reaches P R s { s with pendingFrames := pending } :=
  .of_step (.other s.conn.keys s.conn.rest pending) rfl

theorem sendLoop_reaches {fuel : Nat} {r : Except QuicError (List Frame)}
    (h : sendLoop (builder P R) space fuel s frames = some (r, t)) : Reaches P R s t := by
  induction fuel generalizing s frames with
  | zero =>
    cases frames with
    | nil =>
      cases h
      exact .refl _
    | cons frame rest => cases h
  | succ fuel ih =>
    cases frames with
    | nil =>
      cases h
      exact .refl _
    | cons frame rest =>
      have hpass : Reaches P R s (sendTurn (builder P R) space s (frame :: rest)).2 :=
        .of_step (.pass space (frame :: rest)) rfl
      simp only [sendLoop] at h
      split at h
      · next err u hturn =>
        grind
      · next left u hturn =>
        grind
      · next left u hturn =>
        rw [hturn] at hpass
        exact hpass.trans (ih h)

theorem sendSpace_reaches (s : Sending (Endpoint α γ)) (space : PacketNumberSpace) :
    Reaches P R s (sendSpace (builder P R) s space).2 := by
  unfold sendSpace
  split
  · dsimp only
    have haside := Reaches.of_pendingFrames (P := P) (R := R) s
      (setAside (builder P R) s.conn space s.pendingFrames)
    have hloop := haside.trans (sendLoop_reaches (Option.some_get
      (sendLoop_isSome (builder P R) space
        { s with pendingFrames := setAside (builder P R) s.conn space s.pendingFrames }
        ((s.pendingFrames.filter (takesPart (builder P R) s.conn space)).map Prod.snd)
        (Nat.le_refl _))).symm)
    split
    · next err t hsend =>
      have ht : _ = t := congrArg Prod.snd hsend
      rw [← ht]
      exact hloop
    · next left t hsend =>
      have ht : _ = t := congrArg Prod.snd hsend
      rw [← ht]
      exact hloop.trans (.of_pendingFrames _ _)
  · exact .refl s

theorem sendSpaces_reaches (s : Sending (Endpoint α γ)) (spaces : List PacketNumberSpace) :
    Reaches P R s (sendSpaces (builder P R) s spaces).2 := by
  induction spaces generalizing s with
  | nil => exact .refl s
  | cons space rest ih =>
    have hspace := sendSpace_reaches (P := P) (R := R) s space
    simp only [sendSpaces]
    split
    · next err t hsend =>
      rw [hsend] at hspace
      exact hspace
    · next t hsend =>
      rw [hsend] at hspace
      exact hspace.trans (ih t)

/-- A call of `send_pending_frames` is a run of passes and flushes. -/
theorem sendPendingFrames_reaches (e : Endpoint α γ)
    (pending : List (PacketNumberSpace × Frame)) :
    Reaches P R ⟨e, pending, [], []⟩ (sendPendingFrames (builder P R) e pending).2 := by
  have hspaces := sendSpaces_reaches (P := P) (R := R) ⟨e, pending, [], []⟩ PacketNumberSpace.all
  unfold sendPendingFrames
  split
  · next err t hsend =>
    rw [hsend] at hspaces
    exact hspaces
  · next t hsend =>
    rw [hsend] at hspaces
    exact hspaces.trans (.of_step .flush rfl)

/-! ## The limit is exceeded when the condition fails -/

/-- Sending a datagram appends it to what was sent, or changes nothing that is counted. -/
structure Sends (e e' : Endpoint α γ) (packets : List BuiltPacket) : Prop where
  received : e'.received = e.received
  validated : ∀ a, (e'.paths.peerPathStateForAddr a).validated =
    (e.paths.peerPathStateForAddr a).validated
  peerAddr : e'.paths.peerAddr = e.paths.peerAddr
  server : e'.paths.side = .server
  sent : e'.sent = e.sent ∨ e'.sent = e.sent ++ [(e.paths.peerAddr, datagramLen packets)]

theorem sendDatagram_sends (hserver : s.conn.paths.side = .server) (packets : List BuiltPacket) :
    Sends s.conn (sendDatagram (builder P R) s packets).2.conn packets := by
  rw [sendDatagram_conn]
  unfold sendBuiltDatagramToAddr
  split
  · exact ⟨rfl, fun _ => rfl, rfl, hserver, Or.inl rfl⟩
  · split
    · exact ⟨rfl, fun _ => rfl, rfl, hserver, Or.inl rfl⟩
    · refine ⟨rfl, ?_, PeerPaths.updateUnvalidated_peerAddr _ _ _,
        (PeerPaths.updateUnvalidated_side _ _ _).trans hserver, Or.inr rfl⟩
      grind [PeerPaths.recordUnvalidatedBytesSent, PeerPaths.updateUnvalidated_state]

theorem flushCoalesced_sends (hserver : s.conn.paths.side = .server) :
    Sends s.conn (flushCoalesced (builder P R) s).2.conn s.coalescedPackets := by
  unfold flushCoalesced
  split
  · exact ⟨rfl, fun _ => rfl, rfl, hserver, Or.inl rfl⟩
  · exact sendDatagram_sends (s := { s with coalescedPackets := [] }) hserver s.coalescedPackets

theorem emitPacket_sends (hserver : s.conn.paths.side = .server) (packet : BuiltPacket) :
    let t := (emitPacket (builder P R) s .applicationData packet).2
    t.conn.received = s.conn.received ∧
    (∀ a, (t.conn.paths.peerPathStateForAddr a).validated =
      (s.conn.paths.peerPathStateForAddr a).validated) ∧
    (t.conn.sent.length = s.conn.sent.length + 2 →
      t.conn.sent = s.conn.sent ++ [(s.conn.paths.peerAddr, datagramLen s.coalescedPackets),
        (s.conn.paths.peerAddr, packet.size)]) := by
  have hflush := flushCoalesced_sends (P := P) (R := R) hserver
  have hone : (flushCoalesced (builder P R) s).2.conn.sent.length ≤ s.conn.sent.length + 1 := by
    rcases hflush.sent with hsent | hsent <;> simp [hsent]
  unfold emitPacket
  generalize flushCoalesced (builder P R) s = flushed at hflush hone ⊢
  obtain ⟨result, t⟩ := flushed
  cases result with
  | error err =>
    grind [cases Sends]
  | ok _ =>
    grind [cases Sends, sendDatagram_sends, datagramLen]

theorem sendTurn_emits (s : Sending (Endpoint α γ)) (frames : List Frame) :
    let e := beforePacket (builder P R) s.conn .applicationData
    let t := (sendTurn (builder P R) .applicationData s frames).2
    t.conn.sent = s.conn.sent ∨
      ∃ filled packet conn,
        fillPacket (maxPayload (builder P R) e .applicationData) [] [] frames = .ok filled ∧
        e.buildPacketToAddr P R .applicationData filled.packetFrames filled.payload
          e.paths.peerAddr true 0 = (.ok (some packet), conn) ∧
        t = (emitPacket (builder P R) { s with conn := conn } .applicationData packet).2 := by
  have hbefore := (beforePacket_books (P := P) (R := R) s.conn .applicationData).2.2
  unfold sendTurn
  dsimp only
  split
  · exact Or.inl hbefore
  · next filled hfill =>
    split
    · exact Or.inl hbefore
    · split
      · next err conn hbuild =>
        obtain rfl : _ = conn := congrArg Prod.snd hbuild
        exact Or.inl hbefore
      · next conn hbuild =>
        obtain rfl : _ = conn := congrArg Prod.snd hbuild
        exact Or.inl hbefore
      · next packet conn hbuild =>
        refine Or.inr ⟨filled, packet, conn, hfill, hbuild, ?_⟩
        grind

/-- A pass over ApplicationData frames that does not meet the condition and sends both
datagrams exceeds the limit. -/
theorem sendTurn_exceeds (hP : P.Documented) (h : LoopBudgeted s)
    (hroom : ¬ RoomBehindCoalesced P R s frames)
    (hlen : (sendTurn (builder P R) .applicationData s frames).2.conn.sent.length = s.conn.sent.length + 2)
    :
    let t := (sendTurn (builder P R) .applicationData s frames).2
    (t.conn.paths.peerPathStateForAddr s.conn.paths.peerAddr).validated = false ∧
      3 * bytesFor t.conn.received s.conn.paths.peerAddr <
        bytesFor t.conn.sent s.conn.paths.peerAddr := by
  obtain ⟨hpaths, hreceived, hsent⟩ :=
    beforePacket_books (P := P) (R := R) s.conn .applicationData
  have hbefore : Budgeted (beforePacket (builder P R) s.conn .applicationData)
      (Pi.single s.conn.paths.peerAddr (datagramLen s.coalescedPackets)) :=
    Budgeted.congr h hpaths hreceived hsent
  rcases sendTurn_emits (P := P) (R := R) s frames with
    hsame | ⟨filled, packet, conn, hfill, hbuild, hturn⟩
  · rw [hsame] at hlen
    omega
  · obtain ⟨hpacketLen, -⟩ := buildPacketToAddr_room hP hbuild
    have hfull : ¬ (beforePacket (builder P R) s.conn .applicationData).paths.canSendToAddr
        s.conn.paths.peerAddr (saturatingAdd (datagramLen s.coalescedPackets) packet.size) = true := by
      intro hfits
      apply hroom
      intro filled' len hfill' hlen' _
      grind
    rw [hbefore.canSendToAddr_iff, Classical.not_imp, hpaths, hreceived, hsent] at hfull
    have hconn : conn.paths = s.conn.paths ∧ conn.received = s.conn.received ∧
        conn.sent = s.conn.sent := by
      obtain rfl : _ = conn := congrArg Prod.snd hbuild
      exact ⟨hpaths, hreceived, hsent⟩
    obtain ⟨hconnPaths, hconnReceived, hconnSent⟩ := hconn
    have hemit := emitPacket_sends (P := P) (R := R) (s := { s with conn := conn })
      (hconnPaths ▸ h.server) packet
    rw [← hturn, hconnPaths, hconnReceived, hconnSent] at hemit
    obtain ⟨hsameReceived, hsameValidated, hboth⟩ := hemit
    dsimp only
    rw [hsameValidated, hsameReceived, hboth hlen]
    refine ⟨hfull.1, ?_⟩
    have hsplit : s.conn.sent ++ [(s.conn.paths.peerAddr, datagramLen s.coalescedPackets),
        (s.conn.paths.peerAddr, packet.size)] =
        (s.conn.sent ++ [(s.conn.paths.peerAddr, datagramLen s.coalescedPackets)]) ++
          [(s.conn.paths.peerAddr, packet.size)] := by
      simp
    rw [hsplit, bytesFor_append, bytesFor_append, Pi.single_eq_same, Pi.single_eq_same]
    omega

theorem newServer_budgeted (keys : KeyState) (rest : γ) (addr : α) (validated : Bool) :
    Budgeted ⟨keys, PeerPaths.newServer addr validated, rest, [], []⟩ 0 := by
  refine ⟨rfl, ?_⟩
  intro a hvalid
  have hstate : (PeerPaths.newServer addr validated).peerPathStateForAddr a =
      if a = addr then { validated := validated } else {} := by
    rw [PeerPaths.peerPathStateForAddr_eq rfl]
    by_cases ha : a = addr
    · simp [PeerPaths.newServer, PeerPaths.active, ha]
    · simp [PeerPaths.newServer, PeerPaths.entry, ha]
      rfl
  rw [hstate]
  have hzero : 3 * bytesFor ([] : List (α × Nat)) a < u64Max := by
    rw [bytesFor_nil]
    decide
  refine ⟨?_, ?_, hzero, Nat.le_refl _⟩
  · split <;> rfl
  · split <;> rfl

/-- In a run in which every ApplicationData packet that follows coalesced packets has room in
the limit together with them, an address that is not validated has been sent at most three
times what was received from it. A next pass that does not meet the condition exceeds the
limit once the socket takes both datagrams. -/
theorem amplification_limit_iff (P : PacketProtection) (R : Surroundings α γ) (hP : P.Documented)
    (keys : KeyState) (rest : γ) (addr : α) (validated : Bool)
    {s : Sending (Endpoint α γ)} {tr : List (PathEvent α γ × Unit)}
    (hrun : Run (step P R) (KeepsLimit P R)
      ⟨⟨keys, PeerPaths.newServer addr validated, rest, [], []⟩, [], [], []⟩ tr s) :
    (∀ a, (s.conn.paths.peerPathStateForAddr a).validated = false →
      bytesFor s.conn.sent a ≤ 3 * bytesFor s.conn.received a) ∧
    ∀ frames, ¬ KeepsLimit P R s (.pass .applicationData frames) →
      let t := (sendTurn (builder P R) .applicationData s frames).2
      t.conn.sent.length = s.conn.sent.length + 2 →
        (t.conn.paths.peerPathStateForAddr s.conn.paths.peerAddr).validated = false ∧
          3 * bytesFor t.conn.received s.conn.paths.peerAddr <
            bytesFor t.conn.sent s.conn.paths.peerAddr := by
  have hbudget : LoopBudgeted s := by
    apply hrun.invariant (I := fun _ s => LoopBudgeted s)
    · exact (LoopBudgeted.idle rfl).mpr (newServer_budgeted keys rest addr validated)
    · intro tr t e r u hinv hok hstep
      exact step_budgeted hP hinv hok hstep
  refine ⟨?_, ?_⟩
  · intro a hvalid
    exact Nat.le_trans (Nat.le_add_right _ _) (hbudget.limit a hvalid).room
  · intro frames hbad t hlen
    exact sendTurn_exceeds hP hbudget hbad hlen

/-! ## A handshake packet and an ApplicationData packet in one call -/

/-- Open gates, a path MTU of 1200 bytes and a socket that takes everything. -/
def openSurroundings : Surroundings Unit Unit where
  context _ := KeyState.openContext
  maxSendUdpPayloadSize _ := 1200
  keyUpdateDue _ _ := false
  sendTo _ _ _ := (.ok (), ())

def serverKeys : KeyState :=
  ((KeyState.newServer [1, 2] KeyState.serverCid KeyState.clientCid).installKeys
    (.handshake 0)).installKeys (.oneRtt 0)

def newSender : Sending (Endpoint Unit Unit) :=
  ⟨⟨serverKeys, PeerPaths.newServer () false, (), [], []⟩, [], [], []⟩

def handshakeAndPing : List (PacketNumberSpace × Frame) :=
  [(.handshake, .crypto ⟨0, List.replicate 20 0⟩), (.applicationData, .ping)]

def coalescedHandshake : Sending (Endpoint Unit Unit) :=
  (sendTurn (builder KeyState.plainProtection openSurroundings) .handshake
    { newSender with
      conn := newSender.conn.call KeyState.plainProtection openSurroundings
        (.datagramReceived () 40) }
    [.crypto ⟨0, List.replicate 20 0⟩]).2

/-- A datagram of 40 bytes has arrived; the Handshake packet is coalesced and the
ApplicationData packet behind it has room. -/
theorem amplification_limit_kept : ∃ (tr : List (PathEvent Unit Unit × Unit))
    (s : Sending (Endpoint Unit Unit)),
    Run (step KeyState.plainProtection openSurroundings)
      (KeepsLimit KeyState.plainProtection openSurroundings) newSender tr s ∧
    bytesFor s.conn.sent () = 93 ∧ bytesFor s.conn.received () = 40 ∧
    ((s.conn.paths.peerPathStateForAddr ()).validated = false →
      bytesFor s.conn.sent () ≤ 3 * bytesFor s.conn.received ()) := by
  have hinit : Run (step KeyState.plainProtection openSurroundings)
    (KeepsLimit KeyState.plainProtection openSurroundings) newSender [] _ := .nil
  have hroom : RoomBehindCoalesced KeyState.plainProtection openSurroundings
      coalescedHandshake [.ping] := by
    intro filled len hfill hlen _
    have hpayload : (fillPacket (maxPayload (builder KeyState.plainProtection openSurroundings)
        coalescedHandshake.conn .applicationData) [] [] [.ping]).toOption.map Filled.payload =
        some [1] := by
      decide +kernel
    have hpacketLen : coalescedHandshake.conn.keys.packetLen KeyState.plainProtection
        (coalescedHandshake.conn.context openSurroundings) .applicationData () [1] = some 29 := by
      decide +kernel
    have hfilled : filled.payload = [1] := by
      change fillPacket (maxPayload (builder KeyState.plainProtection openSurroundings)
        coalescedHandshake.conn .applicationData) [] [] [.ping] = .ok filled at hfill
      rw [hfill] at hpayload
      exact Option.some.inj hpayload
    rw [hfilled] at hlen
    obtain rfl : 29 = len := Option.some.inj (hpacketLen.symm.trans hlen)
    decide +kernel
  have hrun := ((hinit.push (.call (.datagramReceived () 40)) rfl
    (Or.inr (by decide +kernel))).push
      (.pass .handshake [.crypto ⟨0, List.replicate 20 0⟩]) rfl trivial).push
      (.pass .applicationData [.ping]) rfl hroom
  refine ⟨_, _, hrun, by decide +kernel, by decide +kernel, ?_⟩
  exact (amplification_limit_iff KeyState.plainProtection openSurroundings
    KeyState.plainProtection_documented serverKeys () () false hrun).1 ()

/-- A datagram of 30 bytes has arrived, so that 90 bytes may be sent. The Handshake packet
takes 64 of them; the ApplicationData packet of 29 bytes is checked without it, and one call
sends both. -/
theorem coalesced_packet_exceeds_limit :
    let e := newSender.conn.call KeyState.plainProtection openSurroundings
      (.datagramReceived () 30)
    let s := (sendPendingFrames (builder KeyState.plainProtection openSurroundings) e
      handshakeAndPing).2
    Reaches KeyState.plainProtection openSurroundings newSender s ∧
      (s.conn.paths.peerPathStateForAddr ()).validated = false ∧
      s.conn.sent = [((), 64), ((), 29)] ∧ bytesFor s.conn.received () = 30 ∧
      ¬ bytesFor s.conn.sent () ≤ 3 * bytesFor s.conn.received () := by
  have hreach := (Reaches.of_step (P := KeyState.plainProtection) (R := openSurroundings)
    (s := newSender) (.call (.datagramReceived () 30)) rfl).trans
      ((Reaches.of_pendingFrames _ handshakeAndPing).trans (sendPendingFrames_reaches _ _))
  exact ⟨hreach, by decide +kernel, by decide +kernel, by decide +kernel, by decide +kernel⟩

end Endpoint

end Starfish.Quic
