import Starfish.Quic.Connection.Keys
import Starfish.Quic.Connection.SendLoop

/-!
# Building a packet

`build_packet_to_addr` encodes a packet, asks the congestion and the amplification
gate, seals the payload and masks the header. Every use of a packet key is logged
with the packet number, also if building fails afterwards.
-/

namespace Starfish.Quic

universe u

/-- What building a packet reads from the rest of the connection. -/
structure SendContext (α : Type u) where
  /-- The congestion window has room for so many bytes. -/
  canSend : Nat → Bool
  largestAcked : PacketNumberSpace → Option Nat
  peerCidForAddr : α → ConnectionId
  primaryLocalCid : ConnectionId
  /-- The amplification limit of the address has room for so many bytes. -/
  canSendToAddr : α → Nat → Bool

structure SealedPacket extends BuiltPacket where
  bytes : Bytes
deriving DecidableEq, Repr

/-- The outcome of building a packet: the result, the keys and numbers that were used to
seal, and the state afterwards. -/
structure Build where
  result : Except QuicError (Option SealedPacket)
  sealed : List (KeyId × Nat)
  state : KeyState

def initialMinDatagramSize : Nat := 1200

/-- Append PADDING frames. -/
def padTo (payload : Bytes) (len : Nat) : Bytes :=
  payload ++ List.replicate (len - payload.length) 0

namespace KeyState

variable {α : Type u} (P : PacketProtection) (ctx : SendContext α)

def sealKeys (s : KeyState) (space : PacketNumberSpace) (appKind : Option ApplicationPacketKind) :
    Option (KeyId × KeyId) :=
  match appKind with
  | some .zeroRtt => s.keys.zeroRttLocal.map fun k => (k, k)
  | _ => (s.keys.get space).map fun k => (k.localKey, k.localHeader)

def encodePacket (s : KeyState) (space : PacketNumberSpace)
    (appKind : Option ApplicationPacketKind) (addr : α) (tagLen : Nat) (payload : Bytes) :
    Except QuicError EncodedPacket :=
  let pn := s.nextPn space
  let largestAcked := (ctx.largestAcked space).getD 0
  let dcid := ctx.peerCidForAddr addr
  let localCid := ctx.primaryLocalCid
  match space with
  | .initial => do
      let trial ← encodeInitialPacket dcid localCid s.retryToken pn largestAcked payload tagLen
      let wireSize := trial.bytes.length + tagLen
      let payload :=
        if wireSize < initialMinDatagramSize then
          padTo payload (payload.length + (initialMinDatagramSize - wireSize))
        else payload
      encodeInitialPacket dcid localCid s.retryToken pn largestAcked payload tagLen
  | .handshake => encodeHandshakePacket dcid localCid pn largestAcked payload tagLen
  | .applicationData =>
    match appKind with
    | some .zeroRtt => encodeZeroRttPacket dcid localCid pn largestAcked payload tagLen
    | _ => .ok (encodeOneRttPacket dcid false s.localKeyPhase pn largestAcked payload)

def encodeForSample (s : KeyState) (space : PacketNumberSpace)
    (appKind : Option ApplicationPacketKind) (addr : α) (tagLen sampleLen : Nat)
    (payload : Bytes) : Except QuicError EncodedPacket := do
  let packet ← s.encodePacket ctx space appKind addr tagLen payload
  let minPlaintextLen := saturatingAdd sampleLen 4 - packet.pnLen - tagLen
  if payload.length < minPlaintextLen then
    s.encodePacket ctx space appKind addr tagLen (padTo payload minPlaintextLen)
  else return packet

def advance (s : KeyState) (space : PacketNumberSpace) (appKind : Option ApplicationPacketKind) :
    KeyState :=
  { s.setNextPn space (s.nextPn space + 1) with
    attemptedZeroRtt := s.attemptedZeroRtt || decide (appKind = some .zeroRtt) }

def sealPacket (s : KeyState) (packet : EncodedPacket) (space : PacketNumberSpace)
    (frames : List Frame) (trackRetransmission : Bool) (appKind : Option ApplicationPacketKind)
    (keys : KeyId × KeyId) : Build :=
  let pn := s.nextPn space
  let headerEnd := packet.pnOffset + packet.pnLen
  let header := packet.bytes.take headerEnd
  match P.encryptPacket pn header (packet.bytes.drop headerEnd) keys.1 with
  | .error e => ⟨.error e, [], s⟩
  | .ok sealed =>
    match P.applyHeaderProtection (header ++ sealed) packet.pnOffset packet.pnLen keys.2 with
    | .error e => ⟨.error e, [(keys.1, pn)], s⟩
    | .ok bytes =>
      let built : SealedPacket :=
        { space := space
          pn := pn
          frames := frames
          size := bytes.length
          ackEliciting := frames.any Frame.isAckEliciting
          trackRetransmission := trackRetransmission
          congestionControlled := !isCloseOnly frames
          appKind := appKind
          bytes := bytes }
      ⟨.ok (some built), [(keys.1, pn)], s.advance space appKind⟩

def buildProtected (s : KeyState) (space : PacketNumberSpace) (frames : List Frame)
    (payload : Bytes) (addr : α) (trackRetransmission : Bool) (pendingDatagramBytes : Nat)
    (appKind : Option ApplicationPacketKind) : Build :=
  let keys := s.sealKeys space appKind
  let tagLen := (keys.map fun k => P.tagLen k.1).getD 16
  let sampleLen := (keys.map fun k => P.sampleLen k.2).getD 16
  let estimatedSize := payload.length + packetOverhead + tagLen
  if !isCloseOnly frames && frames.any Frame.isAckEliciting &&
      !ctx.canSend (estimatedSize + pendingDatagramBytes) then ⟨.ok none, [], s⟩
  else
    match s.encodeForSample ctx space appKind addr tagLen sampleLen payload with
    | .error e => ⟨.error e, [], s⟩
    | .ok packet =>
      let packetLen := saturatingAdd packet.bytes.length tagLen
      if !ctx.canSendToAddr addr (saturatingAdd pendingDatagramBytes packetLen) then
        ⟨.ok none, [], s⟩
      else
        match keys with
        | none => ⟨.ok none, [], s⟩
        | some keys => s.sealPacket P packet space frames trackRetransmission appKind keys

def buildPacketToAddr (s : KeyState) (space : PacketNumberSpace) (frames : List Frame)
    (payload : Bytes) (addr : α) (trackRetransmission : Bool) (pendingDatagramBytes : Nat) :
    Build :=
  if space = .applicationData then
    match s.applicationSendKind with
    | none => ⟨.ok none, [], s⟩
    | some kind =>
      s.buildProtected P ctx space frames payload addr trackRetransmission pendingDatagramBytes
        (some kind)
  else
    s.buildProtected P ctx space frames payload addr trackRetransmission pendingDatagramBytes none

def packetKind (s : KeyState) (space : PacketNumberSpace) : Option ApplicationPacketKind :=
  if space = .applicationData then s.applicationSendKind else none

def packetLen (s : KeyState) (space : PacketNumberSpace) (addr : α) (payload : Bytes) :
    Option Nat :=
  let appKind := s.packetKind space
  match s.sealKeys space appKind with
  | none => none
  | some keys =>
    match s.encodeForSample ctx space appKind addr (P.tagLen keys.1) (P.sampleLen keys.2)
      payload with
    | .error _ => none
    | .ok packet => some (packet.bytes.length + P.tagLen keys.1)

/-! ## What building guarantees -/

variable {P} {ctx}

theorem padTo_length (payload : Bytes) (len : Nat) :
    (padTo payload len).length = max payload.length len := by
  grind [padTo]

variable {s : KeyState} {space : PacketNumberSpace} {addr : α} {payload : Bytes}
  {appKind : Option ApplicationPacketKind} {packet : EncodedPacket}

theorem encodePacket_shaped {tagLen : Nat}
    (h : s.encodePacket ctx space appKind addr tagLen payload = .ok packet) :
    packet.Shaped (s.nextPn space) ((ctx.largestAcked space).getD 0) payload.length := by
  unfold encodePacket at h
  dsimp only at h
  cases space with
  | initial =>
    cases htrial : encodeInitialPacket (ctx.peerCidForAddr addr) ctx.primaryLocalCid s.retryToken
        (s.nextPn .initial) ((ctx.largestAcked .initial).getD 0) payload tagLen with
    | error e =>
      rw [htrial] at h
      cases h
    | ok trial =>
      rw [htrial] at h
      have hshaped := encodeInitialPacket_shaped h
      apply hshaped.mono
      split
      all_goals simp [padTo_length]
  | handshake => exact encodeLongPacket_shaped h
  | applicationData =>
    dsimp only at h
    split at h
    · exact encodeLongPacket_shaped h
    · cases h
      exact encodeOneRttPacket_shaped ..

theorem encodeForSample_length {tagLen sampleLen : Nat} (hsample : sampleLen + 4 ≤ u64Max)
    (h : s.encodeForSample ctx space appKind addr tagLen sampleLen payload = .ok packet) :
    0 < packet.pnOffset ∧ packet.pnLen ≤ 4 ∧
      packet.pnOffset + 4 + sampleLen ≤ packet.bytes.length + tagLen := by
  have hmin : saturatingAdd sampleLen 4 = sampleLen + 4 := Nat.min_eq_left hsample
  have hrange := packetNumberLen_range (s.nextPn space) ((ctx.largestAcked space).getD 0)
  unfold encodeForSample at h
  rw [hmin] at h
  obtain ⟨first, hfirst, h⟩ := except_bind_eq_ok.mp h
  have hshaped := encodePacket_shaped hfirst
  change (if payload.length < sampleLen + 4 - first.pnLen - tagLen then _ else _) = _ at h
  split at h
  · have hagain := encodePacket_shaped h
    grind [cases EncodedPacket.Shaped, padTo_length]
  · cases h
    grind [cases EncodedPacket.Shaped]

theorem sealPacket_cases (hP : P.Documented) (s : KeyState) (space : PacketNumberSpace)
    (frames : List Frame) (trackRetransmission : Bool) (appKind : Option ApplicationPacketKind)
    (keys : KeyId × KeyId) (hoffset : 0 < packet.pnOffset) (hpnLen : packet.pnLen ≤ 4)
    (hlength : packet.pnOffset + 4 + P.sampleLen keys.2 ≤ packet.bytes.length + P.tagLen keys.1) :
    let b := s.sealPacket P packet space frames trackRetransmission appKind keys
    (b.sealed = [] ∧ b.state = s) ∨
      (b.sealed = [(keys.1, s.nextPn space)] ∧ b.state = s.advance space appKind) := by
  unfold sealPacket
  dsimp only
  split
  · exact Or.inl ⟨rfl, rfl⟩
  · next sealed hsealed =>
    have hsealedLen := PacketProtection.encryptPacket_length hP hsealed
    rw [List.length_drop] at hsealedLen
    have hbuf : packet.pnOffset + 4 + P.sampleLen keys.2 ≤
        (packet.bytes.take (packet.pnOffset + packet.pnLen) ++ sealed).length := by
      rw [List.length_append, List.length_take, hsealedLen]
      omega
    obtain ⟨sent, hsent⟩ := PacketProtection.applyHeaderProtection_ok hP hoffset hpnLen hbuf
    rw [hsent]
    exact Or.inr ⟨rfl, rfl⟩

variable {frames : List Frame} {trackRetransmission : Bool} {built : SealedPacket}

theorem sealPacket_built {keys : KeyId × KeyId}
    (h : (s.sealPacket P packet space frames trackRetransmission appKind keys).result = .ok (some built))
    :
    built.space = space ∧ built.frames = frames := by
  unfold sealPacket at h
  dsimp only at h
  split at h
  · cases h
  · split at h
    · cases h
    · cases h
      exact ⟨rfl, rfl⟩

theorem sealPacket_size (hP : P.Documented) {keys : KeyId × KeyId} (hpnLen : packet.pnLen ≤ 4)
    (hlength : packet.pnOffset + 4 + P.sampleLen keys.2 ≤ packet.bytes.length + P.tagLen keys.1)
    (h : (s.sealPacket P packet space frames trackRetransmission appKind keys).result = .ok (some built))
    :
    built.size = packet.bytes.length + P.tagLen keys.1 := by
  unfold sealPacket at h
  dsimp only at h
  split at h
  · cases h
  · next sealed hsealed =>
    have hsealedLen := PacketProtection.encryptPacket_length hP hsealed
    rw [List.length_drop] at hsealedLen
    have hbuf : (packet.bytes.take (packet.pnOffset + packet.pnLen) ++ sealed).length =
        packet.bytes.length + P.tagLen keys.1 := by
      rw [List.length_append, List.length_take, hsealedLen]
      omega
    split at h
    · cases h
    · next bytes hbytes =>
      cases h
      have hsent := PacketProtection.applyHeaderProtection_length hP (by omega) hbytes
      rw [hbuf] at hsent
      exact hsent

variable {pendingDatagramBytes : Nat}

theorem buildProtected_built {ctx : SendContext α}
    (h : (s.buildProtected P ctx space frames payload addr trackRetransmission pendingDatagramBytes appKind).result = .ok (some built))
    :
    ∃ keys packet, s.sealKeys space appKind = some keys ∧
      s.encodeForSample ctx space appKind addr (P.tagLen keys.1) (P.sampleLen keys.2) payload =
        .ok packet ∧
      ctx.canSendToAddr addr (saturatingAdd pendingDatagramBytes
        (saturatingAdd packet.bytes.length (P.tagLen keys.1))) = true ∧
      (s.sealPacket P packet space frames trackRetransmission appKind keys).result =
        .ok (some built) := by
  unfold buildProtected at h
  dsimp only at h
  split at h
  · cases h
  · split at h
    · cases h
    · next packet hencode =>
      split at h
      · cases h
      · next hroom =>
        split at h
        · cases h
        · next keys hkeys =>
          rw [hkeys] at hencode hroom
          exact ⟨keys, packet, hkeys, hencode, by simpa using hroom, h⟩

theorem buildPacketToAddr_eq_buildProtected {ctx : SendContext α}
    (h : (s.buildPacketToAddr P ctx space frames payload addr trackRetransmission pendingDatagramBytes).result = .ok (some built))
    :
    (s.buildProtected P ctx space frames payload addr trackRetransmission pendingDatagramBytes
      (s.packetKind space)).result = .ok (some built) := by
  unfold buildPacketToAddr at h
  unfold packetKind
  grind

theorem buildPacketToAddr_frames {ctx : SendContext α}
    (h : (s.buildPacketToAddr P ctx space frames payload addr trackRetransmission pendingDatagramBytes).result = .ok (some built))
    :
    built.space = space ∧ built.frames = frames := by
  obtain ⟨keys, packet, -, -, -, hseal⟩ :=
    buildProtected_built (buildPacketToAddr_eq_buildProtected h)
  exact sealPacket_built hseal

/-- The size of a packet that was built is the length of its encoding with the tag, and the
amplification limit had room for it behind the pending bytes. -/
theorem buildPacketToAddr_size (hP : P.Documented) {ctx : SendContext α}
    (h : (s.buildPacketToAddr P ctx space frames payload addr trackRetransmission pendingDatagramBytes).result = .ok (some built))
    :
    s.packetLen P ctx space addr payload = some built.size ∧
      ctx.canSendToAddr addr
        (saturatingAdd pendingDatagramBytes (min built.size u64Max)) = true := by
  obtain ⟨keys, packet, hkeys, hencode, hroom, hseal⟩ :=
    buildProtected_built (buildPacketToAddr_eq_buildProtected h)
  obtain ⟨-, hpnLen, hlength⟩ := encodeForSample_length (hP.sampleLen_le keys.2) hencode
  have hsize := sealPacket_size hP hpnLen hlength hseal
  refine ⟨?_, ?_⟩
  · grind [packetLen]
  · rw [hsize]
    exact hroom

/-- Building a packet uses no key and changes nothing, or it seals with the key of the space
under the next packet number and advances that number. -/
theorem buildPacketToAddr_cases (hP : P.Documented) (ctx : SendContext α) (s : KeyState)
    (space : PacketNumberSpace) (frames : List Frame) (payload : Bytes) (addr : α)
    (trackRetransmission : Bool) (pendingDatagramBytes : Nat) :
    let b := s.buildPacketToAddr P ctx space frames payload addr trackRetransmission
      pendingDatagramBytes
    (b.sealed = [] ∧ b.state = s) ∨
      ∃ appKind keys, (appKind.isSome ↔ space = .applicationData) ∧
        s.sealKeys space appKind = some keys ∧ b.sealed = [(keys.1, s.nextPn space)] ∧
          b.state = s.advance space appKind := by
  have hprotected : ∀ appKind : Option ApplicationPacketKind,
      let b := s.buildProtected P ctx space frames payload addr trackRetransmission
        pendingDatagramBytes appKind
      (b.sealed = [] ∧ b.state = s) ∨
        ∃ keys, s.sealKeys space appKind = some keys ∧ b.sealed = [(keys.1, s.nextPn space)] ∧
          b.state = s.advance space appKind := by
    intro appKind
    unfold buildProtected
    dsimp only
    split
    · exact Or.inl ⟨rfl, rfl⟩
    · split
      · exact Or.inl ⟨rfl, rfl⟩
      · next packet hencode =>
        split
        · exact Or.inl ⟨rfl, rfl⟩
        · split
          · exact Or.inl ⟨rfl, rfl⟩
          · next keys hkeys =>
            rw [hkeys] at hencode
            obtain ⟨hoffset, hpnLen, hlength⟩ :=
              encodeForSample_length (hP.sampleLen_le keys.2) hencode
            rcases sealPacket_cases hP s space frames trackRetransmission appKind keys hoffset
              hpnLen hlength with hnone | hsome
            all_goals grind
  unfold buildPacketToAddr
  grind

end KeyState

end Starfish.Quic
