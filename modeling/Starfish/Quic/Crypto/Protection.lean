import Starfish.Quic.Packet.Types
import Starfish.Quic.Transport.StreamManager

/-!
# Packet protection

Payloads are sealed with an AEAD whose nonce is the packet number, then parts of
the header are masked with a sample of the ciphertext (RFC 9001, section 5). The
primitives belong to the TLS library and are parameters, indexed by the identity
of a key.
-/

namespace Starfish.Quic

/-- Where keys come from. Initial keys are a function of a connection ID; every key change
of the handshake and every key update yields new ones. -/
inductive KeySource
  | initial (dcid : Bytes)
  | handshake (install : Nat)
  | zeroRtt
  | oneRtt (install generation : Nat)
deriving DecidableEq, Repr

/-- A key: where it comes from, and the side whose packets it protects. -/
structure KeyId where
  source : KeySource
  side : Side
deriving DecidableEq, Repr

structure PacketProtection where
  tagLen : KeyId → Nat
  sampleLen : KeyId → Nat
  encryptInPlace : KeyId → Nat → Bytes → Bytes → Option (Bytes × Bytes)
  decryptInPlace : KeyId → Nat → Bytes → Bytes → Option Bytes
  maskHeader : KeyId → Bytes → UInt8 → Bytes → Option (UInt8 × Bytes)
  unmaskHeader : KeyId → Bytes → UInt8 → Bytes → Option (UInt8 × Bytes)

/-- What the library documents: sealing keeps the length of the payload and returns a tag of
the announced length, samples are short, and masking a packet number of at most four bytes
with a sample of the right length succeeds. Masking works in place, so it keeps the length. -/
structure PacketProtection.Documented (P : PacketProtection) : Prop where
  sampleLen_le : ∀ key, P.sampleLen key + 4 ≤ u64Max
  encrypt_length : ∀ {key pn header payload ciphertext tag},
    P.encryptInPlace key pn header payload = some (ciphertext, tag) →
      ciphertext.length = payload.length ∧ tag.length = P.tagLen key
  mask_isSome : ∀ {key sample} (first : UInt8) {pnBytes},
    sample.length = P.sampleLen key → pnBytes.length ≤ 4 →
      (P.maskHeader key sample first pnBytes).isSome = true
  mask_length : ∀ {key sample first pnBytes masked},
    P.maskHeader key sample first pnBytes = some masked → masked.2.length = pnBytes.length

namespace PacketProtection

variable (P : PacketProtection)

def encryptPacket (pn : Nat) (header payload : Bytes) (key : KeyId) : Except QuicError Bytes :=
  match P.encryptInPlace key pn header payload with
  | some (ciphertext, tag) => .ok (ciphertext ++ tag)
  | none => .error (.invalidPacket "AEAD encryption failed")

def decryptPacket (pn : Nat) (header payload : Bytes) (key : KeyId) : Except QuicError Bytes :=
  match P.decryptInPlace key pn header payload with
  | some plaintext => .ok plaintext
  | none => .error (.invalidPacket "AEAD decryption failed")

def replaceHeader (buf : Bytes) (pnOffset : Nat) (first : UInt8) (pnBytes : Bytes) : Bytes :=
  first :: slice buf 1 pnOffset ++ pnBytes ++ buf.drop (pnOffset + pnBytes.length)

def applyHeaderProtection (buf : Bytes) (pnOffset pnLen : Nat) (key : KeyId) :
    Except QuicError Bytes :=
  let sampleOffset := pnOffset + 4
  if buf.length < sampleOffset + P.sampleLen key then
    .error (.invalidPacket "packet too short for header protection sample")
  else if pnOffset = 0 ∨ buf = [] then
    .error (.invalidPacket "pn_offset must be > 0 and buffer non-empty for header protection")
  else
    let sample := slice buf sampleOffset (sampleOffset + P.sampleLen key)
    match P.maskHeader key sample (byteAt buf 0) (slice buf pnOffset (pnOffset + pnLen)) with
    | some (first, pnBytes) => .ok (replaceHeader buf pnOffset first pnBytes)
    | none => .error (.invalidPacket "header protection encrypt failed")

def removeHeaderProtection (buf : Bytes) (pnOffset : Nat) (key : KeyId) :
    Except QuicError (Nat × Bytes) :=
  let sampleOffset := pnOffset + 4
  if buf.length < sampleOffset + P.sampleLen key then
    .error (.invalidPacket "packet too short for header protection sample")
  else if pnOffset = 0 ∨ buf = [] then
    .error (.invalidPacket "pn_offset must be > 0 and buffer non-empty for header protection")
  else
    let sample := slice buf sampleOffset (sampleOffset + P.sampleLen key)
    let maxPn := min 4 (buf.length - pnOffset)
    match P.unmaskHeader key sample (byteAt buf 0) (slice buf pnOffset (pnOffset + maxPn)) with
    | some (first, pnBytes) =>
      .ok ((first &&& 0x03).toNat + 1, replaceHeader buf pnOffset first pnBytes)
    | none => .error (.invalidPacket "header protection decrypt failed")

variable {P}

variable {key : KeyId}

theorem encryptPacket_length (hP : P.Documented) {pn : Nat} {header payload sealed : Bytes}
    (h : P.encryptPacket pn header payload key = .ok sealed) :
    sealed.length = payload.length + P.tagLen key := by
  grind [cases Documented, encryptPacket]

theorem applyHeaderProtection_ok (hP : P.Documented) {buf : Bytes} {pnOffset pnLen : Nat}
    (hoffset : 0 < pnOffset) (hlen : pnLen ≤ 4) (hbuf : pnOffset + 4 + P.sampleLen key ≤ buf.length)
    :
    ∃ sent, P.applyHeaderProtection buf pnOffset pnLen key = .ok sent := by
  have hsample : (slice buf (pnOffset + 4) (pnOffset + 4 + P.sampleLen key)).length =
      P.sampleLen key := by
    rw [slice, List.length_take, List.length_drop]
    omega
  have hpn : (slice buf pnOffset (pnOffset + pnLen)).length ≤ 4 := by
    rw [slice, List.length_take]
    omega
  obtain ⟨masked, hmask⟩ := Option.isSome_iff_exists.mp
    (hP.mask_isSome (byteAt buf 0) hsample hpn)
  have hnil : ¬ (pnOffset = 0 ∨ buf = []) := by
    grind
  unfold applyHeaderProtection
  dsimp only
  rw [if_neg (by omega), if_neg hnil, hmask]
  exact ⟨_, rfl⟩

theorem applyHeaderProtection_length (hP : P.Documented) {buf sent : Bytes} {pnOffset pnLen : Nat}
    (hpn : pnOffset + pnLen ≤ buf.length)
    (h : P.applyHeaderProtection buf pnOffset pnLen key = .ok sent) :
    sent.length = buf.length := by
  unfold applyHeaderProtection at h
  dsimp only at h
  split at h
  · cases h
  · split at h
    · cases h
    · next hnonempty =>
      split at h
      · next first pnBytes hmask =>
        cases h
        have hlength : pnBytes.length = pnLen := by
          rw [hP.mask_length hmask, slice, List.length_take, List.length_drop]
          omega
        simp only [replaceHeader, slice, List.length_append, List.length_cons, List.length_take,
          List.length_drop]
        omega
      · cases h

end PacketProtection

end Starfish.Quic
