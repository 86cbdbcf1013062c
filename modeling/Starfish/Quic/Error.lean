import Mathlib.Algebra.GroupWithZero.Nat
import Mathlib.Tactic.Common

/-!
# Errors of the QUIC transport

Every fallible operation of the transport returns an `Except QuicError` value.
The messages are kept, because the receive path decides by the message of an
error whether a packet is dropped silently.
-/

namespace Starfish.Quic

/-- The largest value of a 64-bit unsigned integer. -/
def u64Max : Nat := 2 ^ 64 - 1

/-- Addition of 64-bit integers that reports overflow. -/
def checkedAdd (a b : Nat) : Option Nat :=
  if a + b ≤ u64Max then some (a + b) else none

/-- Subtraction of 64-bit integers that reports overflow. -/
def checkedSub (a b : Nat) : Option Nat := if b ≤ a then some (a - b) else none

/-- Addition of 64-bit integers that stops at the largest value. -/
def saturatingAdd (a b : Nat) : Nat := min (a + b) u64Max

/-- Multiplication of 64-bit integers that stops at the largest value. -/
def saturatingMul (a b : Nat) : Nat := min (a * b) u64Max

variable {a b : Nat}

theorem checkedAdd_of_le (h : a + b ≤ u64Max) : checkedAdd a b = some (a + b) :=
  if_pos h

theorem checkedSub_of_le (h : b ≤ a) : checkedSub a b = some (a - b) :=
  if_pos h

theorem checkedSub_eq_some {c : Nat} (h : checkedSub a b = some c) : b ≤ a ∧ c = a - b := by
  grind [checkedSub]

theorem checkedAdd_eq_some {c : Nat} (h : checkedAdd a b = some c) : c = a + b := by
  grind [checkedAdd]

inductive TransportErrorCode
  | noError
  | internalError
  | connectionRefused
  | flowControlError
  | streamLimitError
  | streamStateError
  | finalSizeError
  | frameEncodingError
  | transportParameterError
  | connectionIdLimitError
  | protocolViolation
  | invalidToken
  | applicationError
  | cryptoBufferExceeded
  | keyUpdateError
  | aeadLimitReached
  | noViablePath
  | cryptoError (alert : UInt8)
deriving DecidableEq, Repr

/-- Errors returned by the operations of a connection. The payloads of the I/O
and TLS variants belong to the operating system and to the TLS library; only
their text is kept. -/
inductive QuicError
  | io (message : String)
  | tls (message : String)
  | transport (code : TransportErrorCode) (message : String)
  | invalidPacket (message : String)
  | streamReset (code : Nat)
  | connectionClosed (code : TransportErrorCode) (reason : String)
  | connectionDraining
  | invalidFrame (message : String)
  | bufferTooSmall
deriving DecidableEq, Repr

end Starfish.Quic
