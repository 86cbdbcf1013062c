import Starfish.Quic.Error

/-!
# Congestion control

Every congestion controller counts the bytes in flight in the same way and
differs in how it moves its window. The window algorithm is a parameter; NewReno
is the one that needs integers only.
-/

namespace Starfish.Quic

universe u

def minimumWindow : Nat := 2 * 1200

def initialWindow : Nat := 10 * 1200

/-- A window algorithm; arguments are bytes, round-trip time, send time and current
time, as far as each operation has them. -/
structure CongestionAlgorithm (γ : Type u) where
  new : γ
  window : γ → Nat
  onAck : γ → Nat → Nat → Nat → Nat → γ
  onLoss : γ → Nat → Nat → Nat → γ
  onEcnCe : γ → Nat → Nat → Nat → γ
  onPersistentCongestion : γ → γ

/-- A congestion controller: bytes in flight and the state of its window. -/
structure Congestion (γ : Type u) where
  bytesInFlight : Nat
  state : γ

namespace Congestion

variable {γ : Type u} (alg : CongestionAlgorithm γ)

def newInstance : Congestion γ := ⟨0, alg.new⟩

def onPacketSent (c : Congestion γ) (bytes : Nat) : Congestion γ :=
  { c with bytesInFlight := c.bytesInFlight + bytes }

def onAck (c : Congestion γ) (bytes rtt sentTime now : Nat) : Congestion γ :=
  ⟨c.bytesInFlight - bytes, alg.onAck c.state bytes rtt sentTime now⟩

def onLoss (c : Congestion γ) (bytes sentTime now : Nat) : Congestion γ :=
  ⟨c.bytesInFlight - bytes, alg.onLoss c.state bytes sentTime now⟩

def onEcnCe (c : Congestion γ) (bytes sentTime now : Nat) : Congestion γ :=
  ⟨c.bytesInFlight - bytes, alg.onEcnCe c.state bytes sentTime now⟩

def onPacketDiscarded (c : Congestion γ) (bytes : Nat) : Congestion γ :=
  { c with bytesInFlight := c.bytesInFlight - bytes }

def onPersistentCongestion (c : Congestion γ) : Congestion γ :=
  { c with state := alg.onPersistentCongestion c.state }

def canSend (c : Congestion γ) (bytes : Nat) : Bool :=
  decide (c.bytesInFlight + bytes ≤ alg.window c.state)

end Congestion

/-! ## NewReno -/

structure NewReno where
  cwnd : Nat
  ssthresh : Nat
  congestionRecoveryStart : Option Nat
deriving DecidableEq, Repr

namespace NewReno

def inCongestionRecovery (s : NewReno) (sentTime : Nat) : Bool :=
  match s.congestionRecoveryStart with
  | some start => decide (sentTime ≤ start)
  | none => false

/-- Halve the window, at most once in a recovery period. -/
def reduce (s : NewReno) (sentTime now : Nat) : NewReno :=
  if s.inCongestionRecovery sentTime then s
  else ⟨max (s.cwnd / 2) minimumWindow, s.cwnd / 2, some now⟩

/-- Slow start below the threshold, one datagram for each round trip above it. -/
def grow (s : NewReno) (bytes sentTime : Nat) : NewReno :=
  if s.inCongestionRecovery sentTime then s
  else if s.cwnd < s.ssthresh then { s with cwnd := s.cwnd + bytes }
  else { s with cwnd := s.cwnd + 1200 * bytes / s.cwnd }

def algorithm : CongestionAlgorithm NewReno where
  new := ⟨initialWindow, u64Max, none⟩
  window := NewReno.cwnd
  onAck := fun s bytes _ sentTime _ => s.grow bytes sentTime
  onLoss := fun s _ sentTime now => s.reduce sentTime now
  onEcnCe := fun s _ sentTime now => s.reduce sentTime now
  onPersistentCongestion := fun s => { s with cwnd := minimumWindow, ssthresh := u64Max }

end NewReno

end Starfish.Quic
