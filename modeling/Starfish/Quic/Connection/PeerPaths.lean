import Mathlib.Logic.Function.Basic
import Starfish.Quic.Packet.Header
import Starfish.Quic.Transport.StreamManager

/-!
# Peer paths

A server counts for every peer address the bytes received and sent until the
address is validated. The counters of the active path stand in the connection
itself and are copied into the table of paths whenever they change.
-/

namespace Starfish.Quic

universe u

structure PeerPathState where
  bytesReceived : Nat := 0
  bytesSent : Nat := 0
  validated : Bool := false
deriving DecidableEq, Repr, Inhabited

structure PeerPaths (α : Type u) where
  side : Side
  peerAddr : α
  bytesReceived : Nat := 0
  bytesSent : Nat := 0
  peerAddressValidated : Bool
  peerPaths : α → Option PeerPathState

namespace PeerPaths

variable {α : Type u} [DecidableEq α]

def newServer (peerAddr : α) (peerAddressValidated : Bool) : PeerPaths α where
  side := .server
  peerAddr := peerAddr
  peerAddressValidated := peerAddressValidated
  peerPaths := Function.update (fun _ => none) peerAddr
    (some { validated := peerAddressValidated })

def active (p : PeerPaths α) : PeerPathState :=
  ⟨p.bytesReceived, p.bytesSent, p.peerAddressValidated⟩

def setActive (p : PeerPaths α) (state : PeerPathState) : PeerPaths α :=
  { p with
    bytesReceived := state.bytesReceived
    bytesSent := state.bytesSent
    peerAddressValidated := state.validated }

def entry (p : PeerPaths α) (addr : α) : PeerPathState := (p.peerPaths addr).getD default

def insert (p : PeerPaths α) (addr : α) (state : PeerPathState) : PeerPaths α :=
  { p with peerPaths := Function.update p.peerPaths addr (some state) }

def peerPathStateForAddr (p : PeerPaths α) (addr : α) : PeerPathState :=
  if p.side = .server ∧ addr = p.peerAddr then p.active else p.entry addr

def storeActivePeerPathState (p : PeerPaths α) : PeerPaths α :=
  if p.side ≠ .server then p else p.insert p.peerAddr p.active

def loadActivePeerPathState (p : PeerPaths α) : PeerPaths α :=
  if p.side ≠ .server then p else p.setActive (p.entry p.peerAddr)

def ensureEntry (p : PeerPaths α) (addr : α) : PeerPaths α := p.insert addr (p.entry addr)

def setActivePeerAddr (p : PeerPaths α) (addr : α) : PeerPaths α :=
  let p := if p.side = .server then p.storeActivePeerPathState.ensureEntry addr else p
  { p with peerAddr := addr }.loadActivePeerPathState

def updateUnvalidated (p : PeerPaths α) (addr : α) (f : PeerPathState → PeerPathState) :
    PeerPaths α :=
  if p.side ≠ .server then p
  else if addr = p.peerAddr then
    if !p.peerAddressValidated then (p.setActive (f p.active)).storeActivePeerPathState else p
  else
    let state := p.entry addr
    p.insert addr (if !state.validated then f state else state)

def recordUnvalidatedBytesReceived (p : PeerPaths α) (addr : α) (bytes : Nat) : PeerPaths α :=
  p.updateUnvalidated addr fun state =>
    { state with bytesReceived := saturatingAdd state.bytesReceived bytes }

def recordUnvalidatedBytesSent (p : PeerPaths α) (addr : α) (bytes : Nat) : PeerPaths α :=
  p.updateUnvalidated addr fun state =>
    { state with bytesSent := saturatingAdd state.bytesSent bytes }

def markPeerPathValidated (p : PeerPaths α) (addr : α) : PeerPaths α :=
  if p.side ≠ .server then p
  else if addr = p.peerAddr then
    { p with peerAddressValidated := true }.storeActivePeerPathState
  else p.insert addr { p.entry addr with validated := true }

def shouldAutoValidatePeerPath (p : PeerPaths α) (space : PacketNumberSpace) (addr : α) : Bool :=
  decide (p.side = .server) && decide (space ≠ .initial) && decide (addr = p.peerAddr)

/-- Until an address is validated, three times the bytes received from it may be sent. -/
def canSendToAddr (p : PeerPaths α) (addr : α) (packetLen : Nat) : Bool :=
  if p.side ≠ .server then true
  else
    let state := p.peerPathStateForAddr addr
    if state.validated then true
    else decide (saturatingAdd state.bytesSent packetLen ≤ saturatingMul state.bytesReceived 3)

theorem canSendToAddr_saturated (p : PeerPaths α) (addr : α) (n : Nat) :
    p.canSendToAddr addr (saturatingAdd 0 n) = p.canSendToAddr addr n := by
  have hsum : ∀ m, saturatingAdd m (saturatingAdd 0 n) = saturatingAdd m n := by
    intro m
    simp only [saturatingAdd]
    omega
  simp only [canSendToAddr, hsum]

/-! ## The side and the active address -/

@[simp] theorem storeActivePeerPathState_side (p : PeerPaths α) :
    p.storeActivePeerPathState.side = p.side := by
  unfold storeActivePeerPathState
  split <;> rfl

@[simp] theorem storeActivePeerPathState_peerAddr (p : PeerPaths α) :
    p.storeActivePeerPathState.peerAddr = p.peerAddr := by
  unfold storeActivePeerPathState
  split <;> rfl

@[simp] theorem updateUnvalidated_side (p : PeerPaths α) (addr : α)
    (f : PeerPathState → PeerPathState) : (p.updateUnvalidated addr f).side = p.side := by
  unfold updateUnvalidated
  split
  · rfl
  · split
    · split
      · exact storeActivePeerPathState_side _
      · rfl
    · rfl

@[simp] theorem updateUnvalidated_peerAddr (p : PeerPaths α) (addr : α)
    (f : PeerPathState → PeerPathState) :
    (p.updateUnvalidated addr f).peerAddr = p.peerAddr := by
  unfold updateUnvalidated
  split
  · rfl
  · split
    · split
      · exact storeActivePeerPathState_peerAddr _
      · rfl
    · rfl

@[simp] theorem markPeerPathValidated_side (p : PeerPaths α) (addr : α) :
    (p.markPeerPathValidated addr).side = p.side := by
  unfold markPeerPathValidated
  split
  · rfl
  · split
    · exact storeActivePeerPathState_side _
    · rfl

@[simp] theorem setActivePeerAddr_side (p : PeerPaths α) (addr : α) :
    (p.setActivePeerAddr addr).side = p.side := by
  have hload : ∀ q : PeerPaths α, q.loadActivePeerPathState.side = q.side := by
    intro q
    unfold loadActivePeerPathState
    split <;> rfl
  unfold setActivePeerAddr
  rw [hload]
  split
  · exact storeActivePeerPathState_side p
  · rfl

/-! ## The counters of every address

Whatever is stored where, the counters of an address change only as the names of
the operations say.
-/

section Counters

variable {p : PeerPaths α} (hserver : p.side = .server)
include hserver

variable (a : α)

theorem peerPathStateForAddr_eq :
    p.peerPathStateForAddr a = if a = p.peerAddr then p.active else p.entry a := by
  simp [peerPathStateForAddr, hserver]

variable (addr : α)

theorem insert_state (state : PeerPathState) (a : α) :
    (p.insert addr state).peerPathStateForAddr a =
      if a = addr ∧ a ≠ p.peerAddr then state else p.peerPathStateForAddr a := by
  rw [peerPathStateForAddr_eq (p := p.insert addr state) hserver, peerPathStateForAddr_eq hserver]
  by_cases hactive : a = p.peerAddr
  · simp [insert, hactive, active]
  · by_cases haddr : a = addr
    · subst haddr
      simp [insert, hactive, entry]
    · simp [insert, hactive, haddr, entry]

theorem setActive_store_state (state : PeerPathState) (a : α) :
    (p.setActive state).storeActivePeerPathState.peerPathStateForAddr a =
      if a = p.peerAddr then state else p.peerPathStateForAddr a := by
  have hset : (p.setActive state).side = .server := hserver
  rw [storeActivePeerPathState, if_neg (by simp [hset]), insert_state hset,
    peerPathStateForAddr_eq hset, peerPathStateForAddr_eq hserver]
  by_cases hactive : a = p.peerAddr
  · simp [hactive, setActive, active]
  · simp [hactive, setActive, entry]

theorem updateUnvalidated_state (f : PeerPathState → PeerPathState) (a : α) :
    (p.updateUnvalidated addr f).peerPathStateForAddr a =
      if a = addr ∧ (p.peerPathStateForAddr a).validated = false then
        f (p.peerPathStateForAddr a)
      else p.peerPathStateForAddr a := by
  rw [updateUnvalidated, if_neg (by simp [hserver])]
  by_cases haddr : addr = p.peerAddr
  · subst haddr
    by_cases hactive : a = p.peerAddr
    · have hstate : p.peerPathStateForAddr p.peerAddr = p.active := by
        rw [peerPathStateForAddr_eq hserver, if_pos rfl]
      grind [active, setActive_store_state]
    · grind [setActive_store_state]
  · rw [if_neg haddr]
    rw [insert_state hserver]
    by_cases ha : a = addr
    · subst ha
      have hstate : p.peerPathStateForAddr a = p.entry a := by
        rw [peerPathStateForAddr_eq hserver, if_neg haddr]
      grind
    · simp [ha]

theorem markPeerPathValidated_state (a : α) :
    (p.markPeerPathValidated addr).peerPathStateForAddr a =
      if a = addr then { p.peerPathStateForAddr a with validated := true }
      else p.peerPathStateForAddr a := by
  rw [markPeerPathValidated, if_neg (by simp [hserver])]
  by_cases haddr : addr = p.peerAddr
  · subst haddr
    rw [if_pos rfl]
    have hset : { p with peerAddressValidated := true } =
        p.setActive { p.active with validated := true } := rfl
    rw [hset, setActive_store_state hserver]
    split
    · next ha => rw [peerPathStateForAddr_eq hserver, if_pos ha]
    · rfl
  · rw [if_neg haddr, insert_state hserver]
    grind [peerPathStateForAddr_eq]

theorem ensureEntry_state (a : α) :
    (p.ensureEntry addr).peerPathStateForAddr a = p.peerPathStateForAddr a := by
  rw [ensureEntry, insert_state hserver]
  split
  · next h => rw [peerPathStateForAddr_eq hserver, if_neg h.2, h.1]
  · rfl

theorem storeActivePeerPathState_entry :
    p.storeActivePeerPathState.entry a = p.peerPathStateForAddr a := by
  rw [storeActivePeerPathState, if_neg (by simp [hserver]), peerPathStateForAddr_eq hserver]
  by_cases ha : a = p.peerAddr
  · simp [insert, entry, ha]
  · simp [insert, entry, ha]

theorem setActivePeerAddr_state (a : α) :
    (p.setActivePeerAddr addr).peerPathStateForAddr a = p.peerPathStateForAddr a := by
  let q : PeerPaths α := { p.storeActivePeerPathState.ensureEntry addr with peerAddr := addr }
  have hq : q.side = .server := by
    show p.storeActivePeerPathState.side = .server
    rw [storeActivePeerPathState_side, hserver]
  have hentry : ∀ b, q.entry b = p.peerPathStateForAddr b := by
    intro b
    rw [← storeActivePeerPathState_entry hserver]
    by_cases hb : b = addr
    · subst hb
      simp [q, ensureEntry, insert, entry]
    · simp [q, ensureEntry, insert, entry, hb]
  have hset : p.setActivePeerAddr addr = q.setActive (q.entry addr) := by
    rw [setActivePeerAddr, if_pos hserver]
    exact if_neg fun hne => hne hq
  rw [hset, peerPathStateForAddr_eq (p := q.setActive (q.entry addr)) hq]
  split
  · next ha =>
    have haddr : a = addr := ha
    rw [haddr, ← hentry addr]
    rfl
  · exact hentry a

end Counters

end PeerPaths

end Starfish.Quic
