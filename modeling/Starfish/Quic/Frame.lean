import Starfish.Quic.Error

/-!
# Frames

The frame types of RFC 9000, section 19, with the two classifications the send
and recovery paths use.
-/

namespace Starfish.Quic

abbrev Bytes := List UInt8

inductive PacketNumberSpace
  | initial
  | handshake
  | applicationData
deriving DecidableEq, Repr

/-- The order in which the send loops visit the spaces. -/
def PacketNumberSpace.all : List PacketNumberSpace := [.initial, .handshake, .applicationData]

structure EcnCounts where
  ect0 : Nat := 0
  ect1 : Nat := 0
  ce : Nat := 0
deriving DecidableEq, Repr

/-- Packet numbers from `start` to `stop`, both included. -/
structure AckRange where
  start : Nat
  stop : Nat
deriving DecidableEq, Repr

structure AckFrame where
  largestAcknowledged : Nat
  ackDelay : Nat
  ranges : List AckRange
  ecn : Option EcnCounts
deriving DecidableEq, Repr

structure CryptoFrame where
  offset : Nat
  data : Bytes
deriving DecidableEq, Repr

structure StreamFrame where
  streamId : Nat
  offset : Nat
  fin : Bool
  data : Bytes
deriving DecidableEq, Repr

inductive Frame
  | padding
  | ping
  | ack (frame : AckFrame)
  | resetStream (streamId applicationErrorCode finalSize : Nat)
  | stopSending (streamId applicationErrorCode : Nat)
  | crypto (frame : CryptoFrame)
  | newToken (token : Bytes)
  | stream (frame : StreamFrame)
  | maxData (maximumData : Nat)
  | maxStreamData (streamId maximumStreamData : Nat)
  | maxStreams (bidirectional : Bool) (maximumStreams : Nat)
  | dataBlocked (maximumData : Nat)
  | streamDataBlocked (streamId maximumStreamData : Nat)
  | streamsBlocked (bidirectional : Bool) (maximumStreams : Nat)
  | newConnectionId (sequenceNumber retirePriorTo : Nat) (connectionId : Bytes)
      (statelessResetToken : Bytes)
  | retireConnectionId (sequenceNumber : Nat)
  | pathChallenge (data : Bytes)
  | pathResponse (data : Bytes)
  | connectionClose (isTransport : Bool) (errorCode : Nat) (frameType : Option Nat)
      (reason : Bytes)
  | handshakeDone
deriving DecidableEq, Repr

namespace Frame

/-- Everything but ACK and PADDING asks the peer for an acknowledgement. -/
def isAckEliciting : Frame → Bool
  | .ack _ | .padding => false
  | _ => true

/-- Frames that are sent again when their packet is lost. -/
def isRetransmittable : Frame → Bool
  | .ack _ | .padding | .ping | .pathChallenge _ => false
  | _ => true

/-- Frames whose payload the packetiser may divide over several packets. -/
def isData : Frame → Bool
  | .crypto _ | .stream _ => true
  | _ => false

theorem isAckEliciting_of_isRetransmittable {f : Frame} (h : f.isRetransmittable = true) :
    f.isAckEliciting = true := by
  cases f <;> simp_all [isRetransmittable, isAckEliciting]

end Frame

end Starfish.Quic
