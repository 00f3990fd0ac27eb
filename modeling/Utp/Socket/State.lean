import Utp.Foundation.OrderedMap
import Utp.Wire.PacketLaws

/-!
# Peer state

The state a socket keeps for each peer.  Only the fields some function of the
crate reads or writes are kept; the congestion fields of the source are set once
and never used.
-/

namespace Utp

open Foundation
open Std (ExtTreeMap)

inductive SocketAddr where
  | v4 (ip : UInt32) (port : UInt16)
  | v6 (ip : BitVec 128) (port : UInt16) (flowinfo scopeId : UInt32)
  deriving DecidableEq, Repr

inductive SocketState where
  | new
  | connected
  | synSent
  | finSent
  | resetReceived
  | closed
  deriving DecidableEq, Repr

def SocketState.debug : SocketState -> String
  | .new => "New"
  | .connected => "Connected"
  | .synSent => "SynSent"
  | .finSent => "FinSent"
  | .resetReceived => "ResetReceived"
  | .closed => "Closed"

/-- A map from sequence numbers to packets, iterated in key order. -/
abbrev PacketMap := ExtTreeMap UInt16 Packet

structure UtpSocketState where
  state : SocketState
  seqNr : UInt16
  ackNr : UInt16
  duplicateAckCount : UInt16
  lastAcked : UInt16
  lastAckedTimestamp : Timestamp
  incomingBuffer : List Packet
  sentWindow : PacketMap
  connectedTo : Option SocketAddr
  senderId : UInt16
  outOfOrder : PacketMap
  deriving DecidableEq

def UtpSocketState.new (senderId : UInt16) : UtpSocketState where
  state := .new
  seqNr := 1
  ackNr := 0
  duplicateAckCount := 0
  lastAcked := 0
  lastAckedTimestamp := ⟨0⟩
  incomingBuffer := []
  sentWindow := ∅
  connectedTo := none
  senderId := senderId
  outOfOrder := ∅

/-- A datagram handed to the UDP socket, with its destination. -/
abbrev Datagram := Packet × SocketAddr

/-- What one call reads from outside the peer state: the socket's connection
identifier, the clock, and the outcome of each UDP send the call attempts, in
the order of the attempts. -/
structure Env where
  id : UInt16
  now : Timestamp
  udp : Nat -> Except IoError Unit

/-!
## Sample values

The concrete runs of later modules start from these.
-/

def healthyEnv (id : UInt16) : Env where
  id := id
  now := ⟨0⟩
  udp := fun _ => .ok ()

def loopback (port : UInt16) : SocketAddr := .v4 2130706433 port

def openPeer (addr : SocketAddr) : UtpSocketState :=
  { UtpSocketState.new 0 with
    state := .connected
    seqNr := 2
    ackNr := 1
    lastAcked := 1
    connectedTo := some addr }

def barePacket (t : PacketType) (seqNr ackNr : UInt16) : Packet :=
  ((Packet.new.setType t).setSeqNr seqNr).setAckNr ackNr

@[simp] theorem getType_barePacket (t : PacketType) (seqNr ackNr : UInt16) :
    (barePacket t seqNr ackNr).getType = t := by
  simp [barePacket, Packet.setAckNr, Packet.setSeqNr, Packet.getType_setType]

@[simp] theorem seqNr_barePacket (t : PacketType) (seqNr ackNr : UInt16) :
    (barePacket t seqNr ackNr).seqNr = seqNr := by
  rw [barePacket, Packet.setAckNr, Packet.seqNr_setField_of_ne _ (by decide)]
  exact Packet.seqNr_setSeqNr _ seqNr

theorem hasChain_barePacket (t : PacketType) (seqNr ackNr : UInt16) :
    (barePacket t seqNr ackNr).HasChain [] [] := by
  simp only [barePacket, Packet.setAckNr, Packet.setSeqNr, Packet.hasChain_setField,
    Packet.hasChain_setType]
  exact Packet.hasChain_new

end Utp
