import Utp.Socket.State

/-!
# Handling one packet

`UtpSocket::handle_packet` and the functions it calls.  A call either aborts or
returns the new peer state, the datagrams it sent on the way, and its result.
Each arm of the match of the source is a definition of its own.
-/

namespace Utp

open Foundation

structure Outcome where
  peer : UtpSocketState
  sent : List Datagram
  result : Except IoError (Option Packet)

def Outcome.quiet (peer : UtpSocketState)
    (result : Except IoError (Option Packet)) : Outcome where
  peer := peer
  sent := []
  result := result

def prepareReply (env : Env) (packet : Packet) (t : PacketType)
    (seqNr ackNr : UInt16) : Packet :=
  let resp := Packet.new.setType t
  let resp := resp.setTimestamp env.now
  let resp := resp.setTimestampDifference (absDiff env.now packet.timestamp)
  let resp := resp.setConnectionId env.id
  let resp := resp.setSeqNr seqNr
  resp.setAckNr ackNr

/-!
## Selective acknowledgements
-/

/-- One pass of the loop of `build_selective_ack`: grow the vector up to the
byte of the entry and set its bit. -/
def markReceived (lastAcked : UInt16) (sack : List UInt8) (seqNr : UInt16) :
    List UInt8 :=
  if lastAcked < seqNr then
    let diff := (seqNr - lastAcked).toNat - 1
    let byte := diff / 8
    let bit := diff % 8
    let sack :=
      if sack.length <= byte then
        sack ++ List.replicate (byte + 1 - sack.length) 0
      else sack
    sack.set byte (sack.getD byte 0 ||| 1 <<< UInt8.ofNat bit)
  else
    sack

def padToFour (sack : List UInt8) : List UInt8 :=
  sack ++ List.replicate ((4 - sack.length % 4) % 4) 0

def buildSelectiveAck (peer : UtpSocketState) : List UInt8 :=
  padToFour
    ((peer.outOfOrder.toList.map Prod.fst).foldl (markReceived peer.lastAcked) [])

structure Found where
  ackPackets : List UInt16
  result : List UInt16
  deriving DecidableEq, Repr

/-- Below the last number of the window, a received number is acknowledged and
any other one is lost. -/
def Found.note (found : Found) (lastSeqNr seqNr : UInt16) (received : Bool) :
    Found :=
  if seqNr < lastSeqNr then
    if received then { found with ackPackets := found.ackPackets ++ [seqNr] }
    else { found with result := found.result ++ [seqNr] }
  else
    found

/-- The closure `get_lost_seq_nr` runs on each bit of a SACK. -/
def scanBits (ackNr lastSeqNr : UInt16) :
    List Bool -> Nat -> Found -> Except Panic Found
  | [], _, found => .ok found
  | received :: bits, idx, found => do
      let next <- addU16 ackNr 1
      let seqNr <- addU16 next (UInt16.ofNat idx)
      scanBits ackNr lastSeqNr bits (idx + 1)
        (found.note lastSeqNr seqNr received)

def scanExtensions (packet : Packet) (peer : UtpSocketState) :
    List Extension -> Found -> Except Panic Found
  | [], found => .ok found
  | extension :: exts, found =>
      if extension.ty = .selectiveAck then
        match lastEntry peer.sentWindow with
        | some (lastSeqNr, _) => do
            let received <- extension.iter
            let found <- scanBits packet.ackNr lastSeqNr received 0 found
            scanExtensions packet peer exts found
        | none => scanExtensions packet peer exts found
      else
        scanExtensions packet peer exts found

def getLostSeqNr (packet : Packet) (peer : UtpSocketState) :
    Except Panic (List UInt16 × UtpSocketState) := do
  let exts <- packet.extensions
  let found <- scanExtensions packet peer exts ⟨[], []⟩
  return (found.result,
    { peer with sentWindow := eraseAll peer.sentWindow found.ackPackets })

/-!
## Acknowledgements
-/

/-- The comparison of an acknowledgement with the last one: a repeated number is
counted, the next number advances the window, any other one is ignored. -/
def countAck (env : Env) (packet : Packet) (peer : UtpSocketState) :
    Except Panic UtpSocketState :=
  if packet.ackNr = peer.lastAcked then do
    let count <- addU16 peer.duplicateAckCount 1
    return { peer with duplicateAckCount := count }
  else do
    let next <- addU16 peer.lastAcked 1
    return if packet.ackNr = next then
      { peer with
        lastAcked := packet.ackNr
        lastAckedTimestamp := env.now
        duplicateAckCount := 1
        sentWindow := peer.sentWindow.erase packet.ackNr }
    else peer

/-- After three acknowledgements of one number, the packet behind it. -/
def fastRetransmit (packet : Packet) (peer : UtpSocketState) :
    Except Panic (Option Packet) :=
  if 3 <= peer.duplicateAckCount then do
    let lost <- addU16 packet.ackNr 1
    return peer.sentWindow[lost]?
  else
    return none

def resendLost (env : Env) (peer : UtpSocketState) :
    List UInt16 -> List Datagram ->
      Except Panic (List Datagram × Except IoError Unit)
  | [], sent => .ok (sent, .ok ())
  | seqNr :: lost, sent =>
      match peer.sentWindow[seqNr]? with
      | none => resendLost env peer lost sent
      | some packet =>
          match peer.connectedTo with
          | none => .error .unwrapNone
          | some addr =>
              match env.udp sent.length with
              | .error e => .ok (sent, .error e)
              | .ok () => resendLost env peer lost (sent ++ [(packet, addr)])

def handleAck (env : Env) (packet : Packet) (peer : UtpSocketState) :
    Except Panic Outcome := do
  let peer <- countAck env packet peer
  let reply <- fastRetransmit packet peer
  let (lostPackets, peer) <- getLostSeqNr packet peer
  let (sent, status) <- resendLost env peer lostPackets []
  return { peer := peer, sent := sent, result := status.map fun _ => reply }

/-!
## Data
-/

/-- The `while let` loop over `out_of_order`: deliver entries as long as they
continue the sequence, and stop at the first one that does not. -/
def drain : List (UInt16 × Packet) -> UtpSocketState -> List UInt16 ->
    Except Panic (UtpSocketState × List UInt16)
  | [], peer, seqNrToRemove => .ok (peer, seqNrToRemove)
  | (seq, p) :: entries, peer, seqNrToRemove => do
      let next <- addU16 peer.lastAcked 1
      if seq = next then
        drain entries
          { peer with
            incomingBuffer := peer.incomingBuffer ++ [p]
            lastAcked := seq }
          (seqNrToRemove ++ [seq])
      else
        return (peer, seqNrToRemove)

def acceptInOrder (packet : Packet) (peer : UtpSocketState) :
    Except Panic UtpSocketState := do
  let seqNr <- addU16 peer.seqNr 1
  let peer :=
    { peer with
      lastAcked := packet.seqNr
      seqNr := seqNr
      incomingBuffer := peer.incomingBuffer ++ [packet] }
  let (peer, seqNrToRemove) <- drain peer.outOfOrder.toList peer []
  return { peer with outOfOrder := eraseAll peer.outOfOrder seqNrToRemove }

def acceptData (packet : Packet) (peer : UtpSocketState) :
    Except Panic (UtpSocketState × List UInt8) := do
  let next <- addU16 peer.lastAcked 1
  if packet.seqNr = next then
    let peer <- acceptInOrder packet peer
    return (peer, [])
  else if peer.lastAcked < packet.seqNr then
    let peer :=
      { peer with outOfOrder := peer.outOfOrder.insert packet.seqNr packet }
    return (peer, buildSelectiveAck peer)
  else
    -- already acknowledged: the packet is dropped
    return (peer, [])

def withSack (reply : Packet) (sack : List UInt8) : Except Panic Packet :=
  if sack.length ≠ 0 then reply.setSack sack else .ok reply

def handleData (env : Env) (packet : Packet) (peer : UtpSocketState) :
    Except Panic Outcome := do
  let (peer, sack) <- acceptData packet peer
  let reply := prepareReply env packet .ack peer.seqNr peer.lastAcked
  let reply <- withSack reply sack
  return Outcome.quiet peer (.ok (some reply))

/-!
## The other arms
-/

def handleNewSyn (env : Env) (packet : Packet) (peer : UtpSocketState) : Outcome :=
  Outcome.quiet { peer with lastAcked := packet.seqNr, state := .connected }
    (.ok (some (prepareReply env packet .state packet.seqNr packet.seqNr)))

def handleUnexpectedSyn (env : Env) (packet : Packet) (peer : UtpSocketState) :
    Outcome :=
  Outcome.quiet peer
    (.ok (some (prepareReply env packet .reset packet.seqNr packet.seqNr)))

def handleSynAck (env : Env) (packet : Packet) (peer : UtpSocketState) : Outcome :=
  Outcome.quiet
    { peer with
      ackNr := packet.seqNr
      seqNr := peer.seqNr + 1
      state := .connected
      lastAcked := packet.ackNr
      lastAckedTimestamp := env.now
      sentWindow := peer.sentWindow.erase packet.seqNr }
    (.ok none)

def countState (env : Env) (packet : Packet) (peer : UtpSocketState) :
    Except Panic UtpSocketState :=
  if packet.ackNr = peer.lastAcked then do
    let count <- addU16 peer.duplicateAckCount 1
    return { peer with duplicateAckCount := count }
  else
    return { peer with
      lastAcked := packet.ackNr
      lastAckedTimestamp := env.now
      duplicateAckCount := 1 }

/-- The packet before the acknowledged number, unwrapped. -/
def resendBefore (packet : Packet) (peer : UtpSocketState) :
    Except Panic Packet := do
  let seqNr <- subU16 packet.ackNr 1
  match peer.sentWindow[seqNr]? with
  | some lost => return lost
  | none => throw .unwrapNone

def handleState (env : Env) (packet : Packet) (peer : UtpSocketState) :
    Except Panic Outcome := do
  let peer <- countState env packet peer
  if peer.sentWindow ≠ ∅ ∨ peer.duplicateAckCount = 3 then
    let lost <- resendBefore packet peer
    return Outcome.quiet peer (.ok (some lost))
  else
    return Outcome.quiet peer (.ok none)

/-- A `Fin` closes the connection; missing packets are only logged. -/
def handleFin (env : Env) (packet : Packet) (peer : UtpSocketState) : Outcome :=
  Outcome.quiet { peer with state := .closed }
    (.ok (some (prepareReply env packet .state packet.seqNr packet.seqNr)))

def handleReset (peer : UtpSocketState) : Outcome :=
  Outcome.quiet { peer with state := .resetReceived }
    (.error SocketError.connectionReset.toIoError)

def handleOther (packet : Packet) (peer : UtpSocketState) : Outcome :=
  let message := "Unimplemented handling for (" ++ peer.state.debug ++ "," ++
    packet.getType.debug ++ ")"
  Outcome.quiet peer (.error (SocketError.other message).toIoError)

def handlePacket (env : Env) (packet : Packet) (peer : UtpSocketState) :
    Except Panic Outcome :=
  match peer.state, packet.getType with
  | .new, .syn => .ok (handleNewSyn env packet peer)
  | _, .syn => .ok (handleUnexpectedSyn env packet peer)
  | .synSent, .state => .ok (handleSynAck env packet peer)
  | .connected, .ack | .finSent, .ack => handleAck env packet peer
  | .connected, .data | .finSent, .data => handleData env packet peer
  | .connected, .state => handleState env packet peer
  | .connected, .fin | .finSent, .fin => .ok (handleFin env packet peer)
  | _, .reset => .ok (handleReset peer)
  | _, _ => .ok (handleOther packet peer)

end Utp
