import Utp.Foundation.Bytes
import Utp.Socket.HandlePacket

/-!
# The receive loop

`UtpSocket::start_receiving` reads datagrams one after the other into a single
buffer and gives each to `UtpSocket::recv_packets_from`, which parses it, finds
or creates the peer, handles the packet, sends the reply, and forwards what
became deliverable.
-/

namespace Utp

open Foundation

/-- The configuration of a socket the receive path reads. -/
structure UtpSocket where
  id : UInt16
  drop : Bool

abbrev Peers := SocketAddr -> Option UtpSocketState

/-- What one turn of the loop reads from outside: the datagram or the error of
the UDP socket, the random draw of the loss simulation, the clock, and the
outcomes of the UDP and channel sends it attempts. -/
structure Arrival where
  received : Except IoError (List UInt8 × SocketAddr)
  draw : Bool
  now : Timestamp
  udp : Nat -> Except IoError Unit
  channel : Nat -> Except String Unit

structure Turn where
  buf : List UInt8
  peers : Peers
  sent : List Datagram
  forwarded : List Packet
  result : Except IoError SocketAddr

/-!
## Reading a datagram
-/

/-- UDP `recv_from` keeps as much of the datagram as fits into the buffer. -/
def recvLen (buf data : List UInt8) : Nat := min data.length buf.length

def recvInto (buf data : List UInt8) : List UInt8 :=
  overwrite 0 (data.take (recvLen buf data)) buf

def toPacket (receivedData : List UInt8) : Except ParseError Packet :=
  Packet.tryFrom receivedData

def simulatesLoss (socket : UtpSocket) (arrival : Arrival) (packet : Packet) : Bool :=
  socket.drop && packet.seqNr != 1 && arrival.draw

/-- The packet `recv_packets_from` gives to `handle_packet`, if it gets that
far: the second parse, of the whole buffer. -/
def packetToHandle (socket : UtpSocket) (arrival : Arrival) (buf : List UInt8) :
    Option Packet :=
  match arrival.received with
  | .error _ => none
  | .ok (data, _) =>
      let len := recvLen buf data
      let buf := recvInto buf data
      match toPacket (buf.take len) with
      | .error _ => none
      | .ok packet =>
          if simulatesLoss socket arrival packet then none
          else (Packet.tryFrom buf).toOption

/-!
## Forwarding
-/

/-- Pop the incoming buffer into the channel until it is empty or a send fails;
the packet of a failed send is gone. -/
def forward (channel : Nat -> Except String Unit) :
    List Packet -> List Packet -> List Packet × List Packet × Except IoError Unit
  | [], forwarded => (forwarded, [], .ok ())
  | data :: rest, forwarded =>
      match channel forwarded.length with
      | .error text => (forwarded, rest, .error ⟨.other, text⟩)
      | .ok () => forward channel rest (forwarded ++ [data])

def newPeer (addr : SocketAddr) (packet : Packet) : UtpSocketState :=
  { UtpSocketState.new packet.connectionId with connectedTo := some addr }

/-- The part of `recv_packets_from` behind `handle_packet`. -/
def finishTurn (arrival : Arrival) (addr : SocketAddr) (buf : List UInt8)
    (peers : Peers) (outcome : Outcome) : Turn :=
  let deliver (sent : List Datagram) : Turn :=
    let (forwarded, rest, status) :=
      forward arrival.channel outcome.peer.incomingBuffer []
    let peer := { outcome.peer with incomingBuffer := rest }
    { buf := buf
      peers := Function.update peers addr (some peer)
      sent := sent
      forwarded := forwarded
      result := status.map fun _ => addr }
  match outcome.result with
  | .ok (some rsp) =>
      match arrival.udp outcome.sent.length with
      | .ok () => deliver (outcome.sent ++ [(rsp, addr)])
      | .error e =>
          { buf := buf
            peers := Function.update peers addr (some outcome.peer)
            sent := outcome.sent
            forwarded := []
            result := .error ⟨.brokenPipe, e.text⟩ }
  | _ => deliver outcome.sent

def Turn.idle (buf : List UInt8) (peers : Peers)
    (result : Except IoError SocketAddr) : Turn where
  buf := buf
  peers := peers
  sent := []
  forwarded := []
  result := result

def recvPacketsFrom (socket : UtpSocket) (arrival : Arrival) (buf : List UInt8)
    (peers : Peers) : Except Panic Turn :=
  match arrival.received with
  | .error e => .ok (Turn.idle buf peers (.error e))
  | .ok (data, addr) =>
      let len := recvLen buf data
      let buf := recvInto buf data
      match toPacket (buf.take len) with
      | .error e =>
          .ok (Turn.idle buf peers (.error ⟨.invalidData, e.display⟩))
      | .ok packet =>
          if simulatesLoss socket arrival packet then
            .ok (Turn.idle buf peers (.ok addr))
          else
            let peer := (peers addr).getD (newPeer addr packet)
            match Packet.tryFrom buf with
            | .error e =>
                .ok (Turn.idle buf (Function.update peers addr (some peer))
                  (.error e.toIoError))
            | .ok packet => do
                let env : Env :=
                  { id := socket.id, now := arrival.now, udp := arrival.udp }
                let outcome <- handlePacket env packet peer
                return finishTurn arrival addr buf peers outcome

/-!
## The loop
-/

/-- What the loop has done so far.  `stopped` holds the error that ended it. -/
structure LoopState where
  buf : List UInt8
  peers : Peers
  sent : List Datagram
  forwarded : List Packet
  processed : Nat
  stopped : Option IoError

def LoopState.initial (peers : Peers) : LoopState where
  buf := List.replicate 26 0
  peers := peers
  sent := []
  forwarded := []
  processed := 0
  stopped := none

/-- Account for one turn; the `?` of the loop leaves it on an error. -/
def LoopState.absorb (loop : LoopState) (turn : Turn) : LoopState where
  buf := turn.buf
  peers := turn.peers
  sent := loop.sent ++ turn.sent
  forwarded := loop.forwarded ++ turn.forwarded
  processed :=
    match turn.result with
    | .ok _ => loop.processed + 1
    | .error _ => loop.processed
  stopped :=
    match turn.result with
    | .ok _ => none
    | .error e => some e

def startReceiving (socket : UtpSocket) :
    List Arrival -> LoopState -> Except Panic LoopState
  | [], loop => .ok loop
  | arrival :: arrivals, loop => do
      let turn <- recvPacketsFrom socket arrival loop.buf loop.peers
      let loop := loop.absorb turn
      match loop.stopped with
      | some _ => return loop
      | none => startReceiving socket arrivals loop

end Utp
