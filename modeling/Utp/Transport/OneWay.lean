import Utp.Foundation.SelectiveRepeat
import Utp.Socket.PacketRun
import Utp.Socket.Receive
import Utp.Socket.SendPackets

/-!
# One-way transport

A connected client writes buffers, a connected server handles the client's
`Data` packets, and the client handles the server's replies.  The network keeps
every packet that was ever sent, and each step of it hands over any of them, so
packets are lost, duplicated, and reordered at will.
-/

namespace Utp

open Foundation

/-- Everything a completed call of `handle_packet` puts on the wire: what it
sends on the way and the reply its caller sends for it. -/
def Outcome.emitted (o : Outcome) : List Packet :=
  o.sent.map Prod.fst ++
    match o.result with
    | .ok (some reply) => [reply]
    | _ => []

theorem mem_emitted {o : Outcome} {p : Packet} :
    p ∈ o.emitted <-> p ∈ o.sent.map Prod.fst ∨ o.result = .ok (some p) := by
  rcases o with ⟨peer, sent, e | _ | reply⟩
  · simp [Outcome.emitted]
  · simp [Outcome.emitted]
  · simp [Outcome.emitted, eq_comm]

theorem mem_emitted_of_status {o : Outcome} {status : Except IoError Unit}
    {reply : Option Packet} {p : Packet}
    (hresult : o.result = status.map fun _ => reply) (hp : p ∈ o.emitted) :
    p ∈ o.sent.map Prod.fst ∨ reply = some p := by
  rcases mem_emitted.mp hp with hsent | hok
  · exact Or.inl hsent
  · rw [hresult] at hok
    rcases map_eq_ok.mp hok with ⟨_, -, hreply⟩
    exact Or.inr hreply

structure OneWay where
  client : UtpSocketState
  server : UtpSocketState
  toServer : List Packet
  toClient : List Packet
  /-- The buffers written so far. -/
  written : List (List UInt8)
  /-- The packets `send_packets` created so far. -/
  created : List Packet
  /-- The packets pushed to the server's incoming buffer so far. -/
  pushed : List Packet
  deriving DecidableEq

namespace OneWay

def initial (client server : UtpSocketState) : OneWay where
  client := client
  server := server
  toServer := []
  toClient := []
  written := []
  created := []
  pushed := []

inductive Action where
  | write (env : Env) (buf : List UInt8) (addr : SocketAddr)
  | deliverData (env : Env) (index : Nat)
  | deliverAck (env : Env) (index : Nat)
  | forward (channel : Nat -> Except String Unit)

def write (env : Env) (buf : List UInt8) (addr : SocketAddr) (s : OneWay) : OneWay :=
  let o := sendPackets env buf addr s.client
  { s with
    client := o.peer
    toServer := s.toServer ++ o.sent.map Prod.fst
    written := s.written ++ [buf]
    created := s.created ++ createdPackets env.id s.client (chunksOf buf) }

def serverStep (o : Outcome) (s : OneWay) : OneWay :=
  { s with
    server := o.peer
    toClient := s.toClient ++ o.emitted
    pushed := s.pushed ++ o.peer.incomingBuffer.drop s.server.incomingBuffer.length }

def clientStep (o : Outcome) (s : OneWay) : OneWay :=
  { s with
    client := o.peer
    toServer := s.toServer ++ o.emitted }

/-- One step.  A call that aborts has no next state, and neither has a write
that would create more than `limit` packets. -/
def step (limit : Nat) (s : OneWay) : Action -> Option OneWay
  | .write env buf addr =>
      if s.created.length + (chunksOf buf).length <= limit then
        some (s.write env buf addr)
      else
        none
  | .deliverData env index => do
      let packet <- s.toServer[index]?
      let o <- (handlePacket env packet s.server).toOption
      return s.serverStep o
  | .deliverAck env index => do
      let packet <- s.toClient[index]?
      let o <- (handlePacket env packet s.client).toOption
      return s.clientStep o
  | .forward channel =>
      let rest := (Utp.forward channel s.server.incomingBuffer []).2.1
      some { s with server := { s.server with incomingBuffer := rest } }

section Step

variable {limit : Nat} {s s' : OneWay} {env : Env}

theorem of_step_write {buf : List UInt8} {addr : SocketAddr}
    (h : step limit s (.write env buf addr) = some s') :
    s.created.length + (chunksOf buf).length <= limit ∧ s' = s.write env buf addr := by
  rw [step] at h
  split at h
  · rename_i hfit
    cases h
    exact ⟨hfit, rfl⟩
  · cases h

theorem of_handled {packets : List Packet} {index : Nat} {peer : UtpSocketState}
    {after : Outcome -> OneWay}
    (h : (do
      let packet <- packets[index]?
      let o <- (handlePacket env packet peer).toOption
      return after o) = some s') :
    exists packet o, packets[index]? = some packet ∧
      handlePacket env packet peer = .ok o ∧ s' = after o := by
  rcases Option.bind_eq_some_iff.mp h with ⟨packet, hpacket, h⟩
  rcases Option.bind_eq_some_iff.mp h with ⟨o, ho, h⟩
  cases h
  exact ⟨packet, o, hpacket, toOption_eq_some.mp ho, rfl⟩

theorem of_step_deliverData {index : Nat}
    (h : step limit s (.deliverData env index) = some s') :
    exists packet o, s.toServer[index]? = some packet ∧
      handlePacket env packet s.server = .ok o ∧ s' = s.serverStep o :=
  of_handled h

theorem of_step_deliverAck {index : Nat}
    (h : step limit s (.deliverAck env index) = some s') :
    exists packet o, s.toClient[index]? = some packet ∧
      handlePacket env packet s.client = .ok o ∧ s' = s.clientStep o :=
  of_handled h

end Step

/-- Two peers after the handshake, both at the sequence number `base`. -/
structure Established (base : Nat) (client server : UtpSocketState) : Prop where
  client_state : client.state = .connected
  client_lastAcked : client.lastAcked.toNat = base
  client_seqNr : client.seqNr.toNat = base + 1
  client_sentWindow : client.sentWindow = ∅
  server_state : server.state = .connected
  server_lastAcked : server.lastAcked.toNat = base
  server_outOfOrder : server.outOfOrder = ∅
  server_incomingBuffer : server.incomingBuffer = []

def Reachable (base limit : Nat) (s : OneWay) : Prop :=
  exists client server actions, Established base client server ∧
    run (step limit) (initial client server) actions = some s

end OneWay

end Utp
