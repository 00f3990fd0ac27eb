import Utp.Transport.Stall

/-!
# The transport inside a handshake

A system that also carries `Syn`s, `State`s and `Reset`s has a one-way system inside of
it, made of the data and the acknowledgements.  Steps that only touch these are steps of
the core, and a late `State` takes the mark of the client back to the start, where every
acknowledgement is still sound.
-/

namespace Utp

open Foundation
open Foundation.SelectiveRepeat

namespace OneWay

def ofType (t : PacketType) (packets : List Packet) : List Packet :=
  packets.filter fun p => p.getType = t

theorem ofType_append (t : PacketType) (front back : List Packet) :
    ofType t (front ++ back) = ofType t front ++ ofType t back :=
  List.filter_append ..

theorem mem_ofType {t : PacketType} {packets : List Packet} {p : Packet} :
    p ∈ ofType t packets <-> p ∈ packets ∧ p.getType = t := by
  simp [ofType]

theorem ofType_eq_self {t : PacketType} {packets : List Packet}
    (h : forall p, p ∈ packets -> p.getType = t) : ofType t packets = packets :=
  List.filter_eq_self.mpr (by simpa using h)

theorem ofType_eq_nil {t : PacketType} {packets : List Packet}
    (h : forall p, p ∈ packets -> p.getType ≠ t) : ofType t packets = [] :=
  List.filter_eq_nil_iff.mpr (by simpa using h)

/-- The transport inside a system with a handshake: the data and the
acknowledgements, between a client that is taken to be connected and the server. -/
def core (s : OneWay) : OneWay :=
  { s with
    client := { s.client with state := .connected }
    toServer := ofType .data s.toServer
    toClient := ofType .ack s.toClient }

section Core

variable {base limit : Nat} {s : OneWay} {env : Env} {o : Outcome}

theorem setState_self {peer : UtpSocketState} {state : SocketState}
    (h : peer.state = state) :
    { peer with state := state } = peer := by
  rw [← h]

theorem core_client (h : s.client.state = .connected) : s.core.client = s.client :=
  setState_self h

theorem state_write (hstate : s.client.state = .connected) (buf : List UInt8)
    (addr : SocketAddr) : (s.write env buf addr).client.state = .connected := by
  show (sendPackets env buf addr s.client).peer.state = _
  rw [sendPackets_peer (by rw [hstate]; decide), Utp.enqueue, foldl_enqueueChunk]
  exact hstate

theorem core_write (hstate : s.client.state = .connected) (buf : List UInt8)
    (addr : SocketAddr)
    (hdata : forall d, d ∈ (sendPackets env buf addr s.client).sent ->
      d.1.getType = .data) :
    (s.write env buf addr).core = s.core.write env buf addr := by
  have hself := setState_self hstate
  have hsent : ofType .data ((sendPackets env buf addr s.client).sent.map Prod.fst) =
      (sendPackets env buf addr s.client).sent.map Prod.fst := by
    refine ofType_eq_self fun p hp => ?_
    rcases List.mem_map.mp hp with ⟨d, hd, rfl⟩
    exact hdata d hd
  have hafter : { (sendPackets env buf addr s.client).peer with state := .connected } =
      (sendPackets env buf addr s.client).peer :=
        setState_self (state_write hstate buf addr)
  simp only [write, core, hself, hafter, ofType_append, hsent]

theorem core_serverStep (hemitted : forall q, q ∈ o.emitted -> q.getType = .ack) :
    (s.serverStep o).core = s.core.serverStep o := by
  simp only [serverStep, core, ofType_append, ofType_eq_self hemitted]

theorem core_serverStep_eq_self (hpeer : o.peer = s.server)
    (hemitted : forall q, q ∈ o.emitted -> q.getType ≠ .ack) :
    (s.serverStep o).core = s.core := by
  simp only [serverStep, core, ofType_append, ofType_eq_nil hemitted, hpeer,
    List.append_nil, List.drop_length]

theorem core_clientStep (hstate : o.peer.state = .connected)
    (hemitted : forall p, p ∈ o.emitted -> p.getType = .data) :
    (s.clientStep o).core = s.core.clientStep o := by
  simp only [clientStep, core, ofType_append, ofType_eq_self hemitted,
    setState_self hstate]

theorem core_clientStep_quiet (hemitted : o.emitted = []) :
    (s.clientStep o).core =
      { s.core with client := { o.peer with state := .connected } } := by
  simp only [clientStep, core, hemitted, List.append_nil]

/-!
## Steps of the core
-/

theorem Working.write_core (h : Working base limit s.core)
    (hlimit : base + limit + 31 <= 65535)
    (hstate : s.client.state = .connected) (env : Env) (buf : List UInt8)
    (addr : SocketAddr)
    (hfit : s.created.length + (chunksOf buf).length <= limit) :
    (forall d, d ∈ (sendPackets env buf addr s.client).sent -> d.1.getType = .data) ∧
      (s.write env buf addr).core = s.core.write env buf addr := by
  have hwritten : Working base limit (s.core.write env buf addr) :=
    h.write hlimit buf addr hfit
  have hdata : forall d, d ∈ (sendPackets env buf addr s.client).sent ->
      d.1.getType = .data := by
    intro d hd
    rw [← core_client hstate] at hd
    exact (hwritten.toServer_spec
      (List.mem_append_right _ (List.mem_map.mpr ⟨d, hd, rfl⟩))).1
  exact ⟨hdata, core_write hstate buf addr hdata⟩

theorem Working.deliverData_core (h : Working base limit s.core) {p : Packet}
    (hp : p ∈ s.core.toServer) (ho : handlePacket env p s.server = .ok o) :
    (s.serverStep o).core = s.core.serverStep o := by
  rcases h.handles_data hp ho with ⟨sack, reply, -, hemitted, hreply, -⟩
  refine core_serverStep fun q hq => ?_
  rw [hemitted] at hq
  cases List.mem_singleton.mp hq
  exact hreply.getType_eq

theorem Working.deliverAck_core (h : Working base limit s.core)
    (hstate : s.client.state = .connected) {q : Packet} (hq : q ∈ s.core.toClient)
    (ho : handlePacket env q s.client = .ok o) :
    o.peer.state = .connected ∧ (forall p, p ∈ o.emitted -> p.getType = .data) ∧
      (s.clientStep o).core = s.core.clientStep o := by
  have htype := (mem_ofType.mp hq).2
  have hkept : o.peer.state = .connected := by
    rw [handlePacket_ack hstate htype] at ho
    exact (handleAck_frame ho).1.state.trans hstate
  rw [← core_client hstate] at ho
  have hmoved := h.deliverAck hq ho
  have hdata : forall p, p ∈ o.emitted -> p.getType = .data := fun p hp =>
    (hmoved.toServer_spec (List.mem_append_right _ hp)).1
  exact ⟨hkept, hdata, core_clientStep hkept hdata⟩

end Core

/-!
## A late answer to the `Syn`
-/

section Late

variable {base limit : Nat} {s : OneWay} {env : Env} {q : Packet} {o : Outcome}

theorem Working.lowered (h : Working base limit s) {client : UtpSocketState}
    (hstate : client.state = .connected) (hseq : client.seqNr = s.client.seqNr)
    (hwindow : client.sentWindow = s.client.sentWindow)
    (haddress : client.connectedTo = s.client.connectedTo)
    (hmark : client.lastAcked.toNat = base) :
    Working base limit { s with client := client } := by
  rcases h.refines with ⟨c, hc⟩
  have hstart : Invariant { c with mark := 0 } :=
    { hc.invariant with
      mark_le := Nat.zero_le _
      outstanding_ge := fun i _ => Nat.zero_le i }
  have hsender : SenderView base client { c with mark := 0 } :=
    { state := hstate
      seqNr := by
        rw [hseq]
        exact hc.sender.seqNr
      lastAcked := hmark
      window := by
        rw [hwindow]
        exact hc.sender.window }
  have haddr := h.address
  rw [← haddress] at haddr
  exact
    { h with
      refines := ⟨{ c with mark := 0 },
        { hc with
          invariant := hstart
          sender := hsender
          receiver := { hc.receiver with } }⟩
      address := haddr }

theorem Working.window_lt (h : Working base limit s) {k : UInt16}
    (hk : k ∈ s.client.sentWindow) : base < k.toNat := by
  rcases h.refines with ⟨c, hc⟩
  rcases mem_iff_getElem?.mp hk with ⟨p, hp⟩
  rcases (hc.sender.window k p).mp hp with ⟨i, -, -, hnumber⟩
  omega

theorem Working.handleState (h : Working base limit s) (htype : q.getType = .state)
    (hack : q.ackNr.toNat = base) (ho : handlePacket env q s.client = .ok o) :
    o.emitted = [] ∧ o.peer.state = .connected ∧
      Working base limit { s with client := o.peer } := by
  have haddress := (handlePacket_eq_ok ho).connectedTo
  have hstate := h.numbers.client_state
  rw [handlePacket_state hstate htype] at ho
  rcases handleState_frame ho with ⟨hframe, hwindow, hmark⟩
  have hkept := hframe.state.trans hstate
  refine ⟨?_, hkept, h.lowered hkept hframe.seqNr hwindow haddress (by rw [hmark, hack])⟩
  rcases bind_eq_ok.mp ho with ⟨counted, hcount, ho⟩
  split at ho
  · -- the packet before the first one is never in the window
    exfalso
    rcases bind_eq_ok.mp ho with ⟨lost, hlost, -⟩
    rcases resendBefore_isOk.mp ⟨lost, hlost⟩ with ⟨k, hk, hnumber⟩
    rw [(countState_frame hcount).2.1] at hk
    have hlt := h.window_lt hk
    omega
  · cases ho
    rfl

end Late

end OneWay

end Utp
