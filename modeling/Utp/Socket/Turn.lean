import Utp.Socket.NoPanic
import Utp.Socket.PacketRun
import Utp.Socket.ReceiveLoop

/-!
# One turn of the receive loop

`UtpSocket::recv_packets_from` either leaves everything as it is, or it handles
one packet for the entry of the datagram's source, sends the reply there, and
forwards what the entry can deliver.  Later modules use these two cases and never
unfold the function.
-/

namespace Utp

open Foundation

section SameHeader

variable {first p q : Packet}

theorem Packet.SameHeader.seqNr (h : p.SameHeader q) : q.seqNr = p.seqNr :=
  congrArg UInt16.ofNat (h.field .seqNr)

theorem Packet.SameHeader.of_common (hp : first.SameHeader p)
    (hq : first.SameHeader q) : p.SameHeader q where
  packetType := hq.packetType.trans hp.packetType.symm
  version := hq.version.trans hp.version.symm
  extensionType := hq.extensionType.trans hp.extensionType.symm
  field f := (hq.field f).trans (hp.field f).symm

end SameHeader

/-!
## Forwarding
-/

theorem forward_spec (channel : Nat -> Except String Unit)
    (buffer forwarded : List Packet) :
    exists popped lost,
      (forward channel buffer forwarded).1 = forwarded ++ popped ∧ lost.length <= 1 ∧
        popped ++ lost ++ (forward channel buffer forwarded).2.1 = buffer := by
  induction buffer generalizing forwarded with
  | nil => exact ⟨[], [], by simp [forward], by simp, rfl⟩
  | cons data rest ih =>
      rw [forward]
      cases channel forwarded.length with
      | error text => exact ⟨[], [data], by simp, by simp, rfl⟩
      | ok u =>
          rcases ih (forwarded ++ [data]) with ⟨popped, lost, hforwarded, hlost, hbuffer⟩
          refine ⟨data :: popped, lost, ?_, hlost, ?_⟩
          · rw [hforwarded, List.append_assoc, List.singleton_append]
          · rw [List.cons_append, List.cons_append, hbuffer]

/-!
## The two cases
-/

section Turn

variable {socket : UtpSocket} {arrival : Arrival} {buf : List UInt8} {peers : Peers}
  {addr : SocketAddr} {first packet : Packet} {o : Outcome} {turn : Turn}

/-- What a call of `handle_packet` sees of the turn it is made in. -/
def Arrival.env (arrival : Arrival) (socket : UtpSocket) : Env where
  id := socket.id
  now := arrival.now
  udp := arrival.udp

/-- The entry a turn works on: the one of the address, or a new one. -/
def entryFor (entry : Option UtpSocketState) (addr : SocketAddr) (first : Packet) :
    UtpSocketState :=
  entry.getD (newPeer addr first)

/-- The turn handles a packet for the entry of the source: the received slice parses
as `first`, and the buffer with the bytes behind the slice as `packet`. -/
structure Handling (socket : UtpSocket) (arrival : Arrival) (buf : List UInt8)
    (addr : SocketAddr) (entry : Option UtpSocketState) (first packet : Packet)
    (o : Outcome) : Prop where
  received : exists data, arrival.received = .ok (data, addr) ∧
    first.bytes = data.take (recvLen buf data) ∧ packet.bytes = recvInto buf data
  accepted : Packet.tryFrom first.bytes = .ok first
  parsed : Packet.tryFrom packet.bytes = .ok packet
  longer : exists stale, first.LongerBy packet stale
  handled : handlePacket (arrival.env socket) packet (entryFor entry addr first) = .ok o

/-- What the turn leaves behind once the packet is handled: the reply is sent or
its send fails, and of the incoming buffer one packet at most is lost. -/
structure Finished (peers : Peers) (addr : SocketAddr) (o : Outcome) (turn : Turn) :
    Prop where
  sent : turn.sent = o.sent ∨
    exists rsp, o.result = .ok (some rsp) ∧ turn.sent = o.sent ++ [(rsp, addr)]
  emptied : exists lost rest, lost.length <= 1 ∧
    turn.forwarded ++ lost ++ rest = o.peer.incomingBuffer ∧
    turn.peers = Function.update peers addr (some { o.peer with incomingBuffer := rest })

inductive Turned (socket : UtpSocket) (arrival : Arrival) (buf : List UInt8)
    (peers : Peers) (turn : Turn) : Prop where
  | idle : turn.peers = peers -> turn.sent = [] -> turn.forwarded = [] ->
      Turned socket arrival buf peers turn
  | handled {addr : SocketAddr} {first packet : Packet} {o : Outcome} :
      Handling socket arrival buf addr (peers addr) first packet o ->
      Finished peers addr o turn -> Turned socket arrival buf peers turn

theorem finished_finishTurn (arrival : Arrival) (addr : SocketAddr) (buf : List UInt8)
    (peers : Peers) (o : Outcome) :
    Finished peers addr o (finishTurn arrival addr buf peers o) := by
  have hforward := forward_spec arrival.channel o.peer.incomingBuffer []
  rcases hforward with ⟨popped, lost, hpopped, hlost, hbuffer⟩
  rw [List.nil_append] at hpopped
  rw [← hpopped] at hbuffer
  unfold finishTurn
  dsimp only
  split
  · rename_i rsp hrsp
    split
    · exact ⟨Or.inr ⟨rsp, hrsp, rfl⟩, lost, _, hlost, hbuffer, rfl⟩
    · exact ⟨Or.inl rfl, [], o.peer.incomingBuffer, by simp, by simp, rfl⟩
  · exact ⟨Or.inl rfl, lost, _, hlost, hbuffer, rfl⟩

theorem turned_recvPacketsFrom (h : recvPacketsFrom socket arrival buf peers = .ok turn) :
    Turned socket arrival buf peers turn := by
  unfold recvPacketsFrom at h
  split at h
  · cases h
    exact .idle rfl rfl rfl
  · rename_i data addr harrival
    simp only at h
    split at h
    · cases h
      exact .idle rfl rfl rfl
    · rename_i first hfirst
      split at h
      · cases h
        exact .idle rfl rfl rfl
      · rcases tryFrom_recvInto hfirst with ⟨packet, hsecond, hlonger⟩
        rw [hsecond] at h
        rcases bind_eq_ok.mp h with ⟨o, ho, h⟩
        cases h
        rw [take_recvInto] at hfirst
        have hbytes := (Packet.tryFrom_eq_ok.mp hfirst).1
        have hpacket := (Packet.tryFrom_eq_ok.mp hsecond).1
        have hhandling : Handling socket arrival buf addr (peers addr) first packet o := {
          received := ⟨data, harrival, hbytes, hpacket⟩
          accepted := hbytes ▸ hfirst
          parsed := hpacket ▸ hsecond
          longer := ⟨_, hlonger⟩
          handled := ho }
        exact .handled hhandling (finished_finishTurn arrival addr _ peers o)

theorem Handling.handles {entry : Option UtpSocketState}
    (h : Handling socket arrival buf addr entry first packet o) :
    Handles (arrival.env socket) packet (entryFor entry addr first) o :=
  handlePacket_eq_ok h.handled

end Turn

/-!
## How much one packet makes a socket send
-/

def dataLength (exts : List Extension) : Nat :=
  (exts.map fun e => e.data.length).sum

theorem length_encodeBlocks (exts : List Extension) :
    (encodeBlocks exts).length = dataLength exts + 2 * exts.length := by
  induction exts with
  | nil => rfl
  | cons e exts ih =>
      simp only [encodeBlocks, dataLength, List.length_cons, List.length_append,
        List.map_cons, List.sum_cons] at ih ⊢
      omega

section Responses

variable {env : Env} {packet : Packet} {peer : UtpSocketState} {o : Outcome}

theorem scanBits_length_result {ackNr last : UInt16} {received : List Bool} {idx : Nat}
    {found found' : Found} (h : scanBits ackNr last received idx found = .ok found') :
    found'.result.length <= found.result.length + received.length := by
  induction received generalizing idx found with
  | nil =>
      cases h
      exact Nat.le_refl _
  | cons bit received ih =>
      rcases bind_eq_ok.mp h with ⟨next, -, h⟩
      rcases bind_eq_ok.mp h with ⟨seqNr, -, h⟩
      have hrest := ih h
      have hnote : (found.note last seqNr bit).result.length <=
        found.result.length + 1 := by
        rw [Found.note]
        split
        · split
          · exact Nat.le_succ _
          · simp
        · exact Nat.le_succ _
      rw [List.length_cons]
      omega

theorem scanExtensions_length_result {exts : List Extension} {found found' : Found}
    (h : scanExtensions packet peer exts found = .ok found') :
    found'.result.length <= found.result.length + 8 * dataLength exts := by
  induction exts generalizing found with
  | nil =>
      cases h
      exact Nat.le_refl _
  | cons e exts ih =>
      have hsum : dataLength (e :: exts) = e.data.length + dataLength exts := rfl
      by_cases hsack : e.ty = .selectiveAck
      · cases hlast : lastEntry peer.sentWindow with
        | none =>
            rw [scanExtensions, if_pos hsack, hlast] at h
            have hrest := ih h
            omega
        | some entry =>
            rw [scanExtensions_cons_sack hsack hlast] at h
            rcases bind_eq_ok.mp h with ⟨mid, hmid, h⟩
            have hrest := ih h
            have hbits := scanBits_length_result hmid
            rw [length_bits] at hbits
            omega
      · rw [scanExtensions_cons_other hsack] at h
        have hrest := ih h
        omega

theorem resendLost_sent {lost : List UInt16} {sent sent' : List Datagram}
    {status : Except IoError Unit}
    (h : resendLost env peer lost sent = .ok (sent', status)) :
    sent'.length <= sent.length + lost.length ∧
      forall d, d ∈ sent' -> d ∈ sent ∨ peer.connectedTo = some d.2 := by
  induction lost generalizing sent with
  | nil =>
      cases h
      exact ⟨Nat.le_refl _, fun d => Or.inl⟩
  | cons seqNr lost ih =>
      rw [resendLost] at h
      split at h
      · rcases ih h with ⟨hlength, hdest⟩
        exact ⟨Nat.le_trans hlength (by simp), hdest⟩
      · split at h
        · cases h
        · rename_i addr haddr
          split at h
          · cases h
            exact ⟨Nat.le_add_right _ _, fun d => Or.inl⟩
          · rcases ih h with ⟨hlength, hdest⟩
            simp only [List.length_append, List.length_cons, List.length_nil] at hlength ⊢
            refine ⟨by omega, fun d hd => ?_⟩
            rcases hdest d hd with hsent | hpeer
            · rcases List.mem_append.mp hsent with hsent | hnew
              · exact Or.inl hsent
              · cases List.mem_singleton.mp hnew
                exact Or.inr haddr
            · exact Or.inr hpeer

theorem handleAck_connectedTo (h : handleAck env packet peer = .ok o) :
    o.peer.connectedTo = peer.connectedTo := by
  rcases handleAck_eq_ok h with ⟨counted, reply, lost, status, hcount, -, hlost, -⟩
  rcases bind_eq_ok.mp hlost with ⟨exts, -, hlost⟩
  rcases bind_eq_ok.mp hlost with ⟨found, -, hlost⟩
  rw [← (Prod.mk.inj (Except.ok.inj hlost)).2]
  exact hcount.connectedTo

theorem handleAck_sent {exts : List Extension} {payload : List UInt8}
    (hchain : packet.HasChain exts payload) (h : handleAck env packet peer = .ok o) :
    o.sent.length <= 8 * dataLength exts ∧
      forall d, d ∈ o.sent -> peer.connectedTo = some d.2 := by
  have hconnected := handleAck_connectedTo h
  rcases handleAck_eq_ok h with ⟨counted, reply, lost, status, -, -, hlost, hsent, -⟩
  rcases resendLost_sent hsent with ⟨hlength, hdest⟩
  rcases bind_eq_ok.mp hlost with ⟨exts', hexts, hlost⟩
  cases hchain.extensions.symm.trans hexts
  rcases bind_eq_ok.mp hlost with ⟨found, hfound, hlost⟩
  have hresult := scanExtensions_length_result hfound
  rw [(Prod.mk.inj (Except.ok.inj hlost)).1] at hresult
  refine ⟨?_, fun d hd => ?_⟩
  · rw [List.length_nil, Nat.zero_add] at hlength hresult
    exact Nat.le_trans hlength hresult
  · rcases hdest d hd with hnil | hpeer
    · cases hnil
    · rw [← hconnected, hpeer]

theorem DataEffect.connectedTo {peer' : UtpSocketState} {sack : List UInt8}
    (h : DataEffect packet peer peer' sack) : peer'.connectedTo = peer.connectedTo := by
  cases h <;> rfl

theorem Handles.connectedTo (h : Handles env packet peer o) :
    o.peer.connectedTo = peer.connectedTo := by
  cases h with
  | ack _ _ h => exact handleAck_connectedTo h
  | data _ _ h =>
      rcases handleData_effect h with ⟨sack, heffect⟩
      exact heffect.connectedTo
  | state _ _ h =>
      rcases bind_eq_ok.mp h with ⟨counted, hcount, h⟩
      have hcounted : counted.connectedTo = peer.connectedTo := by
        rw [countState] at hcount
        split at hcount
        · rcases bind_eq_ok.mp hcount with ⟨count, -, hcount⟩
          cases hcount
          rfl
        · cases hcount
          rfl
      rw [← hcounted]
      split at h
      · rcases bind_eq_ok.mp h with ⟨lost, -, h⟩
        cases h
        rfl
      · cases h
        rfl
  | newSyn | unexpectedSyn | synAck | fin | reset | other => rfl

theorem Handles.sent_eq_nil (h : Handles env packet peer o)
    (htype : packet.getType ≠ .ack) :
    o.sent = [] := by
  cases h with
  | ack _ hack _ => exact absurd hack htype
  | data _ _ h =>
      rcases handleData_eq_ok h with ⟨sack, reply, -, ho, -⟩
      rw [ho]
      rfl
  | state _ _ h =>
      rcases bind_eq_ok.mp h with ⟨counted, -, h⟩
      split at h
      · rcases bind_eq_ok.mp h with ⟨lost, -, h⟩
        cases h
        rfl
      · cases h
        rfl
  | newSyn | unexpectedSyn | synAck | fin | reset | other => rfl

theorem Handles.sent_spec (h : Handles env packet peer o) {exts : List Extension}
    {payload : List UInt8} (hchain : packet.HasChain exts payload) :
    o.sent.length <= 8 * dataLength exts ∧
      forall d, d ∈ o.sent -> peer.connectedTo = some d.2 := by
  by_cases htype : packet.getType = .ack
  · cases h with
    | ack _ _ h => exact handleAck_sent hchain h
    | newSyn _ hother | unexpectedSyn _ hother | synAck _ hother | data _ hother
    | state _ hother | fin _ hother | reset hother => cases htype.symm.trans hother
    | other => exact ⟨Nat.zero_le _, by simp [handleOther, Outcome.quiet]⟩
  · rw [h.sent_eq_nil htype]
    exact ⟨Nat.zero_le _, by simp⟩

theorem Handles.sent_mem (h : Handles env packet peer o) {d : Datagram}
    (hd : d ∈ o.sent) :
    exists k : UInt16, peer.sentWindow[k]? = some d.1 := by
  by_cases htype : packet.getType = .ack
  · cases h with
    | ack _ _ h =>
        rcases handleAck_eq_ok h with ⟨counted, reply, lost, status, -, -, -, hsent, -⟩
        rcases resendLost_mem hsent hd with hnil | ⟨k, -, hk⟩
        · cases hnil
        · exact ⟨k, handleAck_kept h hk⟩
    | newSyn _ hother | unexpectedSyn _ hother | synAck _ hother | data _ hother
    | state _ hother | fin _ hother | reset hother => cases htype.symm.trans hother
    | other => simp [handleOther, Outcome.quiet] at hd
  · rw [h.sent_eq_nil htype] at hd
    cases hd

theorem Packet.HasChain.dataLength_le {exts : List Extension} {payload : List UInt8}
    (hchain : packet.HasChain exts payload) (hlength : packet.bytes.length <= 26) :
    dataLength exts <= 4 := by
  have hsplit := Chain.length_eq hchain
  rw [List.length_drop, length_encodeBlocks, headerSize] at hsplit
  cases exts with
  | nil => exact Nat.zero_le _
  | cons e exts =>
      rw [List.length_cons] at hsplit
      omega

end Responses

end Utp
