import Utp.Foundation.Possibility
import Utp.Socket.Blocked
import Utp.Socket.Turn
import Utp.Transport.Delivery

/-!
# Losses

In the one-way system a packet that is never handed over stays on the wire.  Whether
something can still happen is a question about a network that loses packets for good, so
here every packet on the wire may also vanish.  The states of this system refine the
abstract protocol as before, since a wire with fewer packets is a smaller wire.
-/

namespace Utp

open Foundation
open Foundation.SelectiveRepeat

/-!
## What one packet does to a peer
-/

section Packet

variable {env : Env} {packet : Packet} {peer peer' : UtpSocketState} {o : Outcome}
  {sack : List UInt8}

theorem DataEffect.delivered (h : DataEffect packet peer peer' sack) :
    exists new, peer'.incomingBuffer = peer.incomingBuffer ++ new ∧
      peer'.seqNr.toNat <= peer.seqNr.toNat + new.length := by
  cases h with
  | inOrder hseq hroom =>
      refine ⟨packet :: (following packet peer).map Prod.snd, rfl, ?_⟩
      rw [UInt16.toNat_add, UInt16.toNat_one, List.length_cons]
      omega
  | early => exact ⟨[], (List.append_nil _).symm, Nat.le_refl _⟩
  | old => exact ⟨[], (List.append_nil _).symm, Nat.le_refl _⟩

/-- The number of the acknowledgement and those its bitmap covers lie below the
bound. -/
def SackBelow (bound : Nat) (q : Packet) : Prop :=
  exists exts payload, q.HasChain exts payload ∧
    forall e, e ∈ exts -> q.ackNr.toNat + e.data.length * 8 <= bound

/-- The bitmap is padded to whole words, so it reaches thirty-one numbers
further than what is stored. -/
theorem DataReply.sackBelow {reply : Packet} {top : Nat}
    (hreply : DataReply peer sack reply) (hsack : sack = [] ∨
      sack = buildSelectiveAck peer)
    (htop : peer.lastAcked.toNat <= top ∧
      forall k, k ∈ peer.outOfOrder -> k.toNat <= top) :
    SackBelow (top + 31) reply := by
  rcases hreply.hasChain with ⟨payload, hchain⟩
  refine ⟨_, payload, hchain, ?_⟩
  intro e he
  unfold announcedSack at he
  split at he
  · cases he
  · rename_i hsome
    cases List.mem_singleton.mp he
    rcases hsack with rfl | rfl
    · exact absurd rfl hsome
    · have hwords : (buildSelectiveAck peer).length <=
          4 * ((top - peer.lastAcked.toNat + 31) / 32) := by
        rw [length_buildSelectiveAck_le]
        intro k hk
        have hle := htop.2 k hk
        omega
      have hlow := htop.1
      rw [hreply.ackNr_eq, List.length_take]
      omega

theorem sendPackets_nil (hudp : forall n, env.udp n = .ok ()) (addr : SocketAddr)
    (hopen : peer.state ≠ .closed) {k : UInt16} {q : Packet}
    (hq : peer.sentWindow[k]? = some q) :
    (q, addr) ∈ (sendPackets env [] addr peer).sent := by
  rw [sendPackets, if_neg hopen]
  simp only [transmit_healthy hudp, List.nil_append, enqueue,
    chunksOf_nil, List.foldl_nil]
  have hentry := Std.ExtTreeMap.mem_toList_iff_getElem?_eq_some.mpr hq
  exact List.mem_map.mpr ⟨q, List.mem_map.mpr ⟨(k, q), hentry, rfl⟩, rfl⟩

end Packet

namespace OneWay

/-!
## Losses
-/

/-- A packet on the wire that nobody will ever see again. -/
inductive Loss where
  | data (index : Nat)
  | ack (index : Nat)

def lose (s : OneWay) : Loss -> OneWay
  | .data index => { s with toServer := s.toServer.eraseIdx index }
  | .ack index => { s with toClient := s.toClient.eraseIdx index }

abbrev lossyStep (limit : Nat) : OneWay -> Action ⊕ Loss -> Option OneWay :=
  lossy (step limit) lose

theorem lose_eq (s : OneWay) (l : Loss) :
    exists toServer toClient,
      s.lose l = { s with toServer := toServer, toClient := toClient } ∧
      toServer ⊆ s.toServer ∧ toClient ⊆ s.toClient := by
  cases l with
  | data index =>
      exact ⟨_, s.toClient, rfl, (List.eraseIdx_sublist _ _).subset, List.Subset.refl _⟩
  | ack index =>
      exact ⟨s.toServer, _, rfl, List.Subset.refl _, (List.eraseIdx_sublist _ _).subset⟩

theorem Refines.thinned {base limit : Nat} {s : OneWay} {c : Config Packet}
    (h : Refines base limit s c) {toServer toClient : List Packet}
    (hserver : toServer ⊆ s.toServer) (hclient : toClient ⊆ s.toClient) :
    Refines base limit { s with toServer := toServer, toClient := toClient } c :=
  { h with
    wire := fun p hp => h.wire p (hserver hp)
    acks := fun q hq => h.acks q (hclient hq) }

/-!
## Working states
-/

/-- Two peers after the handshake as it happens: the server has sent nothing of
its own, and the client knows its address. -/
structure Started (base : Nat) (client server : UtpSocketState) : Prop extends
    Established base client server where
  server_seqNr : server.seqNr = 1
  client_address : client.connectedTo ≠ none

structure Working (base limit : Nat) (s : OneWay) : Prop where
  refines : exists c, Refines base limit s c
  ahead : StoreAhead s.server
  counted : s.server.seqNr.toNat <= s.pushed.length + 1
  address : s.client.connectedTo ≠ none
  sacks : forall q, q ∈ s.toClient -> SackBelow (base + limit + 31) q

section Working

variable {base limit : Nat} {s s' : OneWay} {env : Env} {client server : UtpSocketState}

theorem working_initial (h : Started base client server) :
    Working base limit (initial client server) where
  refines := ⟨Config.initial, refines_initial h.toEstablished⟩
  ahead := storeAhead_of_empty h.server_outOfOrder
  counted := by
    show server.seqNr.toNat <= _
    rw [h.server_seqNr]
    exact Nat.le_refl 1
  address := h.client_address
  sacks := by simp [initial]

/-- The numbers of the system, without the abstract configuration. -/
structure Numbers (base limit : Nat) (s : OneWay) : Prop where
  client_state : s.client.state = .connected
  server_state : s.server.state = .connected
  client_seqNr : s.client.seqNr.toNat = base + 1 + s.created.length
  server_lastAcked : s.server.lastAcked.toNat = base + s.pushed.length
  fits : s.created.length <= limit
  pushed_le : s.pushed.length <= s.created.length
  mark_le : s.client.lastAcked.toNat <= s.server.lastAcked.toNat
  stored_le : forall k, k ∈ s.server.outOfOrder -> k.toNat <= base + s.created.length

theorem Refines.numbers {c : Config Packet} (hc : Refines base limit s c) :
    Numbers base limit s := by
  have hwritten := congrArg List.length hc.written
  have houtput := congrArg List.length hc.output
  have hmark := hc.invariant.mark_le
  have hlength := hc.invariant.output_length_le
  have hclient := hc.sender.lastAcked
  have hserver := hc.receiver.lastAcked
  have hseqNr := hc.sender.seqNr
  exact
    { client_state := hc.sender.state
      server_state := hc.receiver.state
      client_seqNr := by omega
      server_lastAcked := by omega
      fits := hc.fits
      pushed_le := by omega
      mark_le := by omega
      stored_le := by
        intro k hk
        rcases mem_iff_getElem?.mp hk with ⟨p, hp⟩
        rcases (hc.receiver.buffer k p).mp hp with ⟨i, hi, hnumber⟩
        have hitem := (List.getElem?_eq_some_iff.mp (hc.invariant.buffer_written hi)).1
        omega }

theorem Working.numbers (h : Working base limit s) : Numbers base limit s := by
  rcases h.refines with ⟨c, hc⟩
  exact hc.numbers

theorem Working.pushed_eq (h : Working base limit s) :
    s.pushed = s.created.take s.pushed.length := by
  rcases h.refines with ⟨c, hc⟩
  have hfront := hc.invariant.output_eq
  rwa [hc.output, hc.written] at hfront

theorem Working.toServer_spec (h : Working base limit s) {p : Packet}
    (hp : p ∈ s.toServer) :
    p.getType = .data ∧ base + 1 <= p.seqNr.toNat ∧
      p.seqNr.toNat <= base + s.created.length := by
  rcases h.refines with ⟨c, hc⟩
  rcases hc.toServer_spec hp with ⟨i, -, hcreated, htype, hnumber⟩
  have hlt := (List.getElem?_eq_some_iff.mp hcreated).1
  exact ⟨htype, by omega, by omega⟩

theorem Working.toClient_spec (h : Working base limit s) {q : Packet}
    (hq : q ∈ s.toClient) : q.getType = .ack := by
  rcases h.refines with ⟨c, hc⟩
  rcases hc.acks q hq with ⟨a, -, hview⟩
  exact hview.getType_eq

theorem Working.client_open (h : Working base limit s) : s.client.state ≠ .closed := by
  rw [h.numbers.client_state]
  decide

theorem Working.lastAcked_write (h : Working base limit s) (env : Env) (buf : List UInt8)
    (addr : SocketAddr) :
    (s.write env buf addr).client.lastAcked = s.client.lastAcked := by
  show (sendPackets env buf addr s.client).peer.lastAcked = _
  rw [sendPackets_peer h.client_open, Utp.enqueue, foldl_enqueueChunk]

theorem Working.write (h : Working base limit s) (hlimit : base + limit + 31 <= 65535)
    (buf : List UInt8) (addr : SocketAddr)
    (hfit : s.created.length + (chunksOf buf).length <= limit) :
    Working base limit (s.write env buf addr) := by
  rcases h.refines with ⟨c, hc⟩
  rcases hc.write (show base + 1 + limit <= 65535 by omega) env buf addr hfit with
    ⟨c', -, hc'⟩
  refine
    { refines := ⟨c', hc'⟩
      ahead := h.ahead
      counted := h.counted
      address := ?_
      sacks := h.sacks }
  show (sendPackets env buf addr s.client).peer.connectedTo ≠ none
  rw [sendPackets_peer h.client_open, Utp.enqueue, foldl_enqueueChunk]
  exact h.address

theorem Working.handles_data (h : Working base limit s) {p : Packet}
    (hp : p ∈ s.toServer) {o : Outcome} (ho : handlePacket env p s.server = .ok o) :
    exists sack reply, DataEffect p s.server o.peer sack ∧ o.emitted = [reply] ∧
      DataReply o.peer sack reply ∧ (sack = [] ∨ sack = buildSelectiveAck o.peer) := by
  rw [handlePacket_data h.numbers.server_state (h.toServer_spec hp).1] at ho
  rcases handleData_eq_ok ho with ⟨sack, reply, haccept, hquiet, hreply⟩
  have heffect := acceptData_eq_ok haccept
  refine ⟨sack, reply, heffect, ?_, hreply, ?_⟩
  · rw [hquiet]
    rfl
  · generalize o.peer = server at heffect
    cases heffect with
    | inOrder => exact Or.inl rfl
    | early => exact Or.inr rfl
    | old => exact Or.inl rfl

theorem Working.deliverData (h : Working base limit s) {p : Packet}
    (hp : p ∈ s.toServer) {o : Outcome} (ho : handlePacket env p s.server = .ok o) :
    Working base limit (s.serverStep o) := by
  rcases h.refines with ⟨c, hc⟩
  rcases hc.deliverData hp ho with ⟨c', -, hc'⟩
  rcases h.handles_data hp ho with ⟨sack, reply, heffect, hemitted, hreply, hsack⟩
  rcases heffect.delivered with ⟨new, hnew, hcount⟩
  have hpushed : (s.serverStep o).pushed = s.pushed ++ new := by
    show s.pushed ++ o.peer.incomingBuffer.drop s.server.incomingBuffer.length = _
    rw [hnew, List.drop_left]
  have hnumbers := hc'.numbers
  have hfits := hnumbers.fits
  have hbound : o.peer.lastAcked.toNat <= base + limit ∧
      forall k, k ∈ o.peer.outOfOrder -> k.toNat <= base + limit := by
    have hlast : o.peer.lastAcked.toNat = _ := hnumbers.server_lastAcked
    have hle := hnumbers.pushed_le
    refine ⟨by omega, ?_⟩
    intro k hk
    exact Nat.le_trans (hnumbers.stored_le k hk) (by omega)
  exact
    { refines := ⟨c', hc'⟩
      ahead := heffect.storeAhead h.ahead
      counted := by
        rw [hpushed, List.length_append]
        have hold := h.counted
        show o.peer.seqNr.toNat <= _
        omega
      address := h.address
      sacks := by
        intro q hq
        rcases List.mem_append.mp hq with hq | hq
        · exact h.sacks q hq
        · rw [hemitted] at hq
          cases List.mem_singleton.mp hq
          exact hreply.sackBelow hsack hbound }

theorem Working.deliverAck (h : Working base limit s) {q : Packet} (hq : q ∈ s.toClient)
    {o : Outcome} (ho : handlePacket env q s.client = .ok o) :
    Working base limit (s.clientStep o) := by
  rcases h.refines with ⟨c, hc⟩
  rcases hc.deliverAck hq ho with ⟨c', -, hc'⟩
  rw [handlePacket_ack h.numbers.client_state (h.toClient_spec hq)] at ho
  exact
    { refines := ⟨c', hc'⟩
      ahead := h.ahead
      counted := h.counted
      address := by
        show o.peer.connectedTo ≠ none
        rw [handleAck_connectedTo ho]
        exact h.address
      sacks := h.sacks }

theorem working_step (hlimit : base + limit + 31 <= 65535) (h : Working base limit s)
    {a : Action} (hstep : step limit s a = some s') : Working base limit s' := by
  cases a with
  | write env buf addr =>
      rcases of_step_write hstep with ⟨hfit, rfl⟩
      exact h.write hlimit buf addr hfit
  | deliverData env index =>
      rcases of_step_deliverData hstep with ⟨p, o, hp, ho, rfl⟩
      exact h.deliverData (List.mem_of_getElem? hp) ho
  | deliverAck env index =>
      rcases of_step_deliverAck hstep with ⟨q, o, hq, ho, rfl⟩
      exact h.deliverAck (List.mem_of_getElem? hq) ho
  | forward channel =>
      rcases h.refines with ⟨c, hc⟩
      cases hstep
      exact
        { h with
          refines := ⟨c, { hc with receiver := { hc.receiver with } }⟩ }

theorem Working.thinned (h : Working base limit s) {toServer toClient : List Packet}
    (hserver : toServer ⊆ s.toServer) (hclient : toClient ⊆ s.toClient) :
    Working base limit { s with toServer := toServer, toClient := toClient } := by
  rcases h.refines with ⟨c, hc⟩
  exact
    { h with
      refines := ⟨c, hc.thinned hserver hclient⟩
      sacks := fun q hq => h.sacks q (hclient hq) }

theorem Working.lose (h : Working base limit s) (l : Loss) :
    Working base limit (s.lose l) := by
  rcases s.lose_eq l with ⟨toServer, toClient, heq, hserver, hclient⟩
  rw [heq]
  exact h.thinned hserver hclient

theorem working_of_run (hlimit : base + limit + 31 <= 65535)
    (h : Started base client server) {actions : List (Action ⊕ Loss)}
    (hrun : run (lossyStep limit) (initial client server) actions = some s) :
    Working base limit s :=
  run_invariant
    (lossy_preserves (fun _ _ _ h hstep =>
      working_step hlimit h hstep) fun _ l h => h.lose l)
    (working_initial h) hrun

end Working

end OneWay

end Utp
