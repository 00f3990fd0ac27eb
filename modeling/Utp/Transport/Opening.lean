import Utp.Transport.OneWay

/-!
# Repeated `Syn`s

The one-way system before the handshake: the client has called `connect`, its
`Syn` is on the wire, and the server has just created a new peer state.  A
second copy of the `Syn` does not change the server, but it is answered with a
`Reset`, and a `Reset` ends the connection on the client's side.
-/

namespace Utp

open Foundation

/-!
## What the two sides put on the wire
-/

def FromClient (p : Packet) : Prop := p.getType = .syn ∨ p.getType = .data

def FromServer (p : Packet) : Prop :=
  p.getType = .state ∨ p.getType = .ack ∨ p.getType = .reset

structure ClientCall (p : Packet) (peer : UtpSocketState) (o : Outcome) : Prop where
  window : forall (k : UInt16) q, o.peer.sentWindow[k]? = some q ->
    peer.sentWindow[k]? = some q
  emitted : forall q, q ∈ o.emitted -> exists k : UInt16, peer.sentWindow[k]? = some q
  state : o.peer.state = .resetReceived <->
    peer.state = .resetReceived ∨ p.getType = .reset

section Calls

variable {env : Env} {p : Packet} {peer : UtpSocketState} {o : Outcome}

theorem handleAck_clientCall (hstate : peer.state ≠ .resetReceived)
    (htype : p.getType = .ack) (h : handleAck env p peer = .ok o) :
    ClientCall p peer o := by
  rcases handleAck_eq_ok h with
    ⟨counted, reply, lost, status, hcount, hreply, hlost, hsent, hresult⟩
  have hwindow : forall (k : UInt16) q, o.peer.sentWindow[k]? = some q ->
      peer.sentWindow[k]? = some q := fun k q hq => handleAck_kept h hq
  refine ⟨hwindow, ?_, ?_⟩
  · intro q hq
    rcases mem_emitted_of_status hresult hq with hq | hq
    · rcases List.mem_map.mp hq with ⟨d, hd, rfl⟩
      rcases resendLost_mem hsent hd with hnil | ⟨k, -, hk⟩
      · cases hnil
      · exact ⟨k, hwindow k d.1 hk⟩
    · rcases fastRetransmit_mem (hreply.trans (congrArg _ hq)) with ⟨k, hk⟩
      exact ⟨k, hcount.window_kept hk⟩
  · rw [(handleAck_frame h).1.state]
    simp [hstate, htype]

theorem handleState_clientCall (hstate : peer.state ≠ .resetReceived)
    (htype : p.getType = .state) (h : handleState env p peer = .ok o) :
    ClientCall p peer o := by
  rcases bind_eq_ok.mp h with ⟨counted, hcount, h⟩
  rcases countState_frame hcount with ⟨hframe, hwindow, -⟩
  split at h
  · rcases bind_eq_ok.mp h with ⟨lost, hlost, h⟩
    cases h
    refine ⟨fun k q hq => by rwa [← hwindow], ?_, ?_⟩
    · intro q hq
      rcases mem_emitted.mp hq with hq | hok
      · cases hq
      · cases hok
        rcases bind_eq_ok.mp hlost with ⟨seqNr, -, hlost⟩
        split at hlost
        · rename_i found hfound
          cases hlost
          rw [hwindow] at hfound
          exact ⟨seqNr, hfound⟩
        · cases hlost
    · show counted.state = _ <-> _
      rw [hframe.state]
      simp [hstate, htype]
  · cases h
    refine ⟨fun k q hq => by rwa [← hwindow], ?_, ?_⟩
    · intro q hq
      cases hq
    · show counted.state = _ <-> _
      rw [hframe.state]
      simp [hstate, htype]

theorem Handles.clientCall (h : Handles env p peer o) (hp : FromServer p) :
    ClientCall p peer o := by
  cases h with
  | newSyn _ htype => simp [FromServer, htype] at hp
  | unexpectedSyn _ htype => simp [FromServer, htype] at hp
  | data _ htype => simp [FromServer, htype] at hp
  | fin _ htype => simp [FromServer, htype] at hp
  | synAck hstate htype =>
      refine ⟨fun k q hq => erase_kept hq, ?_, ?_⟩
      · intro q hq
        cases hq
      · show SocketState.connected = .resetReceived <-> _
        simp [hstate, htype]
  | ack hstate htype h =>
      exact handleAck_clientCall (by rcases hstate with h | h <;> simp [h]) htype h
  | state hstate htype h =>
      exact handleState_clientCall (by simp [hstate]) htype h
  | reset htype =>
      refine ⟨fun k q hq => hq, ?_, ?_⟩
      · intro q hq
        cases hq
      · simp [handleReset, Outcome.quiet, htype]
  | other _ _ hreset =>
      refine ⟨fun k q hq => hq, ?_, ?_⟩
      · intro q hq
        cases hq
      · simp [handleOther, Outcome.quiet, hreset]

/-- The state of a server that has handled this many `Syn`s. -/
def serverState (syns : Nat) : SocketState :=
  if syns = 0 then .new else .connected

def countType (t : PacketType) (packets : List Packet) : Nat :=
  packets.countP fun p => p.getType = t

theorem countType_append (t : PacketType) (front back : List Packet) :
    countType t (front ++ back) = countType t front + countType t back :=
  List.countP_append

theorem countType_singleton (t : PacketType) (p : Packet) :
    countType t [p] = if p.getType = t then 1 else 0 := by
  simp [countType, List.countP_singleton]

theorem handlePacket_repeatedSyn (hstate : peer.state ≠ .new) (htype : p.getType = .syn) :
    handlePacket env p peer =
      .ok (Outcome.quiet peer
        (.ok (some (prepareReply env p .reset p.seqNr p.seqNr)))) := by
  unfold handlePacket
  rw [htype]
  cases h : peer.state with
  | new => exact absurd h hstate
  | _ => rfl

theorem Handles.serverCall {syns : Nat} (h : Handles env p peer o)
    (hp : FromClient p) (hstate : peer.state = serverState syns) :
    o.peer.state = serverState (syns + countType .syn [p]) ∧
      (forall q, q ∈ o.emitted -> FromServer q) ∧
      syns - 1 + countType .reset o.emitted = syns + countType .syn [p] - 1 := by
  unfold serverState at hstate ⊢
  rw [countType_singleton]
  cases h with
  | synAck _ htype => simp [FromClient, htype] at hp
  | ack _ htype => simp [FromClient, htype] at hp
  | state _ htype => simp [FromClient, htype] at hp
  | fin _ htype => simp [FromClient, htype] at hp
  | reset htype => simp [FromClient, htype] at hp
  | newSyn hnew htype =>
      have hfirst : syns = 0 := by
        by_contra hlater
        rw [if_neg hlater, hnew] at hstate
        cases hstate
      have hemitted : (handleNewSyn env p peer).emitted =
          [prepareReply env p .state p.seqNr p.seqNr] := rfl
      rw [hemitted, countType_singleton, getType_prepareReply, htype, hfirst]
      exact ⟨rfl, by simp [FromServer], rfl⟩
  | unexpectedSyn hold htype =>
      have hlater : syns ≠ 0 := by
        intro hfirst
        rw [if_pos hfirst] at hstate
        exact hold hstate
      have hemitted : (handleUnexpectedSyn env p peer).emitted =
          [prepareReply env p .reset p.seqNr p.seqNr] := rfl
      rw [hemitted, countType_singleton, getType_prepareReply, htype, if_pos rfl,
        if_pos rfl, if_neg (Nat.succ_ne_zero syns)]
      rw [if_neg hlater] at hstate
      exact ⟨hstate, by simp [FromServer], by omega⟩
  | data _ htype h =>
      rcases handleData_eq_ok h with ⟨sack, reply, haccept, hquiet, hreply⟩
      have hemitted : o.emitted = [reply] := by
        rw [hquiet]
        rfl
      rw [hemitted, countType_singleton, hreply.getType_eq, htype,
        if_neg (show ¬ PacketType.data = .syn by decide),
        if_neg (show ¬ PacketType.ack = .reset by decide),
        (acceptData_eq_ok haccept).state]
      exact ⟨hstate, by simp [FromServer, hreply.getType_eq], rfl⟩
  | other _ hsyn _ =>
      rw [if_neg hsyn]
      refine ⟨hstate, ?_, rfl⟩
      intro q hq
      cases hq

end Calls

/-!
## The system
-/

/-- The one-way system with two counters that no call reads. -/
structure Opening where
  wire : OneWay
  /-- How many `Syn`s the server has handled. -/
  syns : Nat
  /-- How many `Reset`s the client has handled. -/
  resets : Nat
  deriving DecidableEq

namespace Opening

/-- The client has called `connect`, and the server has created a peer state for
the first datagram it saw. -/
def initial (id senderId : UInt16) (addr : SocketAddr) (server : UtpSocketState) :
    Opening where
  wire :=
    { OneWay.initial (connectPeer id senderId addr) server with
      toServer := [synPacket id (.new senderId)] }
  syns := 0
  resets := 0

def handled (wire : OneWay) : OneWay.Action -> List Packet × List Packet
  | .deliverData _ index => (wire.toServer[index]?.toList, [])
  | .deliverAck _ index => ([], wire.toClient[index]?.toList)
  | _ => ([], [])

def step (limit : Nat) (s : Opening) (a : OneWay.Action) : Option Opening :=
  (s.wire.step limit a).map fun wire =>
    { wire := wire
      syns := s.syns + countType .syn (handled s.wire a).1
      resets := s.resets + countType .reset (handled s.wire a).2 }

/-- Each side sends what is its part, and the states follow the counters. -/
structure Roles (s : Opening) : Prop where
  toServer : forall p, p ∈ s.wire.toServer -> FromClient p
  toClient : forall p, p ∈ s.wire.toClient -> FromServer p
  window : forall (k : UInt16) p, s.wire.client.sentWindow[k]? = some p -> FromClient p
  server : s.wire.server.state = serverState s.syns
  client : s.wire.client.state = .resetReceived <-> s.resets ≠ 0

theorem roles_initial (id senderId : UInt16) (addr : SocketAddr) {server : UtpSocketState}
    (hserver : server.state = .new) : Roles (initial id senderId addr server) := by
  have hsyn : FromClient (synPacket id (.new senderId)) :=
    Or.inl (getType_synPacket ..)
  refine
    { toServer := ?_
      toClient := fun p hp => by cases hp
      window := ?_
      server := hserver
      client := by simp [initial, OneWay.initial, connectPeer, connectLocked] }
  · intro p hp
    cases List.mem_singleton.mp hp
    exact hsyn
  · intro k p hp
    have hentry : ((∅ : PacketMap).insert (synPacket id (.new senderId)).seqNr
        (synPacket id (.new senderId)))[k]? = some p := hp
    rw [getElem?_insert_eq] at hentry
    split at hentry
    · cases hentry
      exact hsyn
    · simp at hentry

variable {limit : Nat} {s s' : Opening}

theorem Roles.write (h : Roles s) (env : Env) (buf : List UInt8) (addr : SocketAddr) :
    Roles { s with wire := s.wire.write env buf addr } := by
  have hwindow : forall (k : UInt16) p,
      (sendPackets env buf addr s.wire.client).peer.sentWindow[k]? = some p ->
        FromClient p := by
    intro k p hp
    rcases sendPackets_window hp with hold | hdata
    · exact h.window k p hold
    · exact Or.inr hdata
  have hstate : (sendPackets env buf addr s.wire.client).peer.state =
      s.wire.client.state := by
    unfold sendPackets
    split
    · rfl
    · show (enqueue env.id buf s.wire.client).state = _
      rw [enqueue, foldl_enqueueChunk]
  refine { h with toServer := ?_, window := hwindow, client := ?_ }
  · intro p hp
    rcases List.mem_append.mp hp with hold | hsent
    · exact h.toServer p hold
    · rcases List.mem_map.mp hsent with ⟨d, hd, rfl⟩
      rcases sendPackets_mem hd with ⟨k, hk⟩
      exact hwindow k d.1 hk
  · exact hstate ▸ h.client

theorem Roles.deliverData (h : Roles s) {env : Env} {p : Packet} {o : Outcome}
    (hp : p ∈ s.wire.toServer) (ho : handlePacket env p s.wire.server = .ok o) :
    Roles { s with
      wire := s.wire.serverStep o
      syns := s.syns + countType .syn [p] } := by
  rcases (handlePacket_eq_ok ho).serverCall (h.toServer p hp) h.server with
    ⟨hstate, hemitted, -⟩
  refine { h with toClient := ?_, server := hstate }
  intro q hq
  rcases List.mem_append.mp hq with hold | hnew
  · exact h.toClient q hold
  · exact hemitted q hnew

theorem Roles.deliverAck (h : Roles s) {env : Env} {p : Packet} {o : Outcome}
    (hp : p ∈ s.wire.toClient) (ho : handlePacket env p s.wire.client = .ok o) :
    Roles { s with
      wire := s.wire.clientStep o
      resets := s.resets + countType .reset [p] } := by
  have hcall := (handlePacket_eq_ok ho).clientCall (h.toClient p hp)
  refine { h with toServer := ?_, window := ?_, client := ?_ }
  · intro q hq
    rcases List.mem_append.mp hq with hold | hnew
    · exact h.toServer q hold
    · rcases hcall.emitted q hnew with ⟨k, hk⟩
      exact h.window k q hk
  · intro k q hq
    exact h.window k q (hcall.window k q hq)
  · show o.peer.state = _ <-> _
    rw [hcall.state, h.client, countType_singleton]
    split <;> simp [*]

structure Invariant (s : Opening) : Prop extends Roles s where
  answered : countType .reset s.wire.toClient = s.syns - 1
  delivered : s.resets ≠ 0 -> countType .reset s.wire.toClient ≠ 0

theorem invariant_initial (id senderId : UInt16) (addr : SocketAddr)
    {server : UtpSocketState} (hserver : server.state = .new) :
    Invariant (initial id senderId addr server) where
  toRoles := roles_initial id senderId addr hserver
  answered := rfl
  delivered := fun h => absurd rfl h

theorem Invariant.deliverData (h : Invariant s) {env : Env} {p : Packet} {o : Outcome}
    (hp : p ∈ s.wire.toServer) (ho : handlePacket env p s.wire.server = .ok o) :
    Invariant { s with
      wire := s.wire.serverStep o
      syns := s.syns + countType .syn [p] } := by
  rcases (handlePacket_eq_ok ho).serverCall (h.toServer p hp) h.server with ⟨-, -, hcount⟩
  refine
    { toRoles := h.toRoles.deliverData hp ho
      answered := ?_
      delivered := ?_ }
  · show countType .reset (s.wire.toClient ++ o.emitted) = _
    rw [countType_append, h.answered, hcount]
  · intro hresets
    have hsome := h.delivered hresets
    show countType .reset (s.wire.toClient ++ o.emitted) ≠ 0
    rw [countType_append]
    omega

theorem Invariant.deliverAck (h : Invariant s) {env : Env} {p : Packet} {o : Outcome}
    (hp : p ∈ s.wire.toClient) (ho : handlePacket env p s.wire.client = .ok o) :
    Invariant { s with
      wire := s.wire.clientStep o
      resets := s.resets + countType .reset [p] } := by
  refine
    { toRoles := h.toRoles.deliverAck hp ho
      answered := h.answered
      delivered := ?_ }
  intro hresets
  have hcount := countType_singleton .reset p
  by_cases hreset : p.getType = .reset
  · have hpos : 0 < countType .reset s.wire.toClient :=
      List.countP_pos_iff.mpr ⟨p, hp, by simpa using hreset⟩
    exact Nat.pos_iff_ne_zero.mp hpos
  · rw [if_neg hreset] at hcount
    simp only [hcount, Nat.add_zero] at hresets
    exact h.delivered hresets

theorem invariant_step (h : Invariant s) {a : OneWay.Action}
    (hstep : step limit s a = some s') : Invariant s' := by
  rcases Option.map_eq_some_iff.mp hstep with ⟨wire, hwire, rfl⟩
  cases a with
  | write env buf addr =>
      rcases OneWay.of_step_write hwire with ⟨-, rfl⟩
      exact { h with toRoles := h.toRoles.write env buf addr }
  | deliverData env index =>
      rcases OneWay.of_step_deliverData hwire with ⟨p, o, hp, ho, rfl⟩
      simp only [handled, hp, Option.toList_some]
      exact h.deliverData (List.mem_of_getElem? hp) ho
  | deliverAck env index =>
      rcases OneWay.of_step_deliverAck hwire with ⟨p, o, hp, ho, rfl⟩
      simp only [handled, hp, Option.toList_some]
      exact h.deliverAck (List.mem_of_getElem? hp) ho
  | forward channel =>
      cases hwire
      exact { h with }

structure RepeatedSyns (s : Opening) : Prop where
  /-- A copy of the `Syn` behind the first one only makes the server answer. -/
  unchanged : s.syns ≠ 0 -> forall env p, p.getType = .syn ->
    handlePacket env p s.wire.server =
      .ok (Outcome.quiet s.wire.server
        (.ok (some (prepareReply env p .reset p.seqNr p.seqNr))))
  /-- There is one `Reset` for each `Syn` behind the first, and no other. -/
  answered : countType .reset s.wire.toClient = s.syns - 1
  server : s.wire.server.state ≠ .resetReceived
  /-- Only a delivered `Reset` resets the client. -/
  client : s.wire.client.state = .resetReceived <-> s.resets ≠ 0
  /-- While the server has handled one `Syn` at most, nothing is reset. -/
  once : s.syns <= 1 -> (forall p, p ∈ s.wire.toClient -> p.getType ≠ .reset) ∧
    s.wire.client.state ≠ .resetReceived

theorem Invariant.repeatedSyns (h : Invariant s) : RepeatedSyns s := by
  have hserver : s.syns ≠ 0 -> s.wire.server.state ≠ .new := by
    intro hsyns
    rw [h.server, serverState, if_neg hsyns]
    decide
  refine
    { unchanged := fun hsyns env p htype =>
        handlePacket_repeatedSyn (hserver hsyns) htype
      answered := h.answered
      server := ?_
      client := h.client
      once := ?_ }
  · rw [h.server, serverState]
    split <;> decide
  · intro honce
    have hnone : countType .reset s.wire.toClient = 0 := by
      rw [h.answered]
      omega
    constructor
    · intro p hp htype
      have hpos : 0 < countType .reset s.wire.toClient :=
        List.countP_pos_iff.mpr ⟨p, hp, by simpa using htype⟩
      omega
    · intro hreset
      exact h.delivered (h.client.mp hreset) hnone

/-- In every run, a repeated `Syn` leaves the server as it is and costs one
`Reset`, and only such a `Reset`, delivered, ends the connection of the client. -/
theorem repeatedSyns_of_run {id senderId : UInt16} {addr : SocketAddr}
    {server : UtpSocketState} {actions : List OneWay.Action}
    (hserver : server.state = .new)
    (hrun : run (step limit) (initial id senderId addr server) actions = some s) :
    RepeatedSyns s :=
  (run_invariant (fun _ _ _ h hstep => invariant_step h hstep)
    (invariant_initial id senderId addr hserver) hrun).repeatedSyns

def sample : Opening :=
  initial 7 3 (loopback 2) (newPeer (loopback 1) (synPacket 7 (.new 3)))

theorem repeatedSyns_of_run_twice :
    exists s, run (step 0) sample [.deliverData (healthyEnv 8) 0,
        .deliverData (healthyEnv 8) 0] = some s ∧
      s.wire.server.state = .connected ∧
      countType .reset s.wire.toClient = 1 := by
  have hruns : (run (step 0) sample [.deliverData (healthyEnv 8) 0,
      .deliverData (healthyEnv 8) 0]).map
        (fun s => (s.syns, s.wire.server.state)) = some (2, .connected) := by
    decide +kernel
  rcases Option.map_eq_some_iff.mp hruns with ⟨s, hrun, hfacts⟩
  rcases Prod.mk.inj hfacts with ⟨hsyns, hserver⟩
  have hanswered := (repeatedSyns_of_run rfl hrun).answered
  rw [hsyns] at hanswered
  exact ⟨s, hrun, hserver, hanswered⟩

/-- The server gets the `Syn` a second time, and its answer closes the open
connection of the client. -/
theorem second_syn_resets_client :
    exists opened closed,
      run (step 0) sample [.deliverData (healthyEnv 8) 0,
        .deliverAck (healthyEnv 7) 0] = some opened ∧
      run (step 0) opened [.deliverData (healthyEnv 8) 0,
        .deliverAck (healthyEnv 7) 1] = some closed ∧
      opened.wire.client.state = .connected ∧
      countType .reset closed.wire.toClient = 1 ∧
      closed.wire.client.state = .resetReceived := by
  have hruns : (run (step 0) sample [.deliverData (healthyEnv 8) 0,
      .deliverAck (healthyEnv 7) 0]).bind (fun opened =>
        (run (step 0) opened [.deliverData (healthyEnv 8) 0,
          .deliverAck (healthyEnv 7) 1]).map fun closed =>
            (opened.wire.client.state, countType .reset closed.wire.toClient,
              closed.wire.client.state)) =
      some (.connected, 1, .resetReceived) := by
    decide +kernel
  rcases Option.bind_eq_some_iff.mp hruns with ⟨opened, hopened, hclosing⟩
  rcases Option.map_eq_some_iff.mp hclosing with ⟨closed, hclosed, hfacts⟩
  rcases Prod.mk.inj hfacts with ⟨hconnected, hfacts⟩
  rcases Prod.mk.inj hfacts with ⟨hresets, hclient⟩
  exact ⟨opened, closed, hopened, hclosed, hconnected, hresets, hclient⟩

end Opening

end Utp
