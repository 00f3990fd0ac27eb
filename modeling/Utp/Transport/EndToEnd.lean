import Utp.Transport.Core
import Utp.Transport.Opening

/-!
# From `connect` to delivery

The one-way system from `connect` on, with a client that writes while it is
connected and at no other time, on a network that loses packets for good.  Once the
client is connected, the core of the system goes on whatever else is on the wires.
Until then everything hangs on the `Syn` and its answer, which nobody sends again.
-/

namespace Utp

open Foundation

namespace Opening

/-!
## A client that waits for the handshake
-/

/-- A step of a client that only writes while it is connected. -/
def patientStep (limit : Nat) (s : Opening) (a : OneWay.Action) : Option Opening :=
  match a with
  | .write .. => if s.wire.client.state = .connected then step limit s a else none
  | _ => step limit s a

section Patient

variable {limit : Nat} {s s' : Opening}

theorem step_of_patientStep {a : OneWay.Action} (h : patientStep limit s a = some s') :
    step limit s a = some s' := by
  unfold patientStep at h
  split at h
  · split at h
    · exact h
    · cases h
  · exact h

def lose (s : Opening) (l : OneWay.Loss) : Opening := { s with wire := s.wire.lose l }

abbrev lossyStep (limit : Nat) :
    Opening -> OneWay.Action ⊕ OneWay.Loss -> Option Opening :=
  lossy (patientStep limit) lose

inductive Moves (limit : Nat) (s : Opening) : Opening -> Prop where
  | write (env : Env) (buf : List UInt8) (addr : SocketAddr) :
      s.wire.client.state = .connected ->
      s.wire.created.length + (chunksOf buf).length <= limit ->
      Moves limit s { s with wire := s.wire.write env buf addr }
  | deliverData {env : Env} {p : Packet} {o : Outcome} :
      p ∈ s.wire.toServer -> handlePacket env p s.wire.server = .ok o ->
      Moves limit s
        { s with wire := s.wire.serverStep o, syns := s.syns + countType .syn [p] }
  | deliverAck {env : Env} {q : Packet} {o : Outcome} :
      q ∈ s.wire.toClient -> handlePacket env q s.wire.client = .ok o ->
      Moves limit s
        { s with wire := s.wire.clientStep o, resets := s.resets + countType .reset [q] }
  | forward (channel : Nat -> Except String Unit) :
      Moves limit s
        { s with
          wire := { s.wire with
            server := { s.wire.server with
              incomingBuffer := (Utp.forward channel
                s.wire.server.incomingBuffer []).2.1 } } }

theorem moves_of_patientStep {a : OneWay.Action} (h : patientStep limit s a = some s') :
    Moves limit s s' := by
  rcases Option.map_eq_some_iff.mp (step_of_patientStep h) with ⟨wire, hwire, rfl⟩
  cases a with
  | write env buf addr =>
      have hstate : s.wire.client.state = .connected := by
        by_contra hnot
        simp only [patientStep, if_neg hnot] at h
        cases h
      rcases OneWay.of_step_write hwire with ⟨hfit, rfl⟩
      exact .write env buf addr hstate hfit
  | deliverData env index =>
      rcases OneWay.of_step_deliverData hwire with ⟨p, o, hp, ho, rfl⟩
      simp only [handled, hp, Option.toList_some]
      exact .deliverData (List.mem_of_getElem? hp) ho
  | deliverAck env index =>
      rcases OneWay.of_step_deliverAck hwire with ⟨q, o, hq, ho, rfl⟩
      simp only [handled, hq, Option.toList_some]
      exact .deliverAck (List.mem_of_getElem? hq) ho
  | forward channel =>
      cases hwire
      exact .forward channel

theorem patientStep_write (hstate : s.wire.client.state = .connected) (env : Env)
    (buf : List UInt8) (addr : SocketAddr)
    (hfit : s.wire.created.length + (chunksOf buf).length <= limit) :
    patientStep limit s (.write env buf addr) =
      some { s with wire := s.wire.write env buf addr } := by
  simp only [patientStep, if_pos hstate, step, OneWay.step, if_pos hfit]
  rfl

theorem patientStep_deliverData {env : Env} {index : Nat} {p : Packet} {o : Outcome}
    (hp : s.wire.toServer[index]? = some p)
    (ho : handlePacket env p s.wire.server = .ok o) :
    patientStep limit s (.deliverData env index) =
      some { s with
        wire := s.wire.serverStep o
        syns := s.syns + countType .syn [p] } := by
  simp only [patientStep, step, OneWay.step, handled, hp, ho, Option.bind_some, bind,
    Except.toOption, pure, Option.toList_some]
  rfl

theorem patientStep_deliverAck {env : Env} {index : Nat} {q : Packet} {o : Outcome}
    (hq : s.wire.toClient[index]? = some q)
    (ho : handlePacket env q s.wire.client = .ok o) :
    patientStep limit s (.deliverAck env index) =
      some { s with
        wire := s.wire.clientStep o
        resets := s.resets + countType .reset [q] } := by
  simp only [patientStep, step, OneWay.step, handled, hq, ho, Option.bind_some, bind,
    Except.toOption, pure, Option.toList_some]
  rfl

end Patient

/-!
## The phases of a run
-/

/-- A client whose `Syn` is not answered yet. -/
structure Waiting (client : UtpSocketState) : Prop where
  state : client.state = .synSent
  seqNr : client.seqNr = 1
  window : client.sentWindow.erase 1 = ∅
  address : client.connectedTo ≠ none

theorem waiting_connectPeer (id senderId : UInt16) (addr : SocketAddr) :
    Waiting (connectPeer id senderId addr) where
  state := rfl
  seqNr := rfl
  window := by
    have hseqNr : (synPacket id (.new senderId)).seqNr = 1 := seqNr_synPacket ..
    refine Std.ExtTreeMap.ext_getElem? fun k => ?_
    show (((∅ : PacketMap).insert (synPacket id (.new senderId)).seqNr
      (synPacket id (.new senderId))).erase 1)[k]? = _
    rw [getElem?_erase_eq, getElem?_insert_eq, hseqNr]
    split <;> simp
  address := by simp [connectPeer, connectLocked]

/-- A server that has not seen the `Syn`, or has answered it. -/
inductive Answered (server : UtpSocketState) (toClient : List Packet) : Prop where
  | no : server.state = .new -> toClient = [] -> Answered server toClient
  | yes : server.state = .connected -> server.lastAcked = 1 -> Answered server toClient

/-- Nothing but the handshake has happened. -/
structure Greeting (s : Opening) : Prop where
  client : Waiting s.wire.client ∨ s.wire.client.state = .resetReceived
  server_seqNr : s.wire.server.seqNr = 1
  server_outOfOrder : s.wire.server.outOfOrder = ∅
  server_incomingBuffer : s.wire.server.incomingBuffer = []
  answered : Answered s.wire.server s.wire.toClient
  toServer : forall p, p ∈ s.wire.toServer -> p.getType = .syn
  toClient : forall q, q ∈ s.wire.toClient -> q.getType ≠ .ack
  created : s.wire.created = []
  written : s.wire.written = []
  pushed : s.wire.pushed = []

structure Marks (wire : OneWay) : Prop where
  syn : forall p, p ∈ wire.toServer -> p.getType = .syn -> p.seqNr = 1
  state : forall q, q ∈ wire.toClient -> q.getType = .state -> q.seqNr = 1 ∧ q.ackNr = 1

inductive Phase (limit : Nat) (s : Opening) : Prop where
  | greeting : Greeting s -> Phase limit s
  | moving : s.wire.client.state = .connected ∨ s.wire.client.state = .resetReceived ->
      OneWay.Working 1 limit s.wire.core -> Phase limit s

structure Progress (limit : Nat) (s : Opening) : Prop where
  roles : Roles s
  marks : Marks s.wire
  phase : Phase limit s

theorem progress_initial {limit : Nat} (id senderId : UInt16)
    (addr clientAddr : SocketAddr)
    (packet : Packet) : Progress limit
    (initial id senderId addr (newPeer clientAddr packet)) where
  roles := roles_initial id senderId addr rfl
  marks :=
    { syn := by
        intro p hp _
        cases List.mem_singleton.mp hp
        exact seqNr_synPacket ..
      state := by
        intro q hq
        cases hq }
  phase := by
    refine .greeting
      { client := Or.inl (waiting_connectPeer id senderId addr)
        server_seqNr := rfl
        server_outOfOrder := rfl
        server_incomingBuffer := rfl
        answered := .no rfl rfl
        toServer := ?_
        toClient := fun q hq => by cases hq
        created := rfl
        written := rfl
        pushed := rfl }
    intro p hp
    cases List.mem_singleton.mp hp
    exact getType_synPacket ..

section Steps

variable {limit : Nat} {s s' : Opening} {env : Env} {p q : Packet} {o : Outcome}

theorem stateReply_of_handles {server : UtpSocketState} (h : Handles env p server o)
    (hp : FromClient p) (hq : q ∈ o.emitted) (hstate : q.getType = .state) :
    server.state = .new ∧ p.getType = .syn ∧ q.seqNr = p.seqNr ∧ q.ackNr = p.seqNr := by
  cases h with
  | newSyn hnew htype =>
      cases List.mem_singleton.mp hq
      exact ⟨hnew, htype, seqNr_prepareReply .., ackNr_prepareReply ..⟩
  | unexpectedSyn _ htype =>
      cases List.mem_singleton.mp hq
      rw [getType_prepareReply] at hstate
      cases hstate
  | data _ _ h =>
      rcases handleData_eq_ok h with ⟨sack, reply, -, hquiet, hreply⟩
      rw [hquiet] at hq
      cases List.mem_singleton.mp hq
      rw [hreply.getType_eq] at hstate
      cases hstate
  | synAck _ htype => simp [FromClient, htype] at hp
  | ack _ htype => simp [FromClient, htype] at hp
  | state _ htype => simp [FromClient, htype] at hp
  | fin _ htype => simp [FromClient, htype] at hp
  | reset htype => simp [FromClient, htype] at hp
  | other => cases hq

theorem Marks.serverStep (h : Marks s.wire) (hp : p ∈ s.wire.toServer)
    (hhandles : Handles env p s.wire.server o) (hfrom : FromClient p) :
    Marks (s.wire.serverStep o) where
  syn := h.syn
  state := by
    intro q hq htype
    rcases List.mem_append.mp hq with hold | hnew
    · exact h.state q hold htype
    · rcases stateReply_of_handles hhandles hfrom hnew htype with ⟨-, hsyn, hseq, hack⟩
      have hone := h.syn p hp hsyn
      exact ⟨hseq.trans hone, hack.trans hone⟩

theorem Marks.extend (h : Marks s.wire) {wire : OneWay} {new : List Packet}
    (htoServer : wire.toServer = s.wire.toServer ++ new)
    (htoClient : wire.toClient = s.wire.toClient)
    (hnew : forall p, p ∈ new -> p.getType = .data) : Marks wire where
  syn := by
    intro p hp htype
    rw [htoServer] at hp
    rcases List.mem_append.mp hp with hold | hnew'
    · exact h.syn p hold htype
    · rw [hnew p hnew'] at htype
      cases htype
  state := by
    rw [htoClient]
    exact h.state

theorem Greeting.answer (h : Greeting s) (syns : Nat) (hseqNr : o.peer.seqNr = 1)
    (hstored : o.peer.outOfOrder = ∅) (hbuffer : o.peer.incomingBuffer = [])
    (hack : forall q, q ∈ o.emitted -> q.getType ≠ .ack)
    (hanswered : Answered o.peer (s.wire.toClient ++ o.emitted)) :
    Greeting { s with wire := s.wire.serverStep o, syns := syns } :=
  { h with
    server_seqNr := hseqNr
    server_outOfOrder := hstored
    server_incomingBuffer := hbuffer
    answered := hanswered
    toClient := by
      intro q hq
      exact (List.mem_append.mp hq).elim (h.toClient q) (hack q)
    pushed := by
      show s.wire.pushed ++ o.peer.incomingBuffer.drop _ = []
      rw [hbuffer, h.pushed, List.drop_nil, List.append_nil] }

theorem Greeting.serverStep (h : Greeting s) (hmarks : Marks s.wire)
    (hp : p ∈ s.wire.toServer) (hhandles : Handles env p s.wire.server o) :
    Greeting { s with
      wire := s.wire.serverStep o
      syns := s.syns + countType .syn [p] } := by
  have hsyn := h.toServer p hp
  have hone := hmarks.syn p hp hsyn
  cases hhandles with
  | newSyn hnew _ =>
      refine h.answer _ h.server_seqNr h.server_outOfOrder h.server_incomingBuffer ?_ ?_
      · intro q hq
        cases List.mem_singleton.mp hq
        rw [getType_prepareReply]
        decide
      · exact .yes rfl hone
  | unexpectedSyn hold _ =>
      refine h.answer _ h.server_seqNr h.server_outOfOrder h.server_incomingBuffer ?_ ?_
      · intro q hq
        cases List.mem_singleton.mp hq
        rw [getType_prepareReply]
        decide
      · rcases h.answered with ⟨hnew, -⟩ | ⟨hstate, hlast⟩
        · exact absurd hnew hold
        · exact .yes hstate hlast
  | synAck _ htype => simp [hsyn] at htype
  | ack _ htype => simp [hsyn] at htype
  | data _ htype => simp [hsyn] at htype
  | state _ htype => simp [hsyn] at htype
  | fin _ htype => simp [hsyn] at htype
  | reset htype => simp [hsyn] at htype
  | other _ hnot => exact absurd hsyn hnot

theorem Greeting.opened (h : Greeting s) (hmarks : Marks s.wire)
    (hq : q ∈ s.wire.toClient)
    (htype : q.getType = .state) (hwaiting : Waiting s.wire.client) :
    OneWay.Working 1 limit
      (s.wire.clientStep (handleSynAck env q s.wire.client)).core := by
  rcases hmarks.state q hq htype with ⟨hseqNr, hackNr⟩
  have hserver : s.wire.server.state = .connected ∧ s.wire.server.lastAcked = 1 := by
    rcases h.answered with ⟨-, hnone⟩ | ⟨hstate, hlast⟩
    · rw [hnone] at hq
      cases hq
    · exact ⟨hstate, hlast⟩
  have hstarted : OneWay.Started 1
    (handleSynAck env q s.wire.client).peer s.wire.server :=
    { client_state := rfl
      client_lastAcked := congrArg UInt16.toNat hackNr
      client_seqNr := by
        show (s.wire.client.seqNr + 1).toNat = _
        rw [hwaiting.seqNr]
        rfl
      client_sentWindow := by
        show s.wire.client.sentWindow.erase q.seqNr = ∅
        rw [hseqNr]
        exact hwaiting.window
      server_state := hserver.1
      server_lastAcked := congrArg UInt16.toNat hserver.2
      server_outOfOrder := h.server_outOfOrder
      server_incomingBuffer := h.server_incomingBuffer
      server_seqNr := h.server_seqNr
      client_address := hwaiting.address }
  have hcore : (s.wire.clientStep (handleSynAck env q s.wire.client)).core =
      OneWay.initial (handleSynAck env q s.wire.client).peer s.wire.server := by
    have htoServer : OneWay.ofType .data s.wire.toServer = [] := by
      refine OneWay.ofType_eq_nil fun p hp hdata => ?_
      rw [h.toServer p hp] at hdata
      cases hdata
    have htoClient := OneWay.ofType_eq_nil h.toClient
    rw [OneWay.core_clientStep_quiet rfl]
    simp only [OneWay.core, OneWay.initial, htoServer, htoClient, h.created, h.written,
      h.pushed]
    rfl
  rw [hcore]
  exact OneWay.working_initial hstarted

theorem working_clientStep (hworking : OneWay.Working 1 limit s.wire.core)
    (hstate : s.wire.client.state = .connected) (hmarks : Marks s.wire)
    (hq : q ∈ s.wire.toClient) (hfrom : FromServer q)
    (ho : handlePacket env q s.wire.client = .ok o) :
    (o.peer.state = .connected ∨ o.peer.state = .resetReceived) ∧
      (forall p, p ∈ o.emitted -> p.getType = .data) ∧
      OneWay.Working 1 limit (s.wire.clientStep o).core := by
  have hclient := OneWay.core_client hstate
  have ho' := ho
  rw [← hclient] at ho'
  rcases hfrom with htype | htype | htype
  · have hack := (hmarks.state q hq htype).2
    rcases hworking.handleState htype (congrArg UInt16.toNat hack) ho' with
      ⟨hquiet, hkept, hlowered⟩
    refine ⟨Or.inl hkept, fun p hp => ?_, ?_⟩
    · rw [hquiet] at hp
      cases hp
    · rw [OneWay.core_clientStep_quiet hquiet, OneWay.setState_self hkept]
      exact hlowered
  · have hmem := OneWay.mem_ofType.mpr ⟨hq, htype⟩
    rcases hworking.deliverAck_core hstate hmem ho with ⟨hkept, hdata, hcore⟩
    refine ⟨Or.inl hkept, hdata, ?_⟩
    rw [hcore]
    exact hworking.deliverAck hmem ho'
  · rw [handlePacket_reset htype] at ho
    cases ho
    refine ⟨Or.inr rfl, ?_, ?_⟩
    · intro p hp
      cases hp
    · rw [OneWay.core_clientStep_quiet rfl]
      exact hworking

theorem quiet_of_reset (hstate : s.wire.client.state = .resetReceived)
    (hfrom : FromServer q)
    (hhandles : Handles env q s.wire.client o) :
    o.emitted = [] ∧ o.peer = s.wire.client := by
  cases hhandles with
  | newSyn hnew => simp [hstate] at hnew
  | unexpectedSyn _ htype => simp [FromServer, htype] at hfrom
  | synAck hsent => simp [hstate] at hsent
  | ack hopen => simp [hstate] at hopen
  | data hopen => simp [hstate] at hopen
  | state hopen => simp [hstate] at hopen
  | fin hopen => simp [hstate] at hopen
  | reset => exact ⟨rfl, OneWay.setState_self hstate⟩
  | other => exact ⟨rfl, rfl⟩

theorem Greeting.keep (h : Greeting s) (hquiet : o.emitted = [])
    (hclient : Waiting o.peer ∨ o.peer.state = .resetReceived) (resets : Nat) :
    Greeting { s with wire := s.wire.clientStep o, resets := resets } := by
  have hwire : (s.wire.clientStep o).toServer = s.wire.toServer := by
    show s.wire.toServer ++ o.emitted = _
    rw [hquiet, List.append_nil]
  exact
    { h with
      client := hclient
      toServer := by
        rw [hwire]
        exact h.toServer }

theorem Greeting.clientStep (h : Greeting s) (hmarks : Marks s.wire)
    (hq : q ∈ s.wire.toClient) (hfrom : FromServer q)
    (hhandles : Handles env q s.wire.client o) (resets : Nat) :
    o.emitted = [] ∧
      Phase limit { s with wire := s.wire.clientStep o, resets := resets } := by
  rcases h.client with hwaiting | hreset
  · have hsent := hwaiting.state
    cases hhandles with
    | synAck _ htype =>
        exact ⟨rfl, .moving (Or.inl rfl) (h.opened hmarks hq htype hwaiting)⟩
    | reset => exact ⟨rfl, .greeting (h.keep rfl (Or.inr rfl) resets)⟩
    | other => exact ⟨rfl, .greeting (h.keep rfl (Or.inl hwaiting) resets)⟩
    | newSyn hnew => simp [hsent] at hnew
    | unexpectedSyn _ htype => simp [FromServer, htype] at hfrom
    | ack hopen => simp [hsent] at hopen
    | data hopen => simp [hsent] at hopen
    | state hopen => simp [hsent] at hopen
    | fin hopen => simp [hsent] at hopen
  · rcases quiet_of_reset hreset hfrom hhandles with ⟨hquiet, hkept⟩
    refine ⟨hquiet, .greeting (h.keep hquiet (Or.inr ?_) resets)⟩
    rw [hkept]
    exact hreset

theorem Progress.deliverAck (h : Progress limit s) (hq : q ∈ s.wire.toClient)
    (ho : handlePacket env q s.wire.client = .ok o) :
    Progress limit { s with
      wire := s.wire.clientStep o
      resets := s.resets + countType .reset [q] } := by
  have hfrom := h.roles.toClient q hq
  have hhandles := handlePacket_eq_ok ho
  have hall : (forall p, p ∈ o.emitted -> p.getType = .data) ∧
      Phase limit { s with
        wire := s.wire.clientStep o
        resets := s.resets + countType .reset [q] } := by
    cases h.phase with
    | greeting hgreeting =>
        rcases hgreeting.clientStep h.marks hq hfrom hhandles _ with ⟨hquiet, hphase⟩
        rw [hquiet]
        exact ⟨by simp, hphase⟩
    | moving hstate hworking =>
        rcases hstate with hconnected | hreset
        · rcases working_clientStep hworking hconnected h.marks hq hfrom ho with
            ⟨hkept, hdata, hmoved⟩
          exact ⟨hdata, .moving hkept hmoved⟩
        · rcases quiet_of_reset hreset hfrom hhandles with ⟨hquiet, hpeer⟩
          rw [hquiet]
          refine ⟨by simp, .moving (Or.inr ?_) ?_⟩
          · show o.peer.state = _
            rw [hpeer]
            exact hreset
          · show OneWay.Working 1 limit (s.wire.clientStep o).core
            rw [OneWay.core_clientStep_quiet hquiet, hpeer]
            exact hworking
  exact
    { roles := h.roles.deliverAck hq ho
      marks := h.marks.extend rfl rfl hall.1
      phase := hall.2 }

theorem working_serverStep (hworking : OneWay.Working 1 limit s.wire.core)
    (hp : p ∈ s.wire.toServer) (hfrom : FromClient p)
    (ho : handlePacket env p s.wire.server = .ok o) :
    OneWay.Working 1 limit (s.wire.serverStep o).core := by
  rcases hfrom with htype | htype
  · have hstate := hworking.numbers.server_state
    have hold : s.wire.server.state ≠ .new := by
      intro hnew
      have hconnected : s.wire.server.state = .connected := hstate
      rw [hnew] at hconnected
      cases hconnected
    rw [handlePacket_repeatedSyn hold htype] at ho
    cases ho
    rw [OneWay.core_serverStep_eq_self rfl]
    · exact hworking
    · intro q hq
      cases List.mem_singleton.mp hq
      rw [getType_prepareReply]
      decide
  · have hmem := OneWay.mem_ofType.mpr ⟨hp, htype⟩
    rw [hworking.deliverData_core hmem ho]
    exact hworking.deliverData hmem ho

theorem Progress.deliverData (h : Progress limit s) (hp : p ∈ s.wire.toServer)
    (ho : handlePacket env p s.wire.server = .ok o) :
    Progress limit
      { s with wire := s.wire.serverStep o, syns := s.syns + countType .syn [p] } where
  roles := h.roles.deliverData hp ho
  marks := h.marks.serverStep hp (handlePacket_eq_ok ho) (h.roles.toServer p hp)
  phase := by
    cases h.phase with
    | greeting hgreeting =>
        exact .greeting (hgreeting.serverStep h.marks hp (handlePacket_eq_ok ho))
    | moving hstate hworking =>
        exact .moving hstate (working_serverStep hworking hp (h.roles.toServer p hp) ho)

theorem Progress.write (h : Progress limit s) (hlimit : limit + 32 <= 65535)
    (hstate : s.wire.client.state = .connected) (env : Env) (buf : List UInt8)
    (addr : SocketAddr) (hfit : s.wire.created.length + (chunksOf buf).length <= limit) :
    Progress limit { s with wire := s.wire.write env buf addr } := by
  cases h.phase with
  | greeting hgreeting =>
      exfalso
      rcases hgreeting.client with hwaiting | hreset
      · rw [hwaiting.state] at hstate
        cases hstate
      · rw [hreset] at hstate
        cases hstate
  | moving _ hworking =>
      rcases hworking.write_core (by omega) hstate env buf addr hfit with ⟨hdata, hcore⟩
      refine
        { roles := h.roles.write env buf addr
          marks := h.marks.extend rfl rfl ?_
          phase := .moving (Or.inl (OneWay.state_write hstate buf addr)) ?_ }
      · intro p hp
        rcases List.mem_map.mp hp with ⟨d, hd, rfl⟩
        exact hdata d hd
      · show OneWay.Working 1 limit (s.wire.write env buf addr).core
        rw [hcore]
        exact hworking.write (by omega) buf addr hfit

theorem Progress.forward (h : Progress limit s) (hlimit : limit + 32 <= 65535)
    (channel : Nat -> Except String Unit) :
    Progress limit
      { s with
        wire := { s.wire with
          server := { s.wire.server with
            incomingBuffer := (Utp.forward channel
              s.wire.server.incomingBuffer []).2.1 } } } where
  roles := { h.roles with }
  marks := { h.marks with }
  phase := by
    cases h.phase with
    | greeting hgreeting =>
        have hnone : (Utp.forward channel s.wire.server.incomingBuffer []).2.1 = [] := by
          rw [hgreeting.server_incomingBuffer]
          rfl
        refine .greeting { hgreeting with server_incomingBuffer := hnone, answered := ?_ }
        rcases hgreeting.answered with ⟨hnew, hempty⟩ | ⟨hstate, hlast⟩
        · exact .no hnew hempty
        · exact .yes hstate hlast
    | moving hstate hworking =>
        exact .moving hstate
          (OneWay.working_step (a := .forward channel) (by omega) hworking rfl)

theorem Progress.lose (h : Progress limit s) (l : OneWay.Loss) :
    Progress limit (s.lose l) := by
  rcases s.wire.lose_eq l with ⟨toServer, toClient, heq, hserver, hclient⟩
  unfold Opening.lose
  rw [heq]
  refine
    { roles :=
        { h.roles with
          toServer := fun p hp => h.roles.toServer p (hserver hp)
          toClient := fun q hq => h.roles.toClient q (hclient hq) }
      marks :=
        { syn := fun p hp => h.marks.syn p (hserver hp)
          state := fun q hq => h.marks.state q (hclient hq) }
      phase := ?_ }
  cases h.phase with
  | greeting hgreeting =>
      refine .greeting
        { hgreeting with
          answered := ?_
          toServer := fun p hp => hgreeting.toServer p (hserver hp)
          toClient := fun q hq => hgreeting.toClient q (hclient hq) }
      rcases hgreeting.answered with ⟨hnew, hempty⟩ | ⟨hstate, hlast⟩
      · rw [hempty] at hclient
        exact .no hnew (List.subset_nil.mp hclient)
      · exact .yes hstate hlast
  | moving hstate hworking =>
      exact .moving hstate
        (hworking.thinned (List.filter_subset _ hserver) (List.filter_subset _ hclient))

theorem progress_step (hlimit : limit + 32 <= 65535) (h : Progress limit s)
    {a : OneWay.Action} (hstep : patientStep limit s a = some s') :
    Progress limit s' := by
  cases moves_of_patientStep hstep with
  | write env buf addr hstate hfit => exact h.write hlimit hstate env buf addr hfit
  | deliverData hp ho => exact h.deliverData hp ho
  | deliverAck hq ho => exact h.deliverAck hq ho
  | forward channel => exact h.forward hlimit channel

end Steps

/-!
## Everything from `connect` on
-/

section Runs

variable {limit : Nat} {s : Opening} {q : Packet}

/-- What the server has delivered is a front of what was written, and nothing
leaves the window of the client before the server has it. -/
structure Delivers (wire : OneWay) : Prop where
  inOrder : exists payloads, wire.pushed.mapM Packet.payload = .ok payloads ∧
    payloads.flatten <+: wire.written.flatten
  kept : forall p, p ∈ wire.created ->
    wire.client.sentWindow[p.seqNr]? = some p ∨ p ∈ wire.pushed ∨
      wire.server.outOfOrder[p.seqNr]? = some p

theorem Progress.delivers (h : Progress limit s) : Delivers s.wire := by
  cases h.phase with
  | greeting hgreeting =>
      refine { inOrder := ⟨[], ?_, ?_⟩, kept := ?_ }
      · rw [hgreeting.pushed]
        rfl
      · simp
      · rw [hgreeting.created]
        simp
  | moving _ hworking =>
      rcases hworking.refines with ⟨c, hc⟩
      exact { inOrder := hc.pushed_payloads, kept := fun p hp => hc.not_lost hp }

theorem Progress.working (h : Progress limit s)
    (hconnected : s.wire.client.state = .connected) :
    OneWay.Working 1 limit s.wire.core := by
  cases h.phase with
  | greeting hgreeting =>
      exfalso
      rcases hgreeting.client with hwaiting | hreset
      · rw [hwaiting.state] at hconnected
        cases hconnected
      · rw [hreset] at hconnected
        cases hconnected
  | moving _ hworking => exact hworking

structure Carries (limit : Nat) (wire : OneWay) (s : Opening) : Prop where
  progress : Progress limit s
  connected : s.wire.client.state = .connected
  core : s.wire.core = wire

theorem Carries.step (hlimit : limit + 32 <= 65535) {wire wire' : OneWay}
    (h : Carries limit wire s) {a : OneWay.Action}
    (hstep : OneWay.step limit wire a = some wire') :
    exists b s', patientStep limit s b = some s' ∧ Carries limit wire' s' := by
  have hstate := h.connected
  have hworking := h.progress.working hstate
  have hcore := h.core
  subst hcore
  cases a with
  | write env buf addr =>
      rcases OneWay.of_step_write hstep with ⟨hfit, rfl⟩
      have hnext := patientStep_write hstate env buf addr hfit
      exact ⟨_, _, hnext, progress_step hlimit h.progress hnext,
        OneWay.state_write hstate buf addr,
        (hworking.write_core (by omega) hstate env buf addr hfit).2⟩
  | deliverData env index =>
      rcases OneWay.of_step_deliverData hstep with ⟨p, o, hp, ho, rfl⟩
      have hmem := List.mem_of_getElem? hp
      rcases List.mem_iff_getElem?.mp (OneWay.mem_ofType.mp hmem).1 with ⟨index', hindex⟩
      have hnext : patientStep limit s (.deliverData env index') = _ :=
        patientStep_deliverData hindex ho
      exact ⟨_, _, hnext, progress_step hlimit h.progress hnext, hstate,
        hworking.deliverData_core hmem ho⟩
  | deliverAck env index =>
      rcases OneWay.of_step_deliverAck hstep with ⟨q, o, hq, ho, rfl⟩
      have hmem := List.mem_of_getElem? hq
      rcases List.mem_iff_getElem?.mp (OneWay.mem_ofType.mp hmem).1 with ⟨index', hindex⟩
      rw [OneWay.core_client hstate] at ho
      have hnext : patientStep limit s (.deliverAck env index') = _ :=
        patientStep_deliverAck hindex ho
      rcases hworking.deliverAck_core hstate hmem ho with ⟨hkept, -, hcore⟩
      exact ⟨_, _, hnext, progress_step hlimit h.progress hnext, hkept, hcore⟩
  | forward channel =>
      cases hstep
      have hnext : patientStep limit s (.forward channel) = some _ := rfl
      exact ⟨_, _, hnext, progress_step hlimit h.progress hnext, hstate, rfl⟩

theorem Progress.openable (h : Progress limit s) (hlimit : limit + 32 <= 65535)
    (hwaiting : Waiting s.wire.client) (hq : q ∈ s.wire.toClient)
    (htype : q.getType = .state) :
    Possible (patientStep limit) (fun t => Progress limit t ∧
      t.wire.client.state = .connected ∧ t.wire.created = s.wire.created) s := by
  rcases List.mem_iff_getElem?.mp hq with ⟨index, hindex⟩
  have hnext : patientStep limit s (.deliverAck (healthyEnv 7) index) = _ :=
    patientStep_deliverAck hindex (handlePacket_synAck hwaiting.state htype)
  exact .after hnext (.here ⟨progress_step hlimit h hnext, rfl, rfl⟩)

/-- The connection is open, or what opens it is on its way: the answer to the `Syn`, or the
`Syn` to a server that has not seen it.  Neither of them is ever sent again. -/
def Openable (s : Opening) : Prop :=
  s.wire.client.state = .connected ∨
    s.wire.client.state = .synSent ∧
      ((exists q, q ∈ s.wire.toClient ∧ q.getType = .state) ∨
        s.wire.server.state = .new ∧ exists p, p ∈ s.wire.toServer ∧ p.getType = .syn)

theorem Progress.connectable (h : Progress limit s) (hlimit : limit + 32 <= 65535)
    (hopenable : Openable s) :
    Possible (patientStep limit) (fun t => Progress limit t ∧
      t.wire.client.state = .connected ∧ t.wire.created = s.wire.created) s := by
  rcases hopenable with hconnected | ⟨hsent, hcoming⟩
  · exact .here ⟨h, hconnected, rfl⟩
  have hwaiting : Waiting s.wire.client := by
    cases h.phase with
    | greeting hgreeting =>
        refine hgreeting.client.resolve_right fun hreset => ?_
        rw [hreset] at hsent
        cases hsent
    | moving hstate _ =>
        rw [hsent] at hstate
        rcases hstate with hstate | hstate <;> cases hstate
  rcases hcoming with ⟨q, hq, htype⟩ | ⟨hnew, p, hp, hsyn⟩
  · exact h.openable hlimit hwaiting hq htype
  · have ho : handlePacket (healthyEnv 8) p s.wire.server =
        .ok (handleNewSyn (healthyEnv 8) p s.wire.server) := handlePacket_newSyn hnew hsyn
    rcases List.mem_iff_getElem?.mp hp with ⟨index, hindex⟩
    have hnext : patientStep limit s (.deliverData (healthyEnv 8) index) = _ :=
      patientStep_deliverData hindex ho
    have hreply : prepareReply (healthyEnv 8) p .state p.seqNr p.seqNr ∈
        s.wire.toClient ++ (handleNewSyn (healthyEnv 8) p s.wire.server).emitted :=
      List.mem_append_right _ (List.mem_singleton.mpr rfl)
    exact .after hnext ((progress_step hlimit h hnext).openable hlimit hwaiting hreply
      (getType_prepareReply ..))

/-!
## A connection that stays shut
-/

theorem clientState_of_handles {client : UtpSocketState} (h : Handles env q client o)
    (hfrom : FromServer q) :
    (o.peer.state = .connected ->
      client.state = .connected ∨ client.state = .synSent ∧ q.getType = .state) ∧
    (o.peer.state = .synSent -> client.state = .synSent ∧ o.emitted = []) := by
  cases h with
  | synAck hsent htype => exact ⟨fun _ => Or.inr ⟨hsent, htype⟩, nofun⟩
  | ack hopen _ ho =>
      rw [(handleAck_frame ho).1.state]
      refine ⟨Or.inl, fun hsent => ?_⟩
      simp [hsent] at hopen
  | state hopen _ ho =>
      rw [(handleState_frame ho).1.state]
      refine ⟨Or.inl, fun hsent => ?_⟩
      simp [hsent] at hopen
  | reset => exact ⟨nofun, nofun⟩
  | other => exact ⟨Or.inl, fun hsent => ⟨hsent, rfl⟩⟩
  | newSyn _ htype => simp [FromServer, htype] at hfrom
  | unexpectedSyn _ htype => simp [FromServer, htype] at hfrom
  | data _ htype => simp [FromServer, htype] at hfrom
  | fin _ htype => simp [FromServer, htype] at hfrom

theorem new_of_serverState {syns more : Nat} (h : serverState (syns + more) = .new) :
    serverState syns = .new := by
  unfold serverState at h ⊢
  split at h
  · rw [if_pos (by omega)]
  · cases h

theorem Roles.openable_of_moves {s' : Opening} (h : Roles s) (hmoves : Moves limit s s')
    (hopenable : Openable s') : Openable s := by
  cases hmoves with
  | write env buf addr hconnected => exact Or.inl hconnected
  | @deliverData env p o hp ho =>
      have hhandles := handlePacket_eq_ok ho
      rcases hopenable with hconnected | ⟨hsent, ⟨q, hq, htype⟩ | ⟨hnew, hasked⟩⟩
      · exact Or.inl hconnected
      · rcases List.mem_append.mp hq with hq | hq
        · exact Or.inr ⟨hsent, Or.inl ⟨q, hq, htype⟩⟩
        · rcases stateReply_of_handles hhandles (h.toServer p hp) hq htype with
            ⟨hnew, hsyn, -⟩
          exact Or.inr ⟨hsent, Or.inr ⟨hnew, p, hp, hsyn⟩⟩
      · have hserver := (h.deliverData hp ho).server
        have hnone := new_of_serverState (hserver.symm.trans hnew)
        exact Or.inr ⟨hsent, Or.inr ⟨h.server.trans hnone, hasked⟩⟩
  | @deliverAck env q o hq ho =>
      have hhandles := handlePacket_eq_ok ho
      have hclient := clientState_of_handles hhandles (h.toClient q hq)
      rcases hopenable with hconnected | ⟨hsent, hcoming⟩
      · exact (hclient.1 hconnected).imp_right fun hanswered =>
          ⟨hanswered.1, Or.inl ⟨q, hq, hanswered.2⟩⟩
      · rcases hclient.2 hsent with ⟨hbefore, hquiet⟩
        simp only [OneWay.clientStep, hquiet, List.append_nil] at hcoming
        exact Or.inr ⟨hbefore, hcoming⟩
  | forward channel => exact hopenable

theorem openable_of_lose {l : OneWay.Loss} (h : Openable (s.lose l)) : Openable s := by
  rcases s.wire.lose_eq l with ⟨toServer, toClient, heq, hserver, hclient⟩
  unfold Opening.lose at h
  rw [heq] at h
  rcases h with hconnected | ⟨hsent, ⟨q, hq, htype⟩ | ⟨hnew, p, hp, hsyn⟩⟩
  · exact Or.inl hconnected
  · exact Or.inr ⟨hsent, Or.inl ⟨q, hclient hq, htype⟩⟩
  · exact Or.inr ⟨hsent, Or.inr ⟨hnew, p, hserver hp, hsyn⟩⟩

theorem Progress.openable_of_possible (h : Progress limit s)
    (hlimit : limit + 32 <= 65535)
    {goal : Opening -> Prop} (hgoal : forall t, goal t ->
      t.wire.client.state = .connected)
    (hpossible : Possible (lossyStep limit) goal s) : Openable s := by
  by_contra hshut
  refine not_possible_of_trap (fun t => Progress limit t ∧ ¬ Openable t)
    (lossy_preserves ?_ ?_) ?_ ⟨h, hshut⟩ hpossible
  · intro t a t' ht hstep
    exact ⟨progress_step hlimit ht.1 hstep,
      fun hopenable => ht.2
        (ht.1.roles.openable_of_moves (moves_of_patientStep hstep) hopenable)⟩
  · intro t l ht
    exact ⟨ht.1.lose l, fun hopenable => ht.2 (openable_of_lose hopenable)⟩
  · intro t ht hreached
    exact ht.2 (Or.inl (hgoal t hreached))

theorem Progress.deliverable (h : Progress limit s) (hlimit : limit + 32 <= 65535)
    (hconnected : s.wire.client.state = .connected) :
    Possible (patientStep limit) (fun t => t.wire.client.state = .connected ∧
      t.wire.created = s.wire.created ∧ t.wire.pushed = s.wire.created) s := by
  have hpossible := (h.working hconnected).deliverable (by omega)
  have hcarries : Carries limit s.wire.core s := ⟨h, hconnected, rfl⟩
  refine (hpossible.simulated (fun _ _ _ _ h hstep =>
    h.step hlimit hstep) hcarries).mono ?_
  intro t ht
  rcases ht with ⟨wire, ht, hcreated, hdelivered⟩
  have hcore := ht.core
  subst hcore
  exact ⟨ht.connected, hcreated, hdelivered⟩

end Runs

/-- In every run from `connect` on, whatever is lost, the server delivers in order and
nothing is dropped that it does not have; and the connection can still be opened, and all
that has been written be delivered, exactly while the handshake has not lost what nobody
sends again. -/
theorem delivers_of_run {id senderId : UInt16} {addr clientAddr : SocketAddr}
    {packet : Packet} {limit : Nat} {s : Opening}
    {actions : List (OneWay.Action ⊕ OneWay.Loss)}
    (hlimit : limit + 32 <= 65535)
    (hrun : run (lossyStep limit)
      (initial id senderId addr (newPeer clientAddr packet)) actions = some s) :
    Delivers s.wire ∧
      (Possible (lossyStep limit) (fun t =>
        t.wire.client.state = .connected ∧ t.wire.created = s.wire.created ∧
          t.wire.pushed = s.wire.created) s <-> Openable s) := by
  have hprogress : Progress limit s :=
    run_invariant
      (lossy_preserves (fun _ _ _ h hstep => progress_step hlimit h hstep)
        fun _ l h => h.lose l)
      (progress_initial id senderId addr clientAddr packet) hrun
  refine ⟨hprogress.delivers, ?_, ?_⟩
  · exact hprogress.openable_of_possible hlimit fun t ht => ht.1
  · intro hopenable
    refine ((hprogress.connectable hlimit hopenable).trans fun t ht => ?_).lossy
    rcases ht with ⟨ht, hconnected, hcreated⟩
    refine (ht.deliverable hlimit hconnected).mono fun u hu => ?_
    rw [← hcreated]
    exact hu

def connecting : Opening :=
  initial 7 3 (loopback 2) (newPeer (loopback 1) (synPacket 7 (.new 3)))

/-- The answer to the `Syn` arrives twice, and what is written then is lost for good, and
can be delivered all the same; but when the `Syn` itself is lost, nothing opens the
connection any more. -/
theorem delivers_of_run_late :
    (exists s, run (lossyStep 60000) connecting
        [.inl (.deliverData (healthyEnv 8) 0), .inl (.deliverAck (healthyEnv 7) 0),
          .inl (.deliverAck (healthyEnv 7) 0),
          .inl (.write (healthyEnv 7) [1, 2, 3, 4, 5, 6, 7, 8, 9] (loopback 2)),
          .inr (.data 1), .inr (.data 1)] = some s ∧
      s.wire.created.length = 2 ∧ s.wire.toServer.length = 1 ∧ s.wire.pushed = [] ∧
      Delivers s.wire ∧
      Possible (lossyStep 60000) (fun t =>
        t.wire.client.state = .connected ∧ t.wire.created = s.wire.created ∧
          t.wire.pushed = s.wire.created) s) ∧
    exists s, run (lossyStep 60000) connecting [.inr (.data 0)] = some s ∧
      ¬ Possible (lossyStep 60000) (fun t =>
        t.wire.client.state = .connected ∧ t.wire.created = s.wire.created ∧
          t.wire.pushed = s.wire.created) s := by
  constructor
  · have hruns : (run (lossyStep 60000) connecting
        [.inl (.deliverData (healthyEnv 8) 0), .inl (.deliverAck (healthyEnv 7) 0),
          .inl (.deliverAck (healthyEnv 7) 0),
          .inl (.write (healthyEnv 7) [1, 2, 3, 4, 5, 6, 7, 8, 9] (loopback 2)),
          .inr (.data 1), .inr (.data 1)]).map
          (fun s => (s.wire.created.length, s.wire.toServer.length, s.wire.pushed,
            s.wire.client.state)) = some (2, 1, [], .connected) := by
      decide +kernel
    rcases Option.map_eq_some_iff.mp hruns with ⟨s, hrun, hfacts⟩
    rcases Prod.mk.inj hfacts with ⟨hcreated, hfacts⟩
    rcases Prod.mk.inj hfacts with ⟨hwire, hfacts⟩
    rcases Prod.mk.inj hfacts with ⟨hpushed, hconnected⟩
    rcases delivers_of_run (by decide) hrun with ⟨hdelivers, hpossible⟩
    exact ⟨s, hrun, hcreated, hwire, hpushed, hdelivers,
      hpossible.mpr (Or.inl hconnected)⟩
  · have hrun : run (lossyStep 60000) connecting [.inr (.data 0)] =
        some (connecting.lose (.data 0)) := rfl
    refine ⟨_, hrun, fun hpossible => ?_⟩
    rcases (delivers_of_run (by decide) hrun).2.mp hpossible with
      hconnected | ⟨-, ⟨q, hq, -⟩ | ⟨-, p, hp, -⟩⟩
    · cases hconnected
    · cases hq
    · cases hp

end Opening
end Utp
