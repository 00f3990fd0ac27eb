import Utp.Foundation.Transition
import Utp.Socket.LifeCycle
import Utp.Socket.Receive
import Utp.Socket.SendPackets

/-!
# Connecting

`UtpSocket::connect` refuses an address that is in the map of peers, whatever the
state of its entry.  It inserts the new entry before it connects the UDP socket
and sends the `Syn`, and leaves it there when one of the two fails.
-/

namespace Utp

open Foundation

/-- What one call of `connect` reads from outside: the identifier drawn for the
new state, and the outcomes of its two UDP operations. -/
structure ConnectEnv where
  senderId : UInt16
  udpConnect : Except IoError Unit
  send : Except IoError Unit

structure ConnectOutcome where
  peers : Peers
  sent : List Datagram
  result : Except IoError Unit

def connect (socket : UtpSocket) (env : ConnectEnv) (addr : SocketAddr) (peers : Peers) :
    ConnectOutcome :=
  match peers addr with
  | some _ =>
      { peers := peers, sent := [],
        result := .error ⟨.alreadyExists, "Already connected to this peer"⟩ }
  | none =>
      let packet := synPacket socket.id (.new env.senderId)
      let peers :=
        Function.update peers addr (some (connectPeer socket.id env.senderId addr))
      match env.udpConnect with
      | .error e => { peers := peers, sent := [], result := .error e }
      | .ok () =>
          match env.send with
          | .error e => { peers := peers, sent := [], result := .error e }
          | .ok () => { peers := peers, sent := [(packet, addr)], result := .ok () }

/-!
## Runs
-/

/-- The map of peers, with what has been sent and handled so far. -/
structure PeerTable where
  peers : Peers
  sent : List Datagram
  handled : List Datagram

inductive TableAction where
  | connect (addr : SocketAddr) (env : ConnectEnv)
  | receive (arrival : Arrival) (buf : List UInt8)

def handledBy (socket : UtpSocket) (arrival : Arrival) (buf : List UInt8) :
    List Datagram :=
  match arrival.received with
  | .error _ => []
  | .ok (_, addr) =>
      ((packetToHandle socket arrival buf).map fun packet => (packet, addr)).toList

namespace PeerTable

def initial : PeerTable where
  peers := fun _ => none
  sent := []
  handled := []

def step (socket : UtpSocket) (s : PeerTable) : TableAction -> Option PeerTable
  | .connect addr env =>
      let out := Utp.connect socket env addr s.peers
      some { s with peers := out.peers, sent := s.sent ++ out.sent }
  | .receive arrival buf =>
      (recvPacketsFrom socket arrival buf s.peers).toOption.map fun turn =>
        { peers := turn.peers
          sent := s.sent ++ turn.sent
          handled := s.handled ++ handledBy socket arrival buf }

/-- A `Syn` was sent to the address, or one from there was handled. -/
def SynSeen (s : PeerTable) (addr : SocketAddr) : Prop :=
  exists packet, ((packet, addr) ∈ s.sent ∨ (packet, addr) ∈ s.handled) ∧
    packet.getType = .syn

end PeerTable

def SocketState.Live (state : SocketState) : Prop :=
  state = .synSent ∨ state = .connected ∨ state = .finSent

/-- The call refuses only a live connection with a `Syn` behind it, and when it
fails the peers are as before. -/
structure LeavesNoTrace (socket : UtpSocket) (s : PeerTable) (addr : SocketAddr)
    (env : ConnectEnv) : Prop where
  refusesLive : forall e, (connect socket env addr s.peers).result = .error e ->
    e.kind = .alreadyExists ->
      exists peer, s.peers addr = some peer ∧ peer.state.Live ∧ s.SynSeen addr
  unchanged : forall e, (connect socket env addr s.peers).result = .error e ->
    (connect socket env addr s.peers).peers = s.peers

/-- The entry of the address is live, or there is none and both UDP operations of
the call succeed. -/
structure Connectable (s : PeerTable) (addr : SocketAddr) (env : ConnectEnv) : Prop where
  taken : forall peer, s.peers addr = some peer -> peer.state.Live
  free : s.peers addr = none -> env.udpConnect = .ok () ∧ env.send = .ok ()

def EveryConnect (socket : UtpSocket) (P : PeerTable -> SocketAddr ->
    ConnectEnv -> Prop) :
    List TableAction -> PeerTable -> Prop
  | [], _ => True
  | action :: actions, s =>
      (forall addr env, action = .connect addr env -> P s addr env) ∧
        forall s', s.step socket action = some s' -> EveryConnect socket P actions s'

/-!
## What a turn does to the peers
-/

section Turn

variable {socket : UtpSocket} {arrival : Arrival} {buf : List UInt8} {peers : Peers}
  {turn : Turn}

inductive TurnEffect (socket : UtpSocket) (arrival : Arrival) (buf : List UInt8)
    (peers : Peers) : Peers -> Prop where
  | kept : TurnEffect socket arrival buf peers peers
  | created (addr : SocketAddr) (first : Packet) :
      TurnEffect socket arrival buf peers
        (Function.update peers addr (some ((peers addr).getD (newPeer addr first))))
  | handled (addr : SocketAddr) (first : Packet) {env : Env}
      {packet : Packet} {o : Outcome}
      (rest : List Packet) :
      (packet, addr) ∈ handledBy socket arrival buf ->
      handlePacket env packet ((peers addr).getD (newPeer addr first)) = .ok o ->
        TurnEffect socket arrival buf peers
          (Function.update peers addr (some { o.peer with incomingBuffer := rest }))

theorem finishTurn_peers (arrival : Arrival) (addr : SocketAddr) (buf : List UInt8)
    (peers : Peers) (o : Outcome) :
    exists rest, (finishTurn arrival addr buf peers o).peers =
      Function.update peers addr (some { o.peer with incomingBuffer := rest }) := by
  unfold finishTurn
  dsimp only
  split
  · split
    · exact ⟨_, rfl⟩
    · exact ⟨o.peer.incomingBuffer, rfl⟩
  · exact ⟨_, rfl⟩

theorem turnEffect_recvPacketsFrom
    (hturn : recvPacketsFrom socket arrival buf peers = .ok turn) :
    TurnEffect socket arrival buf peers turn.peers := by
  unfold recvPacketsFrom at hturn
  split at hturn
  · cases hturn
    exact .kept
  · rename_i data addr harrival
    simp only at hturn
    split at hturn
    · cases hturn
      exact .kept
    · rename_i first hfirst
      split at hturn
      · cases hturn
        exact .kept
      · rename_i hkept
        split at hturn
        · cases hturn
          exact .created addr first
        · rename_i packet hsecond
          rcases bind_eq_ok.mp hturn with ⟨o, ho, hturn⟩
          cases hturn
          rcases finishTurn_peers arrival addr (recvInto buf data) peers o with
            ⟨rest, hrest⟩
          have hpacket : packetToHandle socket arrival buf = some packet := by
            simp only [packetToHandle, harrival, hfirst, if_neg hkept, hsecond]
            rfl
          rw [hrest]
          refine .handled addr first rest ?_ ho
          simp only [handledBy, harrival, hpacket]
          exact List.mem_singleton.mpr rfl

theorem Moves.live {state state' : SocketState} {t : PacketType}
    (h : Moves state t state')
    (hlive : state'.Live) : state.Live ∨ (state = .new ∧ t = .syn) := by
  cases h with
  | stays => exact Or.inl hlive
  | opens hopened =>
      rcases hopened with hnew | ⟨hwaiting, -⟩
      · exact Or.inr hnew
      · exact Or.inl (Or.inl hwaiting)
  | closes => rcases hlive with hstate | hstate | hstate <;> cases hstate
  | resets => rcases hlive with hstate | hstate | hstate <;> cases hstate

theorem live_getD {addr : SocketAddr} {first : Packet}
    (hlive : ((peers addr).getD (newPeer addr first)).state.Live) :
    exists old, peers addr = some old ∧ old.state.Live := by
  cases hold : peers addr with
  | none =>
      rw [hold] at hlive
      rcases hlive with hstate | hstate | hstate <;> cases hstate
  | some old =>
      rw [hold] at hlive
      exact ⟨old, rfl, hlive⟩

theorem update_eq_some {addr other : SocketAddr} {entry peer : UtpSocketState}
    (h : Function.update peers addr (some entry) other = some peer) :
    (other = addr ∧ entry = peer) ∨ peers other = some peer := by
  by_cases haddr : other = addr
  · rw [haddr, Function.update_self] at h
    exact Or.inl ⟨haddr, Option.some.inj h⟩
  · rw [Function.update_of_ne haddr] at h
    exact Or.inr h

theorem TurnEffect.live {peers' : Peers} (h : TurnEffect socket arrival buf peers peers')
    {other : SocketAddr} {peer : UtpSocketState} (hpeer : peers' other = some peer)
    (hlive : peer.state.Live) :
    (exists old, peers other = some old ∧ old.state.Live) ∨
      exists packet, (packet, other) ∈ handledBy socket arrival buf ∧
        packet.getType = .syn := by
  cases h with
  | kept => exact Or.inl ⟨peer, hpeer, hlive⟩
  | created addr first =>
      rcases update_eq_some hpeer with ⟨rfl, rfl⟩ | hother
      · exact Or.inl (live_getD hlive)
      · exact Or.inl ⟨peer, hother, hlive⟩
  | handled addr first rest hhandled ho =>
      rcases update_eq_some hpeer with ⟨rfl, rfl⟩ | hother
      · rcases (handlePacket_eq_ok ho).moves.live hlive with hold | ⟨-, htype⟩
        · exact Or.inl (live_getD hold)
        · exact Or.inr ⟨_, hhandled, htype⟩
      · exact Or.inl ⟨peer, hother, hlive⟩

end Turn

/-!
## The three outcomes of `connect`
-/

section Connect

variable {socket : UtpSocket} {env : ConnectEnv} {addr : SocketAddr} {peers : Peers}

theorem connect_taken {peer : UtpSocketState} (h : peers addr = some peer) :
    connect socket env addr peers =
      { peers := peers, sent := [],
        result := .error ⟨.alreadyExists, "Already connected to this peer"⟩ } := by
  simp only [connect, h]

theorem connect_free (h : peers addr = none) (hconnect : env.udpConnect = .ok ())
    (hsend : env.send = .ok ()) :
    connect socket env addr peers =
      { peers := Function.update peers addr
          (some (connectPeer socket.id env.senderId addr))
        sent := [(synPacket socket.id (.new env.senderId), addr)]
        result := .ok () } := by
  simp only [connect, h, hconnect, hsend]

/-- When one of the UDP operations fails, the new entry stays. -/
theorem connect_failed (h : peers addr = none)
    (hfailed : ¬ (env.udpConnect = .ok () ∧ env.send = .ok ())) :
    exists e, connect socket env addr peers =
      { peers := Function.update peers addr
          (some (connectPeer socket.id env.senderId addr))
        sent := []
        result := .error e } := by
  cases hconnect : env.udpConnect with
  | error e => exact ⟨e, by simp only [connect, h, hconnect]⟩
  | ok u =>
      cases hsend : env.send with
      | error e => exact ⟨e, by simp only [connect, h, hconnect, hsend]⟩
      | ok u' => exact absurd ⟨hconnect, hsend⟩ hfailed

end Connect

/-!
## Live entries have a `Syn` behind them
-/

section Backed

variable {socket : UtpSocket} {s s' : PeerTable} {addr : SocketAddr} {env : ConnectEnv}

def PeerTable.Backed (s : PeerTable) : Prop :=
  forall addr peer, s.peers addr = some peer -> peer.state.Live -> s.SynSeen addr

theorem backed_initial : PeerTable.initial.Backed := by
  intro addr peer hpeer
  cases hpeer

theorem PeerTable.SynSeen.mono (h : s.SynSeen addr)
    (hsent : forall d, d ∈ s.sent -> d ∈ s'.sent)
    (hhandled : forall d, d ∈ s.handled -> d ∈ s'.handled) : s'.SynSeen addr := by
  rcases h with ⟨packet, hcase, htype⟩
  exact ⟨packet, hcase.imp (hsent _) (hhandled _), htype⟩

theorem PeerTable.Backed.receive (h : s.Backed) {arrival : Arrival} {buf : List UInt8}
    (hstep : s.step socket (.receive arrival buf) = some s') : s'.Backed := by
  rcases Option.map_eq_some_iff.mp hstep with ⟨turn, hturn, rfl⟩
  have heffect := turnEffect_recvPacketsFrom (toOption_eq_some.mp hturn)
  intro other peer hpeer hlive
  rcases heffect.live hpeer hlive with ⟨old, hold, hlive⟩ | ⟨packet, hhandled, htype⟩
  · exact (h other old hold hlive).mono (fun d => List.mem_append_left _)
      (fun d => List.mem_append_left _)
  · exact ⟨packet, Or.inr (List.mem_append_right _ hhandled), htype⟩

theorem PeerTable.Backed.connect (h : s.Backed) (hconnectable : Connectable s addr env)
    (hstep : s.step socket (.connect addr env) = some s') : s'.Backed := by
  cases hstep
  cases hentry : s.peers addr with
  | some entry =>
      rw [connect_taken hentry]
      intro other peer hpeer hlive
      exact (h other peer hpeer hlive).mono (fun d =>
        List.mem_append_left _) (fun d hd => hd)
  | none =>
      rcases hconnectable.free hentry with ⟨hconnect, hsend⟩
      rw [connect_free hentry hconnect hsend]
      intro other peer hpeer hlive
      rcases update_eq_some hpeer with ⟨rfl, -⟩ | hother
      · exact ⟨_, Or.inl (List.mem_append_right _ (List.mem_singleton.mpr rfl)),
          getType_synPacket ..⟩
      · exact (h other peer hother hlive).mono (fun d => List.mem_append_left _)
          (fun d hd => hd)

theorem PeerTable.Backed.step (h : s.Backed) {action : TableAction}
    (hconnectable : forall addr env, action = .connect addr env -> Connectable s addr env)
    (hstep : s.step socket action = some s') : s'.Backed := by
  cases action with
  | connect addr env => exact h.connect (hconnectable addr env rfl) hstep
  | receive arrival buf => exact h.receive hstep

end Backed

/-!
## Calls that leave no trace
-/

section LeavesNoTrace

variable {socket : UtpSocket} {s : PeerTable} {addr : SocketAddr} {env : ConnectEnv}

theorem Connectable.leavesNoTrace (h : Connectable s addr env) (hbacked : s.Backed) :
    LeavesNoTrace socket s addr env := by
  cases hentry : s.peers addr with
  | some peer =>
      have hlive := h.taken peer hentry
      refine ⟨fun e _ _ => ⟨peer, hentry, hlive, hbacked addr peer hentry hlive⟩, ?_⟩
      rw [connect_taken hentry]
      intro e _
      rfl
  | none =>
      rcases h.free hentry with ⟨hconnect, hsend⟩
      have hok : (connect socket env addr s.peers).result = .ok () :=
        congrArg ConnectOutcome.result (connect_free hentry hconnect hsend)
      constructor
      · intro e he
        rw [hok] at he
        cases he
      · intro e he
        rw [hok] at he
        cases he

theorem LeavesNoTrace.connectable (h : LeavesNoTrace socket s addr env) :
    Connectable s addr env := by
  constructor
  · intro peer hentry
    have hresult : (connect socket env addr s.peers).result =
        .error ⟨.alreadyExists, "Already connected to this peer"⟩ :=
      congrArg ConnectOutcome.result (connect_taken hentry)
    rcases h.refusesLive _ hresult rfl with ⟨peer', hentry', hlive, -⟩
    rw [hentry] at hentry'
    cases hentry'
    exact hlive
  · intro hentry
    by_contra hfailed
    rcases @connect_failed socket _ _ _ hentry hfailed with ⟨e, he⟩
    have hpeers := congrFun (h.unchanged e (congrArg ConnectOutcome.result he)) addr
    rw [he, hentry] at hpeers
    change Function.update s.peers addr (some _) addr = none at hpeers
    rw [Function.update_self] at hpeers
    cases hpeers

end LeavesNoTrace

theorem everyConnect_iff {socket : UtpSocket} {actions : List TableAction} {s : PeerTable}
    (h : s.Backed) :
    EveryConnect socket (LeavesNoTrace socket) actions s <->
      EveryConnect socket Connectable actions s := by
  induction actions generalizing s with
  | nil => exact Iff.rfl
  | cons action actions ih =>
      constructor
      · rintro ⟨hfirst, hrest⟩
        have hconnectable := fun addr env haction => (hfirst addr env haction).connectable
        exact ⟨hconnectable, fun s' hs' =>
          (ih (h.step hconnectable hs')).mp (hrest s' hs')⟩
      · rintro ⟨hfirst, hrest⟩
        exact ⟨fun addr env haction => (hfirst addr env haction).leavesNoTrace h,
          fun s' hs' => (ih (h.step hfirst hs')).mpr (hrest s' hs')⟩

/-- In every run from an empty map, each call of `connect` refuses only a live
connection and leaves no trace when it fails, exactly when each finds a live entry,
or none and both its UDP operations succeed. -/
theorem connect_leaves_no_trace_iff (socket : UtpSocket) (actions : List TableAction) :
    EveryConnect socket (LeavesNoTrace socket) actions .initial <->
      EveryConnect socket Connectable actions .initial :=
  everyConnect_iff backed_initial

def refusedConnect : ConnectEnv where
  senderId := 9
  udpConnect := .error ⟨.connectionRefused, "Connection refused"⟩
  send := .ok ()

def openConnect : ConnectEnv where
  senderId := 10
  udpConnect := .ok ()
  send := .ok ()

/-- A call that fails leaves an entry behind; the next one is refused because of
it, and no `Syn` has been sent. -/
theorem failed_connect_blocks_retry :
    exists s, run (PeerTable.step ⟨7, false⟩) .initial
        [.connect (loopback 1) refusedConnect] = some s ∧
      s.peers (loopback 1) = some (connectPeer 7 9 (loopback 1)) ∧
      ¬ s.SynSeen (loopback 1) ∧
      (connect ⟨7, false⟩ openConnect (loopback 1) s.peers).result =
        .error ⟨.alreadyExists, "Already connected to this peer"⟩ ∧
      ¬ EveryConnect ⟨7, false⟩ (LeavesNoTrace ⟨7, false⟩)
        [.connect (loopback 1) refusedConnect,
          .connect (loopback 1) openConnect] .initial := by
  have hentry : (connect ⟨7, false⟩ refusedConnect (loopback 1)
      PeerTable.initial.peers).peers (loopback 1) =
        some (connectPeer 7 9 (loopback 1)) := by
    change Function.update PeerTable.initial.peers (loopback 1) (some _) (loopback 1) = _
    rw [Function.update_self]
    rfl
  refine ⟨_, rfl, hentry, ?_, ?_, ?_⟩
  · rintro ⟨packet, hsent | hhandled, -⟩
    · cases hsent
    · cases hhandled
  · exact congrArg ConnectOutcome.result (connect_taken hentry)
  · intro h
    have hfree := ((h.1 _ _ rfl).connectable).free rfl
    cases hfree.1

end Utp
