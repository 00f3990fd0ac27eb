import Utp.Foundation.Transition
import Utp.Socket.Connect
import Utp.Socket.Turn
import Utp.Stream.Write
import Utp.Transport.OneWay

/-!
# A socket with many peers

One `UtpSocket` with everything that is done to it: calls of `connect` for any
address, of `send_packets` with an address or without, and turns of the receive loop
with any datagram from anywhere.  The buffer of the receive loop is an input of each
turn.  What the socket keeps, sends, and forwards for one address is a conversation of
its own.
-/

namespace Utp

open Foundation

/-!
## The host
-/

/-- The peer a call of `send_packets` is for: the one at the address it is given, or
else the one that the iterator of the map yields first, if there is one. -/
inductive Addressee where
  | given (addr : SocketAddr)
  | first (addr : Option SocketAddr)

def Addressee.addr : Addressee -> Option SocketAddr
  | .given addr => some addr
  | .first addr => addr

def firstPeer (peers : Peers) (first : Option SocketAddr) : FirstPeer :=
  first.bind fun addr => (peers addr).map fun peer => (addr, peer)

def findPeer (peers : Peers) : Addressee -> Except IoError (SocketAddr × UtpSocketState)
  | .given addr =>
      match peers addr with
      | some peer => .ok (addr, peer)
      | none => .error ⟨.notFound, "No peer"⟩
  | .first addr =>
      match firstPeer peers addr with
      | some entry => .ok entry
      | none => .error ⟨.notFound, "No peers"⟩

structure WriteTurn where
  peers : Peers
  created : List Packet
  sent : List Datagram
  result : Except IoError Unit

def sendPacketsTo (env : Env) (buf : List UInt8) (target : Addressee) (peers : Peers) :
    WriteTurn :=
  match findPeer peers target with
  | .error e => { peers := peers, created := [], sent := [], result := .error e }
  | .ok (addr, peer) =>
      let out := sendPackets env buf addr peer
      { peers := Function.update peers addr (some out.peer)
        created :=
          if peer.state = .closed then [] else createdPackets env.id peer (chunksOf buf)
        sent := out.sent
        result := out.result }

/-- The map of peers with the history of the socket: the datagrams it sent, the
packets it created for an address, and the packets it forwarded from one. -/
structure Host where
  peers : Peers
  sent : List Datagram
  created : List Datagram
  forwarded : List Datagram

inductive HostAction where
  | connect (addr : SocketAddr) (env : ConnectEnv)
  | write (target : Addressee) (env : Env) (buf : List UInt8)
  | receive (arrival : Arrival) (buf : List UInt8)

def Arrival.source (arrival : Arrival) : Option SocketAddr :=
  match arrival.received with
  | .ok (_, addr) => some addr
  | .error _ => none

def HostAction.addr : HostAction -> Option SocketAddr
  | .connect addr _ => some addr
  | .write target _ _ => target.addr
  | .receive arrival _ => arrival.source

def withAddr (addr : Option SocketAddr) (packets : List Packet) : List Datagram :=
  match addr with
  | some addr => packets.map fun p => (p, addr)
  | none => []

namespace Host

def initial : Host where
  peers := fun _ => none
  sent := []
  created := []
  forwarded := []

def step (socket : UtpSocket) (s : Host) : HostAction -> Option Host
  | .connect addr env =>
      let out := Utp.connect socket env addr s.peers
      some { s with peers := out.peers, sent := s.sent ++ out.sent }
  | .write target env buf =>
      let out := sendPacketsTo { env with id := socket.id } buf target s.peers
      some { s with
        peers := out.peers
        sent := s.sent ++ out.sent
        created := s.created ++ withAddr target.addr out.created }
  | .receive arrival buf =>
      (recvPacketsFrom socket arrival buf s.peers).toOption.map fun turn =>
        { s with
          peers := turn.peers
          sent := s.sent ++ turn.sent
          forwarded := s.forwarded ++ withAddr arrival.source turn.forwarded }

/-- The entry at an address is connected to that address. -/
def Wired (s : Host) : Prop :=
  forall addr peer, s.peers addr = some peer -> peer.connectedTo = some addr

end Host

/-!
## Finding the peer
-/

section Find

variable {peers : Peers} {target : Addressee} {addr : SocketAddr} {peer : UtpSocketState}

theorem findPeer_of_entry (htarget : target.addr = some addr)
    (hentry : peers addr = some peer) : findPeer peers target = .ok (addr, peer) := by
  cases target with
  | given other =>
      cases htarget
      simp [findPeer, hentry]
  | first other =>
      cases htarget
      simp [findPeer, firstPeer, hentry]

theorem findPeer_eq_ok :
    findPeer peers target = .ok (addr, peer) <->
      target.addr = some addr ∧ peers addr = some peer := by
  constructor
  · intro hfound
    cases target with
    | given other =>
        rw [findPeer] at hfound
        split at hfound
        · rename_i hentry
          cases hfound
          exact ⟨rfl, hentry⟩
        · cases hfound
    | first other =>
        rw [findPeer] at hfound
        split at hfound
        · rename_i hentry
          cases hfound
          rcases Option.bind_eq_some_iff.mp hentry with ⟨found, rfl, hmap⟩
          rcases Option.map_eq_some_iff.mp hmap with ⟨peer', hpeer, heq⟩
          cases heq
          exact ⟨rfl, hpeer⟩
        · cases hfound
  · intro h
    exact findPeer_of_entry h.1 h.2

/-- The write of a stream whose sends are all ready is a call without an address. -/
theorem pollSendPackets_first (env : Env) (buf : List UInt8) (peers : Peers)
    (first : Option SocketAddr) :
    (pollSendPackets env.ready buf (firstPeer peers first)).created =
        (sendPacketsTo env buf (.first first) peers).created ∧
      (pollSendPackets env.ready buf (firstPeer peers first)).sent =
        (sendPacketsTo env buf (.first first) peers).sent ∧
      (pollSendPackets env.ready buf (firstPeer peers first)).result =
        .ready (sendPacketsTo env buf (.first first) peers).result := by
  rw [sendPacketsTo, findPeer]
  cases firstPeer peers first with
  | none => exact ⟨rfl, rfl, rfl⟩
  | some entry =>
      rcases entry with ⟨addr, peer⟩
      rcases pollSendPackets_ready env buf addr peer with ⟨-, hsent, hresult⟩
      refine ⟨?_, hsent, hresult⟩
      simp only [pollSendPackets, Env.ready]
      split <;> rfl

end Find

/-!
## Conversations
-/

/-- What a host has to do with one address. -/
structure Conversation where
  entry : Option UtpSocketState
  sent : List Packet
  created : List Packet
  forwarded : List Packet

def addressed (addr : SocketAddr) (log : List Datagram) : List Packet :=
  (log.filter fun d => d.2 = addr).map Prod.fst

def Host.conversation (s : Host) (addr : SocketAddr) : Conversation where
  entry := s.peers addr
  sent := addressed addr s.sent
  created := addressed addr s.created
  forwarded := addressed addr s.forwarded

/-- What one step adds to a conversation: the new entry, and the packets at the end
of each history. -/
structure Talk where
  entry : UtpSocketState
  sent : List Packet
  created : List Packet
  forwarded : List Packet

def Conversation.extend (c : Conversation) (t : Talk) : Conversation where
  entry := some t.entry
  sent := c.sent ++ t.sent
  created := c.created ++ t.created
  forwarded := c.forwarded ++ t.forwarded

def Host.extend (s : Host) (addr : SocketAddr) (t : Talk) : Host where
  peers := Function.update s.peers addr (some t.entry)
  sent := s.sent ++ withAddr (some addr) t.sent
  created := s.created ++ withAddr (some addr) t.created
  forwarded := s.forwarded ++ withAddr (some addr) t.forwarded

section Addressed

variable {addr other : SocketAddr}

@[simp] theorem addressed_append (front back : List Datagram) :
    addressed addr (front ++ back) = addressed addr front ++ addressed addr back := by
  simp [addressed]

@[simp] theorem addressed_withAddr (packets : List Packet) :
    addressed addr (withAddr (some addr) packets) = packets := by
  simp [addressed, withAddr, List.filter_map, Function.comp_def]

theorem addressed_withAddr_of_ne {packets : List Packet} (hother : other ≠ addr) :
    addressed other (withAddr (some addr) packets) = [] := by
  simp [addressed, withAddr, List.filter_map, Function.comp_def, hother.symm]

theorem withAddr_map_fst {log : List Datagram} (h : forall d, d ∈ log -> d.2 = addr) :
    withAddr (some addr) (log.map Prod.fst) = log := by
  induction log with
  | nil => rfl
  | cons d log ih =>
      have hrest := ih fun d hd => h d (List.mem_cons_of_mem _ hd)
      have hhead := h d (List.mem_cons_self ..)
      simp only [withAddr, List.map_cons] at hrest ⊢
      rw [hrest, ← hhead]

@[simp] theorem conversation_extend (s : Host) (t : Talk) :
    (s.extend addr t).conversation addr = (s.conversation addr).extend t := by
  simp [Host.conversation, Host.extend, Conversation.extend]

theorem conversation_extend_of_ne (s : Host) (t : Talk) (hother : other ≠ addr) :
    (s.extend addr t).conversation other = s.conversation other := by
  simp [Host.conversation, Host.extend, Function.update_of_ne hother,
    addressed_withAddr_of_ne hother]

end Addressed

/-!
## What one step does
-/

/-- What an action adds to the conversation with its address. -/
inductive Talks (socket : UtpSocket) (addr : SocketAddr) (entry : Option UtpSocketState) :
    HostAction -> Talk -> Prop where
  | connected {env : ConnectEnv} {sent : List Packet} :
      entry = none -> (forall p, p ∈ sent ->
        p = synPacket socket.id (.new env.senderId)) ->
      Talks socket addr entry (.connect addr env)
        { entry := connectPeer socket.id env.senderId addr, sent := sent,
          created := [], forwarded := [] }
  | wrote {target : Addressee} {env : Env} {buf : List UInt8} {peer : UtpSocketState}
      {sent : List Packet} :
      target.addr = some addr -> entry = some peer -> peer.state ≠ .closed ->
      (forall p, p ∈ sent ->
        exists k : UInt16, (enqueue socket.id buf peer).sentWindow[k]? = some p) ->
      Talks socket addr entry (.write target env buf)
        { entry := enqueue socket.id buf peer, sent := sent,
          created := createdPackets socket.id peer (chunksOf buf), forwarded := [] }
  | handled {arrival : Arrival} {buf : List UInt8} {first packet : Packet} {o : Outcome}
      {sent forwarded lost rest : List Packet} :
      Handling socket arrival buf addr entry first packet o ->
      sent <+: o.emitted -> lost.length <= 1 ->
      forwarded ++ lost ++ rest = o.peer.incomingBuffer ->
      Talks socket addr entry (.receive arrival buf)
        { entry := { o.peer with incomingBuffer := rest }, sent := sent,
          created := [], forwarded := forwarded }

section Step

variable {socket : UtpSocket} {s s' : Host} {action : HostAction}
  {addr other : SocketAddr}
  {t : Talk}

theorem transmit_addr {env : Env} {packets : List Packet} {sent : List Datagram}
    (hsent : forall d, d ∈ sent -> d.2 = addr) :
    forall d, d ∈ (transmit env addr packets sent).1 -> d.2 = addr := by
  induction packets generalizing sent with
  | nil => exact hsent
  | cons packet packets ih =>
      rw [transmit]
      split
      · exact hsent
      · refine ih fun d hd => ?_
        rcases List.mem_append.mp hd with hd | hnew
        · exact hsent d hd
        · rw [List.mem_singleton.mp hnew]

theorem sendPackets_addr {env : Env} {buf : List UInt8} {peer : UtpSocketState} :
    forall d, d ∈ (sendPackets env buf addr peer).sent -> d.2 = addr := by
  rw [sendPackets]
  split
  · simp
  · exact transmit_addr (by simp)

theorem Finished.sent_eq {arrival : Arrival} {buf : List UInt8} {first packet : Packet}
    {o : Outcome} {turn : Turn} (h : Finished s.peers addr o turn)
    (hhandling : Handling socket arrival buf addr (s.peers addr) first packet o)
    (hwired : s.Wired) :
    exists sent, sent <+: o.emitted ∧ turn.sent = withAddr (some addr) sent := by
  have hconnected : (entryFor (s.peers addr) addr first).connectedTo = some addr := by
    cases hentry : s.peers addr with
    | none => rfl
    | some peer => exact hwired addr peer hentry
  rcases Packet.hasChain_of_tryFrom hhandling.parsed with ⟨exts, payload, hchain, -⟩
  have hdest : forall d, d ∈ o.sent -> d.2 = addr := by
    intro d hd
    have hpeer := (hhandling.handles.sent_spec hchain).2 d hd
    rw [hconnected] at hpeer
    exact (Option.some.inj hpeer).symm
  rcases h.sent with hsent | ⟨rsp, hrsp, hsent⟩
  · refine ⟨o.sent.map Prod.fst, List.prefix_append _ _, ?_⟩
    rw [withAddr_map_fst hdest, hsent]
  · refine ⟨o.sent.map Prod.fst ++ [rsp], ?_, ?_⟩
    · rw [Outcome.emitted, hrsp]
    · rw [hsent, withAddr, List.map_append, ← withAddr_map_fst hdest]
      simp [withAddr]

/-- The step leaves the host alone, or it adds to the conversation with the address
of the action. -/
def Steps (socket : UtpSocket) (s : Host) (action : HostAction) (s' : Host) : Prop :=
  s' = s ∨ exists addr t, action.addr = some addr ∧
    Talks socket addr (s.peers addr) action t ∧ s' = s.extend addr t

theorem steps_connect {env : ConnectEnv}
    (hstep : s.step socket (.connect addr env) = some s') :
    Steps socket s (.connect addr env) s' := by
  cases hstep
  cases hentry : s.peers addr with
  | some peer =>
      left
      rw [connect_taken hentry]
      simp
  | none =>
      right
      by_cases hudp : env.udpConnect = .ok () ∧ env.send = .ok ()
      · refine ⟨addr, ⟨connectPeer socket.id env.senderId addr,
          [synPacket socket.id (.new env.senderId)], [], []⟩, rfl, ?_, ?_⟩
        · exact .connected hentry fun p hp => List.mem_singleton.mp hp
        · rw [connect_free hentry hudp.1 hudp.2]
          simp [Host.extend, withAddr]
      · refine ⟨addr, ⟨connectPeer socket.id env.senderId addr, [], [], []⟩, rfl, ?_, ?_⟩
        · exact .connected hentry (by simp)
        · rcases connect_failed hentry hudp with ⟨e, hfailed⟩
          rw [hfailed]
          simp [Host.extend, withAddr]

theorem steps_write {target : Addressee} {env : Env} {buf : List UInt8}
    (hstep : s.step socket (.write target env buf) = some s') :
    Steps socket s (.write target env buf) s' := by
  cases hstep
  cases hfound : findPeer s.peers target with
  | error e =>
      left
      cases target.addr <;> simp [sendPacketsTo, hfound, withAddr]
  | ok entry =>
      rcases entry with ⟨addr, peer⟩
      rcases findPeer_eq_ok.mp hfound with ⟨htarget, hentry⟩
      by_cases hclosed : peer.state = .closed
      · left
        have hself : Function.update s.peers addr (some peer) = s.peers := by
          rw [← hentry, Function.update_eq_self]
        simp [sendPacketsTo, hfound, htarget, hclosed, sendPackets, withAddr, hself]
      · right
        let writeEnv : Env := { env with id := socket.id }
        have hpeer : (sendPackets writeEnv buf addr peer).peer =
          enqueue socket.id buf peer :=
          sendPackets_peer hclosed
        have hsent : withAddr (some addr)
            ((sendPackets writeEnv buf addr peer).sent.map Prod.fst) =
              (sendPackets writeEnv buf addr peer).sent :=
          withAddr_map_fst sendPackets_addr
        refine ⟨addr, ⟨enqueue socket.id buf peer,
          (sendPackets writeEnv buf addr peer).sent.map Prod.fst,
          createdPackets socket.id peer (chunksOf buf), []⟩, htarget,
          .wrote htarget hentry hclosed ?_, ?_⟩
        · intro p hp
          rcases List.mem_map.mp hp with ⟨d, hd, rfl⟩
          rw [← hpeer]
          exact sendPackets_mem hd
        · rw [Host.extend, hsent]
          simp only [sendPacketsTo, hfound, htarget, hpeer, hclosed, if_false, writeEnv]
          simp [withAddr]

theorem steps_receive (hwired : s.Wired) {arrival : Arrival} {buf : List UInt8}
    (hstep : s.step socket (.receive arrival buf) = some s') :
    Steps socket s (.receive arrival buf) s' := by
  rcases Option.map_eq_some_iff.mp hstep with ⟨turn, hturn, rfl⟩
  cases turned_recvPacketsFrom (toOption_eq_some.mp hturn) with
  | idle hpeers hsent hforwarded =>
      left
      rw [hpeers, hsent, hforwarded]
      cases arrival.source <;> simp [withAddr]
  | @handled addr first packet o hhandling hfinished =>
      right
      rcases hfinished.sent_eq hhandling hwired with ⟨sent, hfront, hsent⟩
      rcases hfinished.emptied with ⟨lost, rest, hlost, hbuffer, hpeers⟩
      rcases hhandling.received with ⟨data, harrival, -⟩
      have hsource : arrival.source = some addr := by
        rw [Arrival.source, harrival]
      refine ⟨addr, ⟨{ o.peer with incomingBuffer := rest }, sent, [], turn.forwarded⟩,
        hsource, .handled hhandling hfront hlost hbuffer, ?_⟩
      rw [hpeers, hsent, hsource]
      simp [Host.extend, withAddr]

theorem steps_of_step (hwired : s.Wired) (hstep : s.step socket action = some s') :
    Steps socket s action s' := by
  cases action with
  | connect addr env => exact steps_connect hstep
  | write target env buf => exact steps_write hstep
  | receive arrival buf => exact steps_receive hwired hstep

theorem Talks.connectedTo (h : Talks socket addr (s.peers addr) action t)
    (hwired : s.Wired) : t.entry.connectedTo = some addr := by
  cases h with
  | connected => rfl
  | wrote _ hentry =>
      have hpeer := hwired addr _ hentry
      rw [enqueue, foldl_enqueueChunk]
      exact hpeer
  | handled hhandling =>
      refine hhandling.handles.connectedTo.trans ?_
      cases hentry : s.peers addr with
      | none => rfl
      | some peer => exact hwired addr peer hentry

theorem wired_initial : Host.initial.Wired := by
  intro addr peer hpeer
  cases hpeer

theorem Steps.wired (h : Steps socket s action s') (hwired : s.Wired) : s'.Wired := by
  rcases h with rfl | ⟨addr, t, -, htalks, rfl⟩
  · exact hwired
  · intro other peer hpeer
    rcases update_eq_some hpeer with ⟨rfl, rfl⟩ | hother
    · exact htalks.connectedTo hwired
    · exact hwired other peer hother

theorem wired_step (hwired : s.Wired)
    (hstep : s.step socket action = some s') : s'.Wired :=
  (steps_of_step hwired hstep).wired hwired

theorem conversation_of_step (hwired : s.Wired) (hstep : s.step socket action = some s')
    (addr : SocketAddr) :
    s'.conversation addr = s.conversation addr ∨
      exists t, action.addr = some addr ∧ Talks socket addr (s.peers addr) action t ∧
        s'.conversation addr = (s.conversation addr).extend t := by
  rcases steps_of_step hwired hstep with rfl | ⟨other, t, hother, htalks, rfl⟩
  · exact Or.inl rfl
  · by_cases heq : addr = other
    · subst heq
      exact Or.inr ⟨t, hother, htalks, conversation_extend s t⟩
    · exact Or.inl (conversation_extend_of_ne s t heq)

theorem wired_of_run {actions : List HostAction}
    (hrun : run (Host.step socket) .initial actions = some s) : s.Wired :=
  run_invariant (fun _ _ _ => wired_step) wired_initial hrun

end Step

/-!
## Answers

What the network makes a socket send goes back to where the datagram came from.
-/

section Answers

variable {socket : UtpSocket} {s s' : Host} {action : HostAction} {addr : SocketAddr}
  {t : Talk} {actions : List HostAction}

def HostAction.Sized : HostAction -> Prop
  | .receive _ buf => buf.length = 26
  | _ => True

def HostAction.IsReceive : HostAction -> Prop
  | .receive _ _ => True
  | _ => False

theorem emitted_length (o : Outcome) : o.emitted.length <= o.sent.length + 1 := by
  rw [Outcome.emitted, List.length_append, List.length_map]
  split <;> simp

theorem Talks.length_sent (h : Talks socket addr (s.peers addr) action t)
    (hsized : action.Sized) (hreceive : action.IsReceive) : t.sent.length <= 33 := by
  cases h with
  | connected => cases hreceive
  | wrote => cases hreceive
  | @handled arrival buf first packet o sent _ _ _ hhandling hfront =>
      rcases Packet.hasChain_of_tryFrom hhandling.parsed with ⟨exts, payload, hchain, -⟩
      rcases hhandling.received with ⟨data, -, -, hbytes⟩
      have hlength : packet.bytes.length = 26 := by
        rw [hbytes, length_recvInto]
        exact hsized
      have hdata := hchain.dataLength_le (Nat.le_of_eq hlength)
      have hsent := (hhandling.handles.sent_spec hchain).1
      have hemitted := emitted_length o
      have hle := hfront.length_le
      show sent.length <= 33
      omega

def Host.Unused (s : Host) (addr : SocketAddr) : Prop :=
  forall peer, s.peers addr = some peer -> peer.sentWindow = ∅

def HostAction.Leaves (action : HostAction) (addr : SocketAddr) : Prop :=
  action.addr = some addr -> action.IsReceive

theorem Talks.unused (h : Talks socket addr (s.peers addr) action t)
    (hunused : s.Unused addr) (hreceive : action.IsReceive) :
    t.sent.length <= 1 ∧ t.entry.sentWindow = ∅ := by
  cases h with
  | connected => cases hreceive
  | wrote => cases hreceive
  | @handled arrival buf first packet o sent _ _ _ hhandling hfront =>
      have hempty : (entryFor (s.peers addr) addr first).sentWindow = ∅ := by
        cases hentry : s.peers addr with
        | none => rfl
        | some peer => exact hunused peer hentry
      constructor
      · have hsent : o.sent = [] := by
          rw [List.eq_nil_iff_forall_not_mem]
          intro d hd
          rcases hhandling.handles.sent_mem hd with ⟨k, hk⟩
          rw [hempty] at hk
          cases hk
        have hemitted := emitted_length o
        rw [hsent] at hemitted
        exact Nat.le_trans hfront.length_le hemitted
      · by_contra hne
        rcases ne_empty_iff.mp hne with ⟨k, hk⟩
        rcases mem_iff_getElem?.mp hk with ⟨p, hp⟩
        have hkept := hhandling.handles.window_kept hp
        rw [hempty] at hkept
        cases hkept

theorem Steps.unused (h : Steps socket s action s') (hunused : s.Unused addr)
    (hleaves : action.Leaves addr) :
    s'.Unused addr ∧ (addressed addr s'.sent).length <=
      (addressed addr s.sent).length + if action.addr = some addr then 1 else 0 := by
  rcases h with rfl | ⟨other, t, hother, htalks, rfl⟩
  · exact ⟨hunused, Nat.le_add_right _ _⟩
  · by_cases heq : addr = other
    · subst heq
      rcases htalks.unused hunused (hleaves hother) with ⟨hlength, hempty⟩
      constructor
      · intro peer hpeer
        simp only [Host.extend, Function.update_self] at hpeer
        rw [← Option.some.inj hpeer]
        exact hempty
      · simp only [Host.extend, addressed_append, addressed_withAddr, List.length_append,
          if_pos hother]
        omega
    · constructor
      · intro peer hpeer
        simp only [Host.extend, Function.update_of_ne heq] at hpeer
        exact hunused peer hpeer
      · simp [Host.extend, addressed_withAddr_of_ne heq]

def countAbout (addr : SocketAddr) (actions : List HostAction) : Nat :=
  actions.countP fun action => action.addr = some addr

theorem length_sent_of_run (hwired : s.Wired) (hunused : s.Unused addr)
    (hleaves : forall action, action ∈ actions -> action.Leaves addr)
    (hrun : run (Host.step socket) s actions = some s') :
    (addressed addr s'.sent).length <=
      (addressed addr s.sent).length + countAbout addr actions := by
  induction actions generalizing s with
  | nil =>
      cases hrun
      exact Nat.le_add_right _ _
  | cons action actions ih =>
      rcases run_cons_eq_some.mp hrun with ⟨mid, hstep, hrun⟩
      have hsteps := steps_of_step hwired hstep
      rcases hsteps.unused hunused (hleaves action (List.mem_cons_self ..)) with
        ⟨hmid, hlength⟩
      have hrest := ih (hsteps.wired hwired) hmid
        (fun a ha => hleaves a (List.mem_cons_of_mem _ ha)) hrun
      have hcount : countAbout addr (action :: actions) =
          countAbout addr actions + if action.addr = some addr then 1 else 0 := by
        simp [countAbout, List.countP_cons]
      omega

theorem sent_addr_of_run (hwired : s.Wired)
    (hrun : run (Host.step socket) s actions = some s') {d : Datagram}
    (hd : d ∈ s'.sent) :
    d ∈ s.sent ∨ exists action, action ∈ actions ∧ action.addr = some d.2 := by
  induction actions generalizing s with
  | nil =>
      cases hrun
      exact Or.inl hd
  | cons action actions ih =>
      rcases run_cons_eq_some.mp hrun with ⟨mid, hstep, hrun⟩
      have hsteps := steps_of_step hwired hstep
      rcases ih (hsteps.wired hwired) hrun with hmid | ⟨later, hlater, haddr⟩
      · rcases hsteps with rfl | ⟨addr, t, haddr, -, rfl⟩
        · exact Or.inl hmid
        · rcases List.mem_append.mp hmid with hsent | hnew
          · exact Or.inl hsent
          · rcases List.mem_map.mp hnew with ⟨p, -, rfl⟩
            exact Or.inr ⟨action, List.mem_cons_self .., haddr⟩
      · exact Or.inr ⟨later, List.mem_cons_of_mem _ hlater, haddr⟩

/-- What the network can make a socket send. -/
structure Answers (socket : UtpSocket) (actions : List HostAction) (s : Host) : Prop where
  /-- Nothing goes to an address that no action was about. -/
  destination : forall d, d ∈ s.sent ->
    exists action, action ∈ actions ∧ action.addr = some d.2
  /-- An address the application does not use gets one datagram at most for each one
  that came from it. -/
  replies : forall addr, (forall action, action ∈ actions -> action.Leaves addr) ->
    (addressed addr s.sent).length <= countAbout addr actions
  /-- Any other one gets thirty-three at most. -/
  burst : forall arrival buf s', buf.length = 26 ->
    s.step socket (.receive arrival buf) = some s' ->
      exists sent, s'.sent = s.sent ++ withAddr arrival.source sent ∧ sent.length <= 33

/-- In every run of a socket the answers to a datagram go back to its source, and
there are few of them. -/
theorem answers_of_run (hrun : run (Host.step socket) .initial actions = some s) :
    Answers socket actions s where
  destination := by
    intro d hd
    rcases sent_addr_of_run wired_initial hrun hd with hnil | hfound
    · cases hnil
    · exact hfound
  replies := by
    intro addr hleaves
    have hunused : Host.initial.Unused addr := by
      intro peer hpeer
      cases hpeer
    have hlength := length_sent_of_run wired_initial hunused hleaves hrun
    have hnil : (addressed addr Host.initial.sent).length = 0 := rfl
    omega
  burst := by
    intro arrival buf s' hbuf hstep
    rcases steps_of_step (wired_of_run hrun) hstep with
      rfl | ⟨addr, t, haddr, htalks, rfl⟩
    · refine ⟨[], ?_, Nat.zero_le _⟩
      cases arrival.source <;> simp [withAddr]
    · refine ⟨t.sent, ?_, htalks.length_sent hbuf trivial⟩
      have hsource : arrival.source = some addr := haddr
      rw [hsource]
      rfl

end Answers

def lossReport : Arrival :=
  .healthy (((withSack (barePacket .ack 1 1) [0, 0, 0, 0]).toOption.map
    Packet.bytes).getD []) (loopback 1)

/-- Thirty-four packets are written, and then lost packets are reported this many
times. -/
def reportedLosses (reports : Nat) : List HostAction :=
  [.connect (loopback 1) openConnect,
    .receive (.healthy (barePacket .state 1 1).bytes (loopback 1)) (List.replicate 26 0),
    .write (.given (loopback 1)) (healthyEnv 7) (List.replicate 204 0)] ++
      List.replicate reports (.receive lossReport (List.replicate 26 0))

/-- The third report makes the socket send thirty-three datagrams. -/
theorem answers_of_reports :
    exists s s' arrival buf,
      run (Host.step plainSocket) .initial (reportedLosses 2) = some s ∧
      Answers plainSocket (reportedLosses 2) s ∧
      s.step plainSocket (.receive arrival buf) = some s' ∧
      s'.sent.length = s.sent.length + 33 := by
  have hruns : ((run (Host.step plainSocket) .initial (reportedLosses 2)).bind fun s =>
      (s.step plainSocket (.receive lossReport (List.replicate 26 0))).map fun s' =>
        s'.sent.length - s.sent.length) = some 33 := by
    decide +kernel
  rcases Option.bind_eq_some_iff.mp hruns with ⟨s, hrun, hstep⟩
  rcases Option.map_eq_some_iff.mp hstep with ⟨s', hstep, hsent⟩
  refine ⟨s, s', _, _, hrun, answers_of_run hrun, hstep, ?_⟩
  omega

end Utp
