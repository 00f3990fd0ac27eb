import Utp.Transport.World

/-!
# The way back

What the server writes to the client.  A client counts what it has received and what
it knows to be received in one number, and a `State` puts this number wherever it
says.  While the answer to the `Syn` does not reach a client that is connected
already, the packets the client forwards are created by the server, each once and in
order; a late answer makes it forward a packet twice.
-/

namespace Utp

open Foundation

/-!
## The system
-/

namespace World

/-- No `State` of the server reaches a client that is connected, and what the server
writes to the client does not use up its numbers. -/
def settles (a b : SocketAddr) (w : World) : WorldAction -> Bool
  | .client (.receive arrival _) =>
      match arrival.received with
      | .error _ => true
      | .ok (data, addr) =>
          addr ≠ b || !(w.client.peers b).any (fun peer => peer.state = .connected) ||
            !(addressed a w.server.sent).any fun p => p.bytes = data && p.getType = .state
  | .server (.write target _ buf) =>
      target.addr ≠ some a || hasRoom (w.server.peers a) buf
  | _ => true

def settledStep (clientSocket serverSocket : UtpSocket) (a b : SocketAddr) (w : World)
    (action : WorldAction) : Option World :=
  if w.settles a b action then w.step clientSocket serverSocket a b action else none

end World

/-!
## The entry of the client
-/

/-- The entry of a client as a receiver: before the handshake it has delivered
nothing. -/
structure ClientReader (created forwarded : List Packet)
    (peer : UtpSocketState) : Prop extends
    Delivering created forwarded peer where
  waiting : peer.state = .synSent -> forwarded ++ peer.incomingBuffer = []

section Reader

variable {created forwarded more : List Packet} {env : Env} {packet : Packet}
  {peer : UtpSocketState} {o : Outcome}

theorem ClientReader.mono (h : ClientReader created forwarded peer) :
    ClientReader (created ++ more) forwarded peer :=
  { h with toDelivering := h.toDelivering.mono }

theorem clientReader_connectPeer (id senderId : UInt16) (addr : SocketAddr) :
    ClientReader created [] (connectPeer id senderId addr) where
  toDelivering := delivering_fresh rfl rfl
  waiting _ := rfl

theorem ClientReader.enqueue (h : ClientReader created forwarded peer) (id : UInt16)
    (buf : List UInt8) : ClientReader created forwarded (Utp.enqueue id buf peer) := by
  rw [Utp.enqueue, foldl_enqueueChunk]
  exact ⟨h.toDelivering.kept rfl rfl (Nat.le_refl _), h.waiting⟩

theorem ClientReader.forward (h : ClientReader created forwarded peer)
    {popped lost rest : List Packet}
    (hbuffer : popped ++ lost ++ rest = peer.incomingBuffer) :
    ClientReader created (forwarded ++ popped) { peer with incomingBuffer := rest } where
  toDelivering := (h.toDelivering.forward hbuffer).1
  waiting hwaiting := (h.toDelivering.forward hbuffer).2 (h.waiting hwaiting)

theorem ClientReader.handles (h : ClientReader created forwarded peer)
    (hhandles : Handles env packet peer o) (hknown : peer.state ≠ .new)
    (htype : FromReader packet) (hlate : peer.state = .connected ->
      packet.getType ≠ .state)
    (hcarried : packet.getType = .data -> Carried created packet) :
    ClientReader created forwarded o.peer := by
  cases hhandles with
  | newSyn hnew => exact absurd hnew hknown
  | unexpectedSyn _ hsyn => exact absurd hsyn htype.1
  | fin _ hfin => exact absurd hfin htype.2
  | state hstate hother => exact absurd hother (hlate hstate)
  | synAck hwaiting =>
      refine ⟨h.toDelivering.moved (h.waiting hwaiting) rfl rfl, fun hstill => ?_⟩
      cases hstill
  | ack hstate _ ho =>
      have hframe := (handleAck_frame ho).1
      refine ⟨h.toDelivering.kept hframe.incomingBuffer hframe.outOfOrder
        (handleAck_lastAcked_le ho), ?_⟩
      rw [hframe.state, hframe.incomingBuffer]
      exact h.waiting
  | data hstate hdata ho =>
      rcases handleData_effect ho with ⟨sack, heffect⟩
      refine ⟨h.toDelivering.data (hcarried hdata) heffect, fun hwaiting => ?_⟩
      rw [heffect.state] at hwaiting
      rcases hstate with hstate | hstate <;> cases hstate.symm.trans hwaiting
  | reset =>
      refine ⟨h.toDelivering.kept rfl rfl (Nat.le_refl _), fun hstill => ?_⟩
      cases hstill
  | other => exact h

end Reader

/-!
## Both conversations
-/

/-- What holds of the client's conversation with the server, `l`, and the server's
with the client, `r`, for the packets the server creates. -/
structure Returned (l r : Conversation) : Prop where
  unused : l.entry = none -> l.forwarded = []
  silent : r.entry = none -> r.created = []
  sender : forall peer, r.entry = some peer -> Sending r.created peer
  created : forall p, p ∈ r.created -> p.getType = .data ∧ p.bytes.length <= 26
  toClient : forall p, p ∈ r.sent -> p.getType = .data -> p ∈ r.created
  reader : forall peer, l.entry = some peer -> ClientReader r.created l.forwarded peer

section Pair

variable {socket : UtpSocket} {a b : SocketAddr} {l r : Conversation}

theorem Returned.connected (h : Returned l r) {senderId : UInt16} {sent : List Packet}
    (hnone : l.entry = none) :
    Returned (l.extend ⟨connectPeer socket.id senderId b, sent, [], []⟩) r := by
  have hl : (l.extend ⟨connectPeer socket.id senderId b,
    sent, [], []⟩).forwarded = [] := by
    show l.forwarded ++ [] = []
    rw [h.unused hnone, List.append_nil]
  refine { h with unused := fun _ => hl, reader := fun peer hpeer => ?_ }
  rw [hl, ← Option.some.inj hpeer]
  exact clientReader_connectPeer ..

theorem Returned.wrote (h : Returned l r) {buf : List UInt8} {peer : UtpSocketState}
    {sent created : List Packet} (hentry : l.entry = some peer) :
    Returned (l.extend ⟨enqueue socket.id buf peer, sent, created, []⟩) r := by
  refine
    { h with
      unused := by simp [Conversation.extend]
      reader := fun peer' hpeer => ?_ }
  have hl : (l.extend ⟨enqueue socket.id buf peer, sent, created, []⟩).forwarded =
      l.forwarded := List.append_nil _
  rw [hl, ← Option.some.inj hpeer]
  exact (h.reader peer hentry).enqueue socket.id buf

theorem Returned.clientHandled (h : Returned l r) (hpaired : Paired l r)
    {arrival : Arrival}
    {buf : List UInt8} {first packet : Packet} {o : Outcome}
    {sent forwarded lost rest : List Packet} {peer : UtpSocketState}
    (hhandling : Handling socket arrival buf b l.entry first packet o)
    (hentry : l.entry = some peer)
    (hlate : peer.state = .connected -> packet.getType ≠ .state)
    (hpacket : exists c, c ∈ r.sent ∧ c.SameHeader packet ∧
      (c.bytes.length <= 26 -> Carries packet c))
    (hbuffer : forwarded ++ lost ++ rest = o.peer.incomingBuffer) :
    Returned (l.extend ⟨{ o.peer with incomingBuffer := rest }, sent, [],
      forwarded⟩) r := by
  rcases hpacket with ⟨c, hc, hheader, hcarries⟩
  have htype : FromReader packet := by
    rw [FromReader, hheader.packetType]
    exact hpaired.toClient c hc
  have hcarried : packet.getType = .data -> Carried r.created packet := by
    intro hdata
    rw [hheader.packetType] at hdata
    have hmem := h.toClient c hc hdata
    exact ⟨c, hmem, hcarries (h.created c hmem).2⟩
  have hhandles := hhandling.handles
  rw [entryFor, hentry, Option.getD_some] at hhandles
  have hafter := (h.reader peer hentry).handles hhandles
    (hpaired.writer peer hentry).notNew
    htype hlate hcarried
  refine
    { h with
      unused := by simp [Conversation.extend]
      reader := fun peer' hpeer => ?_ }
  rw [← Option.some.inj hpeer]
  exact hafter.forward hbuffer

theorem Returned.serverWrote (h : Returned l r) {buf : List UInt8} {peer : UtpSocketState}
    {sent : List Packet} (hentry : r.entry = some peer)
    (hroom : peer.seqNr.toNat + (chunksOf buf).length < 65535)
    (hsent : forall p, p ∈ sent ->
      exists k : UInt16, (enqueue socket.id buf peer).sentWindow[k]? = some p) :
    Returned l (r.extend ⟨enqueue socket.id buf peer, sent,
      createdPackets socket.id peer (chunksOf buf), []⟩) := by
  have hsender : Sending _ (Utp.enqueue socket.id buf peer) :=
    (h.sender peer hentry).enqueue hroom
  refine ⟨h.unused, by simp [Conversation.extend], ?_, ?_, ?_, ?_⟩
  · intro peer' hpeer
    rw [← Option.some.inj hpeer]
    exact hsender
  · intro p hp
    rcases List.mem_append.mp hp with hold | hnew
    · exact h.created p hold
    · exact length_dataPacket_le (fun c hc => length_le_of_mem_chunks hc) hnew
  · intro p hp htype
    rcases List.mem_append.mp hp with hold | hnew
    · exact List.mem_append_left _ (h.toClient p hold htype)
    · rcases hsent p hnew with ⟨k, hk⟩
      exact hsender.window k p hk htype
  · intro peer' hpeer
    exact (h.reader peer' hpeer).mono

theorem Returned.serverHandled (h : Returned l r) {arrival : Arrival} {buf : List UInt8}
    {first packet : Packet} {o : Outcome} {sent forwarded rest : List Packet}
    (hhandling : Handling socket arrival buf a r.entry first packet o)
    (hfront : sent <+: o.emitted) :
    Returned l (r.extend ⟨{ o.peer with incomingBuffer := rest }, sent, [],
      forwarded⟩) := by
  have hr : (r.extend ⟨{ o.peer with incomingBuffer := rest }, sent, [],
    forwarded⟩).created =
      r.created := List.append_nil _
  have hsender : Sending r.created (entryFor r.entry a first) := by
    cases hentry : r.entry with
    | none =>
        rw [h.silent hentry]
        exact sending_newPeer a first
    | some peer => exact h.sender peer hentry
  have hhandles := hhandling.handles
  refine ⟨h.unused, by simp [Conversation.extend], ?_, ?_, ?_, ?_⟩
  · intro peer' hpeer
    rw [hr, ← Option.some.inj hpeer]
    exact hsender.handles hhandles rest
  · rw [hr]
    exact h.created
  · intro p hp htype
    rw [hr]
    rcases List.mem_append.mp hp with hold | hnew
    · exact h.toClient p hold htype
    · rcases hhandles.emitted_origin (hfront.subset hnew) with ⟨k, hk⟩ | hreply
      · exact hsender.window k p hk htype
      · rw [htype] at hreply
        generalize packet.getType = old at hreply
        cases hreply
  · rw [hr]
    exact h.reader

end Pair

/-!
## Runs
-/

structure World.Settled (a b : SocketAddr) (w : World) : Prop where
  invariant : World.Invariant a b w
  returned : Returned (w.client.conversation b) (w.server.conversation a)

section Run

variable {clientSocket serverSocket : UtpSocket} {a b : SocketAddr} {action : HostAction}
  {w w' : World}

theorem World.settled_initial (a b : SocketAddr) : World.Settled a b .initial where
  invariant := World.invariant_initial a b
  returned := {
    unused := fun _ => rfl
    silent := fun _ => rfl
    sender := fun peer hpeer => by cases hpeer
    created := fun p hp => by cases hp
    toClient := fun p hp => by cases hp
    reader := fun peer hpeer => by cases hpeer }

theorem World.Settled.clientStep (h : w.Settled a b)
    (hsettles : w.settles a b (.client action) = true)
    (hallows : w.allowsClient a b action = true) {client : Host}
    (hstep : w.client.step clientSocket action = some client) :
    Returned (client.conversation b) (w.server.conversation a) := by
  rcases conversation_of_step h.invariant.client hstep b with
    hsame | ⟨t, haddr, htalks, hsame⟩
  · rw [hsame]
    exact h.returned
  · rw [hsame]
    cases htalks with
    | connected hnone _ => exact h.returned.connected hnone
    | wrote _ hentry _ _ => exact h.returned.wrote hentry
    | @handled arrival buf first packet o sent forwarded lost rest
        hhandling _ _ hbuffer =>
        simp only [World.allowsClient, Bool.and_eq_true, decide_eq_true_eq] at hallows
        rcases hhandling.sent hallows.2 hallows.1 with ⟨c, hc, hreceived, hcarries⟩
        cases hentry : (w.client.conversation b).entry with
        | none =>
            have hpaired := h.invariant.paired
            have hnone := hpaired.met (hpaired.unused hentry).1
            have hempty := (hpaired.silent hnone).1
            change addressed a w.server.sent = [] at hempty
            rw [hempty] at hc
            cases hc
        | some peer =>
            refine h.returned.clientHandled h.invariant.paired hhandling hentry ?_
              ⟨c, hc, hcarries⟩ hbuffer
            intro hstate htype
            rw [hcarries.1.packetType] at htype
            change w.client.peers b = some peer at hentry
            have hanswer : ((addressed a w.server.sent).any fun p =>
                p.bytes = c.bytes && p.getType = .state) = true :=
              List.any_eq_true.mpr ⟨c, hc, by simp [htype]⟩
            simp [World.settles, hreceived, hentry, hstate, hanswer] at hsettles

theorem World.Settled.serverStep (h : w.Settled a b)
    (hsettles : w.settles a b (.server action) = true)
    (hallows : w.allowsServer a b action = true) {server : Host}
    (hstep : w.server.step serverSocket action = some server) :
    Returned (w.client.conversation b) (server.conversation a) := by
  rcases conversation_of_step h.invariant.server hstep a with
    hsame | ⟨t, haddr, htalks, hsame⟩
  · rw [hsame]
    exact h.returned
  · rw [hsame]
    cases htalks with
    | connected =>
        cases haddr
        simp [World.allowsServer] at hallows
    | wrote htarget hentry _ hsent =>
        refine h.returned.serverWrote hentry ?_ hsent
        simpa [World.settles, hasRoom, htarget, hentry] using hsettles
    | handled hhandling hfront => exact h.returned.serverHandled hhandling hfront

theorem World.settled_step {action : WorldAction} (h : w.Settled a b)
    (hstep : w.settledStep clientSocket serverSocket a b action = some w') :
    w'.Settled a b := by
  rw [World.settledStep] at hstep
  split at hstep
  · rename_i hsettles
    refine ⟨World.invariant_step h.invariant hstep, ?_⟩
    cases action with
    | client action =>
        rw [World.step] at hstep
        split at hstep
        · rename_i hallows
          rcases Option.map_eq_some_iff.mp hstep with ⟨client, hclient, rfl⟩
          exact h.clientStep hsettles hallows hclient
        · cases hstep
    | server action =>
        rw [World.step] at hstep
        split at hstep
        · rename_i hallows
          rcases Option.map_eq_some_iff.mp hstep with ⟨server, hserver, rfl⟩
          exact h.serverStep hsettles hallows hserver
        · cases hstep
  · cases hstep

end Run

/-!
## What the client forwards
-/

theorem Returned.forwardsCreated {l r : Conversation} (h : Returned l r) :
    ForwardsCreated l.forwarded r.created := by
  apply forwardsCreated_of_carried
  cases hl : l.entry with
  | none =>
      rw [h.unused hl]
      exact .nil
  | some client =>
      have hreader := h.reader client hl
      have hdelivered := hreader.delivered.sublist (List.sublist_append_left _ _)
      have hincreasing : r.created.Pairwise fun p q => p.seqNr.toNat < q.seqNr.toNat := by
        cases hr : r.entry with
        | none =>
            rw [h.silent hr]
            exact .nil
        | some server => exact (h.sender server hr).numbered.increasing
      refine sublistForall₂_of_carried hincreasing hdelivered.increasing ?_
      intro p hp
      rcases hreader.carried p (List.mem_append_left _ hp) with ⟨c, hc, hcarries⟩
      exact ⟨c, hc, congrArg UInt16.toNat hcarries.sameHeader.seqNr, hcarries⟩

/-- In every run in which no `State` comes late, the packets that the client forwards
as coming from the server are some of those that the server has created for it, each
once and in order. -/
theorem World.forwards_returned (clientSocket serverSocket : UtpSocket) (a b : SocketAddr)
    {actions : List WorldAction} {w : World}
    (hrun : run (World.settledStep clientSocket serverSocket a b) .initial
      actions = some w) :
    ForwardsCreated (addressed b w.client.forwarded) (addressed a w.server.created) := by
  have hsettled : w.Settled a b :=
    run_invariant (fun _ _ _ h hstep => World.settled_step h hstep)
      (World.settled_initial a b) hrun
  exact hsettled.returned.forwardsCreated

def synAnswer : Packet :=
  prepareReply (healthyEnv 8) (synPacket 8 (.new 10)) .state 1 1

/-- The second packet the server writes; the first one has the number of the `Syn`. -/
def secondReturned : Packet :=
  dataPacket 8 { newPeer (loopback 1) (synPacket 8 (.new 10)) with seqNr := 2 }
    [7, 8, 9, 10, 11, 12]

def returnedWorld : List WorldAction :=
  [.client (.connect (loopback 2) openConnect),
    .server (receives (synPacket 8 (.new 10)) 1),
    .client (receives synAnswer 2),
    .server (.write (.given (loopback 1)) (healthyEnv 8) [1, 2, 3, 4, 5, 6, 7,
      8, 9, 10, 11, 12]),
    .client (receives secondReturned 2)]

theorem World.forwards_returned_twice :
    exists w, run (World.settledStep plainSocket plainSocket (loopback 1)
      (loopback 2)) .initial
        (returnedWorld ++ [.client (receives secondReturned 2)]) = some w ∧
      ForwardsCreated (addressed (loopback 2) w.client.forwarded)
        (addressed (loopback 1) w.server.created) ∧
      (addressed (loopback 2) w.client.forwarded).length = 1 ∧
      (addressed (loopback 1) w.server.created).length = 2 := by
  have hruns : (run (World.settledStep plainSocket plainSocket (loopback 1) (loopback 2))
      .initial (returnedWorld ++ [.client (receives secondReturned 2)])).map (fun w =>
        ((addressed (loopback 2) w.client.forwarded).length,
          (addressed (loopback 1) w.server.created).length)) = some (1, 2) := by
    decide +kernel
  rcases Option.map_eq_some_iff.mp hruns with ⟨w, hrun, hlengths⟩
  exact ⟨w, hrun, World.forwards_returned plainSocket plainSocket _ _ hrun,
    congrArg Prod.fst hlengths, congrArg Prod.snd hlengths⟩

/-- A late answer takes the mark of the client back, and the client forwards a packet
it has forwarded already. -/
theorem World.late_answer_duplicates :
    exists w, run (World.step plainSocket plainSocket (loopback 1) (loopback 2)) .initial
        (returnedWorld ++
          [.client (receives synAnswer 2),
            .client (receives secondReturned 2)]) = some w ∧
      addressed (loopback 2) w.client.forwarded = [secondReturned, secondReturned] := by
  have hruns : (run (World.step plainSocket plainSocket (loopback 1)
    (loopback 2)) .initial
      (returnedWorld ++
        [.client (receives synAnswer 2),
          .client (receives secondReturned 2)])).map (fun w =>
          addressed (loopback 2) w.client.forwarded) =
        some [secondReturned, secondReturned] := by
    decide +kernel
  exact Option.map_eq_some_iff.mp hruns

end Utp
