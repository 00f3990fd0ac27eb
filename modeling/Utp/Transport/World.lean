import Utp.Foundation.InOrder
import Utp.Socket.Blocked
import Utp.Transport.Host
import Utp.Transport.Opening

/-!
# Two hosts in a hostile world

A client and a server, each a socket with its whole map of peers, and a network
that loses, repeats, and reorders what they send to each other.  Datagrams from any
other address hold whatever their senders like.  Both applications write when they
like, and the server never connects to the client.
-/

namespace Utp

open Foundation
open Std (ExtTreeMap)

/-!
## The system
-/

structure World where
  client : Host
  server : Host

inductive WorldAction where
  | client (action : HostAction)
  | server (action : HostAction)

/-- A datagram that seems to come from `source` is one that the host there has sent
to `target`; any other source sends what it likes. -/
def genuine (source target : SocketAddr) (sender : Host) (arrival : Arrival) : Bool :=
  match arrival.received with
  | .error _ => true
  | .ok (data, addr) =>
      addr ≠ source || (addressed target sender.sent).any fun p => p.bytes = data

/-- Writing the buffer does not use up the sequence numbers. -/
def hasRoom (entry : Option UtpSocketState) (buf : List UInt8) : Bool :=
  match entry with
  | none => true
  | some peer => peer.seqNr.toNat + (chunksOf buf).length < 65535

namespace World

def initial : World where
  client := .initial
  server := .initial

/-- What the client can do next, whose server has the address `b`. -/
def allowsClient (a b : SocketAddr) (w : World) : HostAction -> Bool
  | .connect _ _ => true
  | .write target _ buf => target.addr ≠ some b || hasRoom (w.client.peers b) buf
  | .receive arrival buf => buf.length = 26 && genuine b a w.server arrival

/-- What the server can do next, whose client has the address `a`. -/
def allowsServer (a b : SocketAddr) (w : World) : HostAction -> Bool
  | .connect addr _ => addr ≠ a
  | .write _ _ _ => true
  | .receive arrival buf => buf.length = 26 && genuine a b w.client arrival

def step (clientSocket serverSocket : UtpSocket) (a b : SocketAddr) (w : World) :
    WorldAction -> Option World
  | .client action =>
      if w.allowsClient a b action then
        (w.client.step clientSocket action).map fun client => { w with client := client }
      else none
  | .server action =>
      if w.allowsServer a b action then
        (w.server.step serverSocket action).map fun server => { w with server := server }
      else none

end World

/-!
## What the two put on the wire
-/

/-- The packet is handled with the bytes of a created one, and with whatever else
was in the buffer behind them. -/
def Carries (p created : Packet) : Prop :=
  created.bytes <+: p.bytes ∧ p.bytes.length = 26

def Carried (created : List Packet) (p : Packet) : Prop :=
  exists c, c ∈ created ∧ Carries p c

theorem Carries.sameHeader {p c : Packet} (h : Carries p c) : c.SameHeader p := by
  rcases h.1 with ⟨stale, hbytes⟩
  exact Packet.sameHeader_of_append hbytes.symm

def FromWriter (created : List Packet) (p : Packet) : Prop :=
  p.getType = .syn ∨ p.getType = .ack ∨ p ∈ created

def FromReader (p : Packet) : Prop := p.getType ≠ .syn ∧ p.getType ≠ .fin

inductive Answered : PacketType -> PacketType -> Prop where
  | opened : Answered .syn .state
  | unexpected : Answered .syn .reset
  | acknowledged : Answered .data .ack
  | closed : Answered .fin .state

section Packet

variable {env : Env} {packet q : Packet} {peer : UtpSocketState} {o : Outcome}

theorem Handles.emitted_origin (h : Handles env packet peer o) (hq : q ∈ o.emitted) :
    (exists k : UInt16, peer.sentWindow[k]? = some q) ∨
      Answered packet.getType q.getType := by
  cases h with
  | newSyn _ htype =>
      cases List.mem_singleton.mp hq
      rw [htype, getType_prepareReply]
      exact Or.inr .opened
  | unexpectedSyn _ htype =>
      cases List.mem_singleton.mp hq
      rw [htype, getType_prepareReply]
      exact Or.inr .unexpected
  | synAck => cases hq
  | ack hstate htype h =>
      have hcall : ClientCall packet peer o :=
        handleAck_clientCall (by rcases hstate with h | h <;> simp [h]) htype h
      exact Or.inl (hcall.emitted q hq)
  | data _ htype h =>
      rcases handleData_eq_ok h with ⟨sack, reply, -, ho, hreply⟩
      rw [ho] at hq
      cases List.mem_singleton.mp hq
      rw [htype, hreply.getType_eq]
      exact Or.inr .acknowledged
  | state hstate htype h =>
      have hcall : ClientCall packet peer o :=
        handleState_clientCall (by simp [hstate]) htype h
      exact Or.inl (hcall.emitted q hq)
  | fin _ htype =>
      cases List.mem_singleton.mp hq
      rw [htype, getType_prepareReply]
      exact Or.inr .closed
  | reset => cases hq
  | other => cases hq

/-- The counter of an entry that is still waiting for its handshake has room for
the number the handshake takes. -/
def WaitsWithRoom (peer : UtpSocketState) : Prop :=
  peer.state = .synSent -> peer.seqNr.toNat < 65535

theorem DataEffect.seqNr_le {peer' : UtpSocketState} {sack : List UInt8}
    (h : DataEffect packet peer peer' sack) : peer.seqNr.toNat <= peer'.seqNr.toNat := by
  cases h with
  | inOrder _ hlt =>
      show peer.seqNr.toNat <= (peer.seqNr + 1).toNat
      rw [UInt16.toNat_add, UInt16.toNat_one]
      omega
  | early => exact Nat.le_refl _
  | old => exact Nat.le_refl _

theorem Handles.seqNr_le (h : Handles env packet peer o) (hroom : WaitsWithRoom peer) :
    peer.seqNr.toNat <= o.peer.seqNr.toNat ∧ WaitsWithRoom o.peer := by
  cases h with
  | synAck hstate =>
      have hlt := hroom hstate
      constructor
      · show peer.seqNr.toNat <= (peer.seqNr + 1).toNat
        rw [UInt16.toNat_add, UInt16.toNat_one]
        omega
      · intro hwaiting
        cases hwaiting
  | ack _ _ h =>
      have hframe := (handleAck_frame h).1
      rw [WaitsWithRoom, hframe.seqNr, hframe.state]
      exact ⟨Nat.le_refl _, hroom⟩
  | state _ _ h =>
      have hframe := (handleState_frame h).1
      rw [WaitsWithRoom, hframe.seqNr, hframe.state]
      exact ⟨Nat.le_refl _, hroom⟩
  | data hstate _ h =>
      rcases handleData_effect h with ⟨sack, heffect⟩
      refine ⟨heffect.seqNr_le, fun hwaiting => ?_⟩
      rw [heffect.state] at hwaiting
      rcases hstate with hstate | hstate <;> cases hstate.symm.trans hwaiting
  | newSyn => exact ⟨Nat.le_refl _, by simp [WaitsWithRoom, handleNewSyn, Outcome.quiet]⟩
  | fin => exact ⟨Nat.le_refl _, by simp [WaitsWithRoom, handleFin, Outcome.quiet]⟩
  | reset => exact ⟨Nat.le_refl _, by simp [WaitsWithRoom, handleReset, Outcome.quiet]⟩
  | unexpectedSyn => exact ⟨Nat.le_refl _, hroom⟩
  | other => exact ⟨Nat.le_refl _, hroom⟩

inductive Reads (packet : Packet) (peer : UtpSocketState) : UtpSocketState -> Prop where
  | opened : peer.state = .new ->
      Reads packet peer { peer with lastAcked := packet.seqNr, state := .connected }
  | kept {peer' : UtpSocketState} : SameReceiving peer' peer ->
      peer.lastAcked.toNat <= peer'.lastAcked.toNat -> Reads packet peer peer'
  | data {peer' : UtpSocketState} {sack : List UInt8} : packet.getType = .data ->
      peer.state ≠ .new -> DataEffect packet peer peer' sack -> Reads packet peer peer'

theorem Handles.reads (h : Handles env packet peer o)
    (htype : packet.getType = .syn ∨ packet.getType = .ack ∨ packet.getType = .data) :
    Reads packet peer o.peer := by
  cases h with
  | newSyn hstate => exact .opened hstate
  | ack _ _ h => exact .kept (handleAck_frame h).1 (handleAck_lastAcked_le h)
  | data hstate htype h =>
      rcases handleData_effect h with ⟨sack, heffect⟩
      exact .data htype (by rcases hstate with h | h <;> simp [h]) heffect
  | unexpectedSyn => exact .kept ⟨rfl, rfl, rfl, rfl⟩ (Nat.le_refl _)
  | other => exact .kept ⟨rfl, rfl, rfl, rfl⟩ (Nat.le_refl _)
  | synAck _ hother | state _ hother | fin _ hother | reset hother =>
      simp [hother] at htype

end Packet

/-!
## A peer that sends
-/

/-- The numbers of the created packets increase and lie below the counter, and the
data of the window is created. -/
structure Sending (created : List Packet) (peer : UtpSocketState) : Prop where
  room : WaitsWithRoom peer
  numbered : Ascending (fun p : Packet => p.seqNr.toNat) peer.seqNr.toNat created
  window : forall (k : UInt16) p, peer.sentWindow[k]? = some p -> p.getType = .data ->
    p ∈ created

/-- The entry of a client, whose window holds the `Syn` and data. -/
structure WriterEntry (created : List Packet) (peer : UtpSocketState) : Prop extends
    Sending created peer where
  notNew : peer.state ≠ .new
  types : forall (k : UInt16) p, peer.sentWindow[k]? = some p ->
    p.getType = .syn ∨ p.getType = .data

section Writer

variable {created more : List Packet} {peer : UtpSocketState} {id : UInt16}

theorem FromWriter.mono {p : Packet} (h : FromWriter created p) :
    FromWriter (created ++ more) p :=
  h.imp_right (Or.imp_right (List.mem_append_left _))

theorem WriterEntry.fromWriter (h : WriterEntry created peer) {k : UInt16} {p : Packet}
    (hp : peer.sentWindow[k]? = some p) : FromWriter created p :=
  (h.types k p hp).imp_right fun htype => Or.inr (h.window k p hp htype)

theorem sending_newPeer (addr : SocketAddr) (first : Packet) :
    Sending [] (newPeer addr first) where
  room hwaiting := by cases hwaiting
  numbered := .nil _ _
  window k p hp := by cases hp

theorem writerEntry_connectPeer (id senderId : UInt16) (addr : SocketAddr) :
    WriterEntry [] (connectPeer id senderId addr) := by
  have hsyn : forall (k : UInt16) p,
    (connectPeer id senderId addr).sentWindow[k]? = some p ->
      p.getType = .syn := by
    intro k p hp
    simp only [connectPeer, connectLocked, getElem?_insert_eq] at hp
    split at hp
    · cases hp
      exact getType_synPacket ..
    · cases hp
  exact
    { notNew := by simp [connectPeer, connectLocked]
      room := fun _ => by
        show (1 : UInt16).toNat < 65535
        decide
      numbered := .nil _ _
      window := fun k p hp htype => by cases (hsyn k p hp).symm.trans htype
      types := fun k p hp => Or.inl (hsyn k p hp) }

theorem toNat_seqNr_createdPackets {chunks : List (List UInt8)}
    (hroom : peer.seqNr.toNat + chunks.length < 65535) {i : Nat} {p : Packet}
    (hp : (createdPackets id peer chunks)[i]? = some p) :
    p.seqNr.toNat = peer.seqNr.toNat + i := by
  have hi := (List.getElem?_eq_some_iff.mp hp).1
  rw [length_createdPackets] at hi
  rw [(createdPackets_spec hp).2.1, UInt16.toNat_add, UInt16.toNat_ofNat']
  omega

theorem toNat_seqNr_enqueue {buf : List UInt8}
    (hroom : peer.seqNr.toNat + (chunksOf buf).length < 65535) :
    (enqueue id buf peer).seqNr.toNat = peer.seqNr.toNat + (chunksOf buf).length := by
  rw [enqueue, foldl_enqueueChunk]
  show (peer.seqNr + UInt16.ofNat (chunksOf buf).length).toNat = _
  rw [UInt16.toNat_add, UInt16.toNat_ofNat']
  omega

theorem Sending.enqueue (h : Sending created peer) {buf : List UInt8}
    (hroom : peer.seqNr.toNat + (chunksOf buf).length < 65535) :
    Sending (created ++ createdPackets id peer (chunksOf buf))
      (Utp.enqueue id buf peer) where
  room _ := by
    rw [toNat_seqNr_enqueue hroom]
    exact hroom
  numbered := by
    rw [toNat_seqNr_enqueue hroom, ← length_createdPackets peer (chunksOf buf)]
    exact h.numbered.append_consecutive (Nat.le_refl _)
      fun i p hp => toNat_seqNr_createdPackets hroom hp
  window k p hp htype := by
    rw [Utp.enqueue] at hp
    rcases sentWindow_foldl_origin hp with ⟨i, hi, -⟩ | ⟨hold, -⟩
    · exact List.mem_append_right _ (List.mem_of_getElem? hi)
    · exact List.mem_append_left _ (h.window k p hold htype)

theorem Sending.handles (h : Sending created peer) {env : Env} {packet : Packet}
    {o : Outcome} (hhandles : Handles env packet peer o) (rest : List Packet) :
    Sending created { o.peer with incomingBuffer := rest } where
  room := (hhandles.seqNr_le h.room).2
  numbered := h.numbered.mono (hhandles.seqNr_le h.room).1
  window k p hp := h.window k p (hhandles.window_kept hp)

theorem WriterEntry.enqueue (h : WriterEntry created peer) {buf : List UInt8}
    (hroom : peer.seqNr.toNat + (chunksOf buf).length < 65535) :
    WriterEntry (created ++ createdPackets id peer (chunksOf buf))
      (Utp.enqueue id buf peer) where
  toSending := h.toSending.enqueue hroom
  notNew := by
    rw [Utp.enqueue, foldl_enqueueChunk]
    exact h.notNew
  types k p hp := (sentWindow_foldl_mem hp).elim (h.types k p) Or.inr

theorem WriterEntry.handles (h : WriterEntry created peer) {env : Env} {packet : Packet}
    {o : Outcome} (hhandles : Handles env packet peer o) (rest : List Packet) :
    WriterEntry created { o.peer with incomingBuffer := rest } where
  toSending := h.toSending.handles hhandles rest
  notNew hnew := by
    have hearly := hhandles.moves.early (Or.inl hnew)
    exact h.notNew (hearly.trans hnew)
  types k p hp := h.types k p (hhandles.window_kept hp)

theorem WriterEntry.emitted (h : WriterEntry created peer) {env : Env} {packet q : Packet}
    {o : Outcome} (hhandles : Handles env packet peer o) (hpacket : FromReader packet)
    (hq : q ∈ o.emitted) : FromWriter created q := by
  rcases hhandles.emitted_origin hq with ⟨k, hk⟩ | hreply
  · exact h.fromWriter hk
  · generalize hold : packet.getType = old at hreply
    generalize hnew : q.getType = new at hreply
    cases hreply with
    | opened => exact absurd hold hpacket.1
    | unexpected => exact absurd hold hpacket.1
    | acknowledged => exact Or.inr (Or.inl hnew)
    | closed => exact absurd hold hpacket.2

end Writer

/-!
## A peer that receives
-/

/-- What a peer has delivered, forwarded or not, is numbered in increasing order up to
the mark, and carries created packets, and so does what is stored. -/
structure Delivering (created forwarded : List Packet)
    (peer : UtpSocketState) : Prop where
  delivered : Ascending (fun p : Packet => p.seqNr.toNat) (peer.lastAcked.toNat + 1)
    (forwarded ++ peer.incomingBuffer)
  carried : forall p, p ∈ forwarded ++ peer.incomingBuffer -> Carried created p
  stored : forall (k : UInt16) p, peer.outOfOrder[k]? = some p ->
    p.seqNr = k ∧ Carried created p

/-- The entry of a server, which sends nothing but data of its own accord. -/
structure ReaderEntry (created forwarded : List Packet)
    (peer : UtpSocketState) : Prop extends
    Delivering created forwarded peer where
  fresh : peer.state = .new -> forwarded ++ peer.incomingBuffer = []
  types : forall (k : UInt16) p, peer.sentWindow[k]? = some p -> p.getType = .data

section Reader

variable {created more forwarded : List Packet} {packet : Packet}
  {peer peer' : UtpSocketState} {sack : List UInt8}

theorem Carried.mono {p : Packet} (h : Carried created p) :
    Carried (created ++ more) p := by
  rcases h with ⟨c, hc, hcarries⟩
  exact ⟨c, List.mem_append_left _ hc, hcarries⟩

theorem Delivering.mono (h : Delivering created forwarded peer) :
    Delivering (created ++ more) forwarded peer where
  delivered := h.delivered
  carried p hp := (h.carried p hp).mono
  stored k p hp := ⟨(h.stored k p hp).1, (h.stored k p hp).2.mono⟩

theorem ReaderEntry.mono (h : ReaderEntry created forwarded peer) :
    ReaderEntry (created ++ more) forwarded peer :=
  { h with toDelivering := h.toDelivering.mono }

theorem delivering_fresh (hbuffer : peer.incomingBuffer = [])
    (hstored : peer.outOfOrder = ∅) :
    Delivering created [] peer where
  delivered := by
    rw [hbuffer]
    exact .nil _ _
  carried p hp := by
    rw [hbuffer] at hp
    cases hp
  stored k p hp := by
    rw [hstored] at hp
    cases hp

theorem readerEntry_newPeer (addr : SocketAddr) (first : Packet) :
    ReaderEntry created [] (newPeer addr first) where
  toDelivering := delivering_fresh rfl rfl
  fresh _ := rfl
  types k p hp := by cases hp

theorem mem_following {e : UInt16 × Packet} (he : e ∈ following packet peer) :
    peer.outOfOrder[e.1]? = some e.2 :=
  ExtTreeMap.mem_toList_iff_getElem?_eq_some.mp ((continuing_front _ _).subset he)

theorem toNat_seqNr_following
    (hstored : forall (k : UInt16) p, peer.outOfOrder[k]? = some p -> p.seqNr = k)
    {i : Nat} {p : Packet}
    (hp : (packet :: (following packet peer).map Prod.snd)[i]? = some p) :
    p.seqNr.toNat = packet.seqNr.toNat + i := by
  cases i with
  | zero =>
      cases hp
      rfl
  | succ i =>
      rw [List.getElem?_cons_succ, List.getElem?_map] at hp
      rcases Option.map_eq_some_iff.mp hp with ⟨⟨seq, q⟩, he, rfl⟩
      have hkey := hstored seq q (mem_following (List.mem_of_getElem? he))
      have hcontinues := continues_continuing packet.seqNr peer.outOfOrder.toList
      show q.seqNr.toNat = _
      rw [hkey, hcontinues.toNat_getElem he]
      omega

theorem Delivering.data (h : Delivering created forwarded peer)
    (hcarried : Carried created packet) (heffect : DataEffect packet peer peer' sack) :
    Delivering created forwarded peer' where
  delivered := by
    cases heffect with
    | inOrder hseq =>
        have hcontinues := continues_continuing packet.seqNr peer.outOfOrder.toList
        have hlast : (lastKey packet.seqNr (following packet peer)).toNat + 1 =
            packet.seqNr.toNat + (packet ::
              (following packet peer).map Prod.snd).length := by
          rw [following, hcontinues.toNat_lastKey, List.length_cons, List.length_map]
          omega
        show Ascending _ ((lastKey packet.seqNr (following packet peer)).toNat + 1)
          (forwarded ++ (peer.incomingBuffer ++ _))
        rw [← List.append_assoc, hlast]
        exact h.delivered.append_consecutive (Nat.le_of_eq hseq.symm)
          fun i p hp => toNat_seqNr_following (fun k q hq => (h.stored k q hq).1) hp
    | early => exact h.delivered
    | old => exact h.delivered
  carried p hp := by
    cases heffect with
    | inOrder =>
        rw [← List.append_assoc] at hp
        rcases List.mem_append.mp hp with hold | hnew
        · exact h.carried p hold
        · rcases List.mem_cons.mp hnew with rfl | hstored
          · exact hcarried
          · rcases List.mem_map.mp hstored with ⟨e, he, rfl⟩
            exact (h.stored _ _ (mem_following he)).2
    | early => exact h.carried p hp
    | old => exact h.carried p hp
  stored k p hp := by
    cases heffect with
    | inOrder => exact h.stored k p (eraseAll_kept hp)
    | early =>
        rw [getElem?_insert_eq] at hp
        split at hp
        · rename_i hk
          cases hp
          exact ⟨hk, hcarried⟩
        · exact h.stored k p hp
    | old => exact h.stored k p hp

theorem Delivering.kept (h : Delivering created forwarded peer)
    (hbuffer : peer'.incomingBuffer = peer.incomingBuffer)
    (hstored : peer'.outOfOrder = peer.outOfOrder)
    (hle : peer.lastAcked.toNat <= peer'.lastAcked.toNat) :
    Delivering created forwarded peer' where
  delivered := by
    rw [hbuffer]
    exact h.delivered.mono (Nat.succ_le_succ hle)
  carried := by
    rw [hbuffer]
    exact h.carried
  stored := by
    rw [hstored]
    exact h.stored

theorem Delivering.moved (h : Delivering created forwarded peer)
    (hnone : forwarded ++ peer.incomingBuffer = [])
    (hbuffer : peer'.incomingBuffer = peer.incomingBuffer)
    (hstored : peer'.outOfOrder = peer.outOfOrder) :
    Delivering created forwarded peer' where
  delivered := by
    rw [hbuffer, hnone]
    exact .nil _ _
  carried := by
    rw [hbuffer]
    exact h.carried
  stored := by
    rw [hstored]
    exact h.stored

theorem Delivering.forward (h : Delivering created forwarded peer)
    {popped lost rest : List Packet}
    (hbuffer : popped ++ lost ++ rest = peer.incomingBuffer) :
    Delivering created (forwarded ++ popped) { peer with incomingBuffer := rest } ∧
      (forwarded ++ peer.incomingBuffer = [] -> forwarded ++ popped ++ rest = []) := by
  have hsub : (forwarded ++ popped ++ rest).Sublist
    (forwarded ++ peer.incomingBuffer) := by
    rw [← hbuffer, List.append_assoc, List.append_assoc]
    exact List.Sublist.append_left (List.Sublist.append_left
      (List.sublist_append_right _ _) _) _
  refine ⟨⟨h.delivered.sublist hsub, fun p hp =>
    h.carried p (hsub.subset hp), h.stored⟩, ?_⟩
  intro hnone
  rw [hnone] at hsub
  exact List.sublist_nil.mp hsub

theorem ReaderEntry.reads (h : ReaderEntry created forwarded peer)
    (hcarried : packet.getType = .data -> Carried created packet)
    (hreads : Reads packet peer peer')
    (hkept : forall (k : UInt16) p, peer'.sentWindow[k]? = some p ->
      peer.sentWindow[k]? = some p) : ReaderEntry created forwarded peer' := by
  cases hreads with
  | opened hnew =>
      have hnone := h.fresh hnew
      exact ⟨h.toDelivering.moved hnone rfl rfl, fun _ => hnone, h.types⟩
  | kept hsame hle =>
      refine ⟨h.toDelivering.kept hsame.incomingBuffer hsame.outOfOrder hle, ?_,
        fun k p hp => h.types k p (hkept k p hp)⟩
      rw [hsame.state, hsame.incomingBuffer]
      exact h.fresh
  | data htype hopen heffect =>
      refine ⟨h.toDelivering.data (hcarried htype) heffect, fun hnew => ?_,
        fun k p hp => h.types k p (hkept k p hp)⟩
      rw [heffect.state] at hnew
      exact absurd hnew hopen

theorem ReaderEntry.forward (h : ReaderEntry created forwarded peer)
    {popped lost rest : List Packet}
    (hbuffer : popped ++ lost ++ rest = peer.incomingBuffer) :
    ReaderEntry created (forwarded ++ popped) { peer with incomingBuffer := rest } where
  toDelivering := (h.toDelivering.forward hbuffer).1
  fresh hnew := (h.toDelivering.forward hbuffer).2 (h.fresh hnew)
  types := h.types

theorem ReaderEntry.enqueue (h : ReaderEntry created forwarded peer) (id : UInt16)
    (buf : List UInt8) : ReaderEntry created forwarded (Utp.enqueue id buf peer) := by
  have hwindow : forall (k : UInt16) p,
      (Utp.enqueue id buf peer).sentWindow[k]? = some p -> p.getType = .data := by
    intro k p hp
    exact (sentWindow_foldl_mem hp).elim (h.types k p) fun htype => htype
  rw [Utp.enqueue, foldl_enqueueChunk] at hwindow ⊢
  exact ⟨⟨h.delivered, h.carried, h.stored⟩, h.fresh, hwindow⟩

theorem ReaderEntry.emitted (h : ReaderEntry created forwarded peer) {env : Env}
    {q : Packet} {o : Outcome} (hhandles : Handles env packet peer o)
    (hpacket : packet.getType ≠ .fin) (hq : q ∈ o.emitted) : FromReader q := by
  rcases hhandles.emitted_origin hq with ⟨k, hk⟩ | hreply
  · rw [FromReader, h.types k q hk]
    simp
  · generalize hold : packet.getType = old at hreply
    generalize hnew : q.getType = new at hreply
    rw [FromReader, hnew]
    cases hreply with
    | closed => exact absurd hold hpacket
    | opened => simp
    | unexpected => simp
    | acknowledged => simp

end Reader

/-!
## Both conversations
-/

/-- What holds of the client's conversation with the server, `l`, and the server's
with the client, `r`. -/
structure Paired (l r : Conversation) : Prop where
  unused : l.entry = none -> l.sent = [] ∧ l.created = []
  writer : forall peer, l.entry = some peer -> WriterEntry l.created peer
  created : forall p, p ∈ l.created -> p.getType = .data ∧ p.bytes.length <= 26
  toServer : forall p, p ∈ l.sent -> FromWriter l.created p
  silent : r.entry = none -> r.sent = [] ∧ r.forwarded = []
  reader : forall peer, r.entry = some peer -> ReaderEntry l.created r.forwarded peer
  toClient : forall p, p ∈ r.sent -> FromReader p
  /-- The server only knows a client that has sent something. -/
  met : l.sent = [] -> r.entry = none

section Arrival

variable {socket : UtpSocket} {arrival : Arrival} {buf : List UInt8}
  {addr target : SocketAddr}
  {entry : Option UtpSocketState} {first packet : Packet} {o : Outcome} {sender : Host}

theorem Handling.sent (h : Handling socket arrival buf addr entry first packet o)
    (hgenuine : genuine addr target sender arrival = true) (hbuf : buf.length = 26) :
    exists c, c ∈ addressed target sender.sent ∧ arrival.received = .ok (c.bytes, addr) ∧
      c.SameHeader packet ∧ (c.bytes.length <= 26 -> Carries packet c) := by
  rcases h.received with ⟨data, harrival, hfirst, hpacket⟩
  have hsent : ((addressed target sender.sent).any fun p => p.bytes = data) = true := by
    rw [genuine, harrival] at hgenuine
    simpa using hgenuine
  rcases List.any_eq_true.mp hsent with ⟨c, hc, hdata⟩
  have hdata : c.bytes = data := by simpa using hdata
  rcases h.longer with ⟨stale, hlonger⟩
  have hwhole : c.bytes = first.bytes ++ data.drop (recvLen buf data) := by
    rw [hfirst, hdata, List.take_append_drop]
  refine ⟨c, hc, by rw [harrival, hdata],
    (Packet.sameHeader_of_append hwhole).of_common hlonger.header, fun hfits => ?_⟩
  constructor
  · have hlen : recvLen buf data = data.length := by
      rw [recvLen, hbuf, Nat.min_eq_left (hdata ▸ hfits)]
    rw [hpacket, recvInto_eq, hlen, List.take_length, hdata]
    exact List.prefix_append _ _
  · rw [hpacket, length_recvInto, hbuf]

end Arrival

section Pair

variable {socket : UtpSocket} {a b : SocketAddr} {action : HostAction} {t : Talk}
  {l r : Conversation} {w : World}

theorem length_dataPacket_le {id : UInt16} {peer : UtpSocketState}
    {chunks : List (List UInt8)}
    {p : Packet} (hchunks : forall c, c ∈ chunks -> c.length <= 6)
    (hp : p ∈ createdPackets id peer chunks) :
    p.getType = .data ∧ p.bytes.length <= 26 := by
  rcases List.mem_iff_getElem?.mp hp with ⟨i, hi⟩
  rcases createdPackets_spec hi with ⟨htype, -, chunk, hchunk, hchain⟩
  have hlength := Chain.length_eq hchain
  have hchunk := hchunks chunk (List.mem_of_getElem? hchunk)
  rw [List.length_drop, headerSize, encodeBlocks, List.length_nil] at hlength
  exact ⟨htype, by omega⟩

theorem Paired.connected (h : Paired l r) {env : ConnectEnv} {sent : List Packet}
    (hnone : l.entry = none)
    (hsent : forall p, p ∈ sent -> p = synPacket socket.id (.new env.senderId)) :
    Paired (l.extend ⟨connectPeer socket.id env.senderId b, sent, [], []⟩) r := by
  rcases h.unused hnone with ⟨hnothing, hcreated⟩
  have hl : (l.extend ⟨connectPeer socket.id env.senderId b, sent, [], []⟩).created =
      l.created := List.append_nil _
  refine ⟨by simp [Conversation.extend], ?_, ?_, ?_, h.silent, ?_, h.toClient, ?_⟩
  · intro peer hpeer
    rw [hl, hcreated, ← Option.some.inj hpeer]
    exact writerEntry_connectPeer ..
  · rw [hl]
    exact h.created
  · intro p hp
    rw [hl]
    rcases List.mem_append.mp hp with hold | hnew
    · exact h.toServer p hold
    · rw [hsent p hnew]
      exact Or.inl (getType_synPacket ..)
  · rw [hl]
    exact h.reader
  · intro hempty
    exact h.met (List.append_eq_nil_iff.mp hempty).1

theorem Paired.wrote (h : Paired l r) {buf : List UInt8} {peer : UtpSocketState}
    {sent : List Packet} (hentry : l.entry = some peer)
    (hroom : peer.seqNr.toNat + (chunksOf buf).length < 65535)
    (hsent : forall p, p ∈ sent ->
      exists k : UInt16, (enqueue socket.id buf peer).sentWindow[k]? = some p) :
    Paired (l.extend ⟨enqueue socket.id buf peer, sent,
      createdPackets socket.id peer (chunksOf buf), []⟩) r := by
  have hwriter : WriterEntry _ (Utp.enqueue socket.id buf peer) :=
    (h.writer peer hentry).enqueue hroom
  refine ⟨by simp [Conversation.extend], ?_, ?_, ?_, h.silent, ?_, h.toClient, ?_⟩
  · intro peer' hpeer
    rw [← Option.some.inj hpeer]
    exact hwriter
  · intro p hp
    rcases List.mem_append.mp hp with hold | hnew
    · exact h.created p hold
    · exact length_dataPacket_le (fun c hc => length_le_of_mem_chunks hc) hnew
  · intro p hp
    rcases List.mem_append.mp hp with hold | hnew
    · exact (h.toServer p hold).mono
    · rcases hsent p hnew with ⟨k, hk⟩
      exact hwriter.fromWriter hk
  · intro peer' hpeer
    exact (h.reader peer' hpeer).mono
  · intro hempty
    exact h.met (List.append_eq_nil_iff.mp hempty).1

theorem Paired.clientHandled (h : Paired l r) {arrival : Arrival} {buf : List UInt8}
    {first packet : Packet} {o : Outcome} {sent forwarded rest : List Packet}
    (hhandling : Handling socket arrival buf b l.entry first packet o)
    (hpacket : exists c, c ∈ r.sent ∧ c.SameHeader packet) (hfront : sent <+: o.emitted) :
    Paired (l.extend ⟨{ o.peer with incomingBuffer := rest }, sent, [],
      forwarded⟩) r := by
  rcases hpacket with ⟨c, hc, hheader⟩
  have htype : FromReader packet := by
    rw [FromReader, hheader.packetType]
    exact h.toClient c hc
  cases hentry : l.entry with
  | none =>
      have hnone := h.met (h.unused hentry).1
      rw [(h.silent hnone).1] at hc
      cases hc
  | some peer =>
      have hhandles := hhandling.handles
      rw [entryFor, hentry, Option.getD_some] at hhandles
      have hwriter := h.writer peer hentry
      have hl : (l.extend ⟨{ o.peer with incomingBuffer := rest }, sent, [],
          forwarded⟩).created = l.created := List.append_nil _
      refine ⟨by simp [Conversation.extend], ?_, ?_, ?_, h.silent, ?_, h.toClient, ?_⟩
      · intro peer' hpeer
        rw [hl, ← Option.some.inj hpeer]
        exact hwriter.handles hhandles rest
      · rw [hl]
        exact h.created
      · intro p hp
        rw [hl]
        rcases List.mem_append.mp hp with hold | hnew
        · exact h.toServer p hold
        · exact hwriter.emitted hhandles htype (hfront.subset hnew)
      · rw [hl]
        exact h.reader
      · intro hempty
        exact h.met (List.append_eq_nil_iff.mp hempty).1

theorem Paired.serverWrote (h : Paired l r) {buf : List UInt8} {peer : UtpSocketState}
    {sent created : List Packet} (hentry : r.entry = some peer)
    (hsent : forall p, p ∈ sent ->
      exists k : UInt16, (enqueue socket.id buf peer).sentWindow[k]? = some p) :
    Paired l (r.extend ⟨enqueue socket.id buf peer, sent, created, []⟩) := by
  have hreader := (h.reader peer hentry).enqueue socket.id buf
  have hr : (r.extend ⟨enqueue socket.id buf peer, sent, created, []⟩).forwarded =
      r.forwarded := List.append_nil _
  refine ⟨h.unused, h.writer, h.created,
    h.toServer, by simp [Conversation.extend], ?_, ?_, ?_⟩
  · intro peer' hpeer
    rw [hr, ← Option.some.inj hpeer]
    exact hreader
  · intro p hp
    rcases List.mem_append.mp hp with hold | hnew
    · exact h.toClient p hold
    · rcases hsent p hnew with ⟨k, hk⟩
      rw [FromReader, hreader.types k p hk]
      simp
  · intro hempty
    cases hentry.symm.trans (h.met hempty)

theorem Paired.serverHandled (h : Paired l r) {arrival : Arrival} {buf : List UInt8}
    {first packet : Packet} {o : Outcome} {sent forwarded lost rest : List Packet}
    (hhandling : Handling socket arrival buf a r.entry first packet o)
    (hpacket : exists c, c ∈ l.sent ∧ c.SameHeader packet ∧
      (c.bytes.length <= 26 -> Carries packet c))
    (hfront : sent <+: o.emitted)
    (hbuffer : forwarded ++ lost ++ rest = o.peer.incomingBuffer) :
    Paired l (r.extend ⟨{ o.peer with incomingBuffer := rest }, sent, [],
      forwarded⟩) := by
  rcases hpacket with ⟨c, hc, hheader, hcarries⟩
  have htype : packet.getType = .syn ∨ packet.getType = .ack ∨
    packet.getType = .data := by
    rw [hheader.packetType]
    exact (h.toServer c hc).imp_right (Or.imp_right fun hmem => (h.created c hmem).1)
  have hcarried : packet.getType = .data -> Carried l.created packet := by
    intro hdata
    rw [hheader.packetType] at hdata
    rcases h.toServer c hc with hsyn | hack | hmem
    · cases hdata.symm.trans hsyn
    · cases hdata.symm.trans hack
    · exact ⟨c, hmem, hcarries (h.created c hmem).2⟩
  have hreader : ReaderEntry l.created r.forwarded (entryFor r.entry a first) := by
    cases hentry : r.entry with
    | none =>
        rw [(h.silent hentry).2]
        exact readerEntry_newPeer a first
    | some peer => exact h.reader peer hentry
  have hhandles := hhandling.handles
  have hafter := hreader.reads hcarried (hhandles.reads htype)
    fun k p hp => hhandles.window_kept hp
  refine ⟨h.unused, h.writer, h.created,
    h.toServer, by simp [Conversation.extend], ?_, ?_, ?_⟩
  · intro peer' hpeer
    rw [← Option.some.inj hpeer]
    exact hafter.forward hbuffer
  · intro p hp
    rcases List.mem_append.mp hp with hold | hnew
    · exact h.toClient p hold
    · refine hreader.emitted hhandles ?_ (hfront.subset hnew)
      intro hfin
      simp [hfin] at htype
  · intro hempty
    rw [hempty] at hc
    cases hc

end Pair

/-!
## Runs
-/

/-- The invariant of the system: no entry is connected elsewhere, and the two
conversations of the hosts with each other fit together. -/
structure World.Invariant (a b : SocketAddr) (w : World) : Prop where
  client : w.client.Wired
  server : w.server.Wired
  paired : Paired (w.client.conversation b) (w.server.conversation a)

section Run

variable {clientSocket serverSocket : UtpSocket} {a b : SocketAddr} {action : HostAction}
  {w w' : World}

theorem World.invariant_initial (a b : SocketAddr) : World.Invariant a b .initial where
  client := wired_initial
  server := wired_initial
  paired := {
    unused := fun _ => ⟨rfl, rfl⟩
    writer := fun peer hpeer => by cases hpeer
    created := fun p hp => by cases hp
    toServer := fun p hp => by cases hp
    silent := fun _ => ⟨rfl, rfl⟩
    reader := fun peer hpeer => by cases hpeer
    toClient := fun p hp => by cases hp
    met := fun _ => rfl }

theorem World.Invariant.clientStep (h : w.Invariant a b)
    (hallows : w.allowsClient a b action = true) {client : Host}
    (hstep : w.client.step clientSocket action = some client) :
    World.Invariant a b { w with client := client } where
  client := wired_step h.client hstep
  server := h.server
  paired := by
    rcases conversation_of_step h.client hstep b with hsame | ⟨t, haddr, htalks, hsame⟩
    · show Paired (client.conversation b) _
      rw [hsame]
      exact h.paired
    · show Paired (client.conversation b) _
      rw [hsame]
      cases htalks with
      | connected hnone hsent => exact h.paired.connected hnone hsent
      | wrote htarget hentry _ hsent =>
          refine h.paired.wrote hentry ?_ hsent
          simpa [World.allowsClient, hasRoom, htarget, hentry] using hallows
      | handled hhandling hfront =>
          simp only [World.allowsClient, Bool.and_eq_true, decide_eq_true_eq] at hallows
          rcases hhandling.sent hallows.2 hallows.1 with ⟨c, hc, -, hheader, -⟩
          exact h.paired.clientHandled hhandling ⟨c, hc, hheader⟩ hfront

theorem World.Invariant.serverStep (h : w.Invariant a b)
    (hallows : w.allowsServer a b action = true) {server : Host}
    (hstep : w.server.step serverSocket action = some server) :
    World.Invariant a b { w with server := server } where
  client := h.client
  server := wired_step h.server hstep
  paired := by
    rcases conversation_of_step h.server hstep a with hsame | ⟨t, haddr, htalks, hsame⟩
    · show Paired _ (server.conversation a)
      rw [hsame]
      exact h.paired
    · show Paired _ (server.conversation a)
      rw [hsame]
      cases htalks with
      | connected =>
          cases haddr
          simp [World.allowsServer] at hallows
      | wrote _ hentry _ hsent => exact h.paired.serverWrote hentry hsent
      | handled hhandling hfront _ hbuffer =>
          simp only [World.allowsServer, Bool.and_eq_true, decide_eq_true_eq] at hallows
          rcases hhandling.sent hallows.2 hallows.1 with ⟨c, hc, -, hcarries⟩
          exact h.paired.serverHandled hhandling ⟨c, hc, hcarries⟩ hfront hbuffer

theorem World.invariant_step {action : WorldAction} (h : w.Invariant a b)
    (hstep : w.step clientSocket serverSocket a b action = some w') :
    w'.Invariant a b := by
  cases action with
  | client action =>
      rw [World.step] at hstep
      split at hstep
      · rename_i hallows
        rcases Option.map_eq_some_iff.mp hstep with ⟨client, hclient, rfl⟩
        exact h.clientStep hallows hclient
      · cases hstep
  | server action =>
      rw [World.step] at hstep
      split at hstep
      · rename_i hallows
        rcases Option.map_eq_some_iff.mp hstep with ⟨server, hserver, rfl⟩
        exact h.serverStep hallows hserver
      · cases hstep

theorem World.invariant_of_run {actions : List WorldAction}
    (hrun : run (World.step clientSocket serverSocket a b) .initial actions = some w) :
    w.Invariant a b :=
  run_invariant (fun _ _ _ => World.invariant_step) (World.invariant_initial a b) hrun

end Run

/-!
## What the server forwards
-/

/-- What was forwarded are packets that were created, each once and in the order of
their creation, with stale bytes behind those that do not fill the buffer. -/
structure ForwardsCreated (forwarded created : List Packet) : Prop where
  carried : List.SublistForall₂ Carries forwarded created
  exact : (forall c, c ∈ created -> c.bytes.length = 26) -> forwarded.Sublist created

theorem Carries.eq {p c : Packet} (h : Carries p c)
    (hfull : c.bytes.length = 26) : p = c := by
  rcases h with ⟨⟨stale, hbytes⟩, hlength⟩
  rw [← hbytes, List.length_append, hfull] at hlength
  have hnil : stale = [] := List.length_eq_zero_iff.mp (by omega)
  rw [hnil, List.append_nil] at hbytes
  cases p
  cases c
  cases hbytes
  rfl

theorem eq_of_carries {forwarded chosen : List Packet}
    (h : List.Forall₂ Carries forwarded chosen)
    (hfull : forall c, c ∈ chosen -> c.bytes.length = 26) : forwarded = chosen := by
  induction h with
  | nil => rfl
  | cons hcarries hrest ih =>
      rw [hcarries.eq (hfull _ (List.mem_cons_self ..)),
        ih fun c hc => hfull c (List.mem_cons_of_mem _ hc)]

theorem forwardsCreated_of_carried {forwarded created : List Packet}
    (hcarried : List.SublistForall₂ Carries forwarded created) :
    ForwardsCreated forwarded created where
  carried := hcarried
  exact := by
    intro hfull
    rcases List.sublistForall₂_iff.mp hcarried with ⟨chosen, hchosen, hsub⟩
    rw [eq_of_carries hchosen fun c hc => hfull c (hsub.subset hc)]
    exact hsub

theorem Paired.forwardsCreated {l r : Conversation} (h : Paired l r) :
    ForwardsCreated r.forwarded l.created := by
  apply forwardsCreated_of_carried
  cases hr : r.entry with
  | none =>
      rw [(h.silent hr).2]
      exact .nil
  | some server =>
      cases hl : l.entry with
      | none => cases hr.symm.trans (h.met (h.unused hl).1)
      | some client =>
          have hreader := h.reader server hr
          have hdelivered := hreader.delivered.sublist (List.sublist_append_left _ _)
          refine sublistForall₂_of_carried (h.writer client hl).numbered.increasing
            hdelivered.increasing ?_
          intro p hp
          rcases hreader.carried p (List.mem_append_left _ hp) with ⟨c, hc, hcarries⟩
          exact ⟨c, hc, congrArg UInt16.toNat hcarries.sameHeader.seqNr, hcarries⟩

/-- In every run of a client and a server, with anything else on the network, the
packets that the server forwards as coming from the client are some of those that
the client has created for it, each once and in order. -/
theorem World.forwards_created (clientSocket serverSocket : UtpSocket) (a b : SocketAddr)
    {actions : List WorldAction} {w : World}
    (hrun : run (World.step clientSocket serverSocket a b) .initial actions = some w) :
    ForwardsCreated (addressed a w.server.forwarded) (addressed b w.client.created) :=
  (World.invariant_of_run hrun).paired.forwardsCreated

def receives (p : Packet) (port : UInt16) : HostAction :=
  .receive (.healthy p.bytes (loopback port)) (List.replicate 26 0)

/-- A handshake between the ports one and two and a write of two packets.  The first
arrives twice, the second is lost, and a third party sends a packet of its own. -/
def lossyWorld : List WorldAction :=
  let syn := synPacket 8 (.new 10)
  let written := dataPacket 8 (openPeer (loopback 2)) [1, 2, 3, 4, 5, 6]
  [.client (.connect (loopback 2) openConnect),
    .server (receives syn 1),
    .client (receives (prepareReply (healthyEnv 8) syn .state 1 1) 2),
    .client (.write (.first (some (loopback 2))) (healthyEnv 8) [1, 2, 3, 4, 5, 6, 7]),
    .server (receives written 1),
    .server (receives (barePacket .data 9 9) 3),
    .server (receives written 1)]

theorem World.forwards_created_lossy :
    exists w, run (World.step plainSocket plainSocket (loopback 1) (loopback 2)) .initial
        lossyWorld = some w ∧
      ForwardsCreated (addressed (loopback 1) w.server.forwarded)
        (addressed (loopback 2) w.client.created) ∧
      (addressed (loopback 1) w.server.forwarded).length = 1 ∧
      (addressed (loopback 2) w.client.created).length = 2 := by
  have hruns : (run (World.step plainSocket plainSocket (loopback 1)
    (loopback 2)) .initial
      lossyWorld).map (fun w => ((addressed (loopback 1) w.server.forwarded).length,
        (addressed (loopback 2) w.client.created).length)) = some (1, 2) := by
    decide +kernel
  rcases Option.map_eq_some_iff.mp hruns with ⟨w, hrun, hlengths⟩
  exact ⟨w, hrun, World.forwards_created plainSocket plainSocket _ _ hrun,
    congrArg Prod.fst hlengths, congrArg Prod.snd hlengths⟩

end Utp
