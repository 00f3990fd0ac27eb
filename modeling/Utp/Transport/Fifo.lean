import Utp.Foundation.Possibility
import Utp.Socket.SynAcked
import Utp.Transport.Transfer

/-!
# A network that keeps the order

Client and server from `connect` on, over a queue in each direction that loses nothing
and hands over only its head.  Both sides write, but in turn: a side writes while it has
the turn, and takes it over when both queues are empty.  Then everything written is
delivered, in order, but for the first packet of the accepting side: its number is not
ahead of what its peer has had, so that it is acknowledged nowhere and stays in the
window.
-/

namespace Utp

open Foundation

/-!
## The system
-/

inductive Side where
  | client
  | server
  deriving DecidableEq

namespace Side

def other : Side -> Side
  | .client => .server
  | .server => .client

/-- How many packets of a side its peer never delivers. -/
def skips : Side -> Nat
  | .client => 0
  | .server => 1

@[simp] theorem other_other {side : Side} : side.other.other = side := by
  cases side <;> rfl

theorem other_ne {side : Side} : side.other ≠ side := by
  cases side <;> decide

theorem eq_or_eq_other (side x : Side) : x = side ∨ x = side.other := by
  cases x <;> cases side <;> decide

end Side

/-- A peer state, what is on its way to it, the buffers it has written, the packets
created for them, and what it has delivered. -/
structure Party where
  peer : UtpSocketState
  inbox : List Packet
  written : List (List UInt8)
  created : List Packet
  pushed : List Packet

structure Fifo where
  party : Side -> Party
  turn : Side

namespace Fifo

/-- Behind `connect`, with the `Syn` on its way to a server that does not know the
client. -/
def initial (id senderId : UInt16) (addr clientAddr : SocketAddr) : Fifo :=
  let syn := synPacket id (.new senderId)
  { party := fun
      | .client => ⟨connectPeer id senderId addr, [], [], [], []⟩
      | .server => ⟨newPeer clientAddr syn, [syn], [], [], []⟩
    turn := .client }

inductive Action where
  | write (side : Side) (env : Env) (buf : List UInt8) (addr : SocketAddr)
  | deliver (side : Side) (env : Env)
  | forward (side : Side) (channel : Nat -> Except String Unit)

def Action.delivers : Action -> Bool
  | .deliver _ _ => true
  | _ => false

def write (side : Side) (env : Env) (buf : List UInt8) (addr : SocketAddr) (s : Fifo) :
    Fifo :=
  let own := s.party side
  let o := sendPackets env.reliable buf addr own.peer
  { party := fun x =>
      if x = side then
        { own with
          peer := o.peer
          written := own.written ++ [buf]
          created := own.created ++ createdPackets env.id own.peer (chunksOf buf) }
      else
        { s.party x with inbox := (s.party x).inbox ++ o.sent.map Prod.fst }
    turn := side }

def handOver (side : Side) (rest : List Packet) (o : Outcome) (s : Fifo) : Fifo :=
  let own := s.party side
  { s with
    party := fun x =>
      if x = side then
        { own with
          peer := o.peer
          inbox := rest
          pushed := own.pushed ++
            o.peer.incomingBuffer.drop own.peer.incomingBuffer.length }
      else
        { s.party x with inbox := (s.party x).inbox ++ o.emitted } }

def drained (side : Side) (rest : List Packet) (s : Fifo) : Fifo :=
  { s with
    party := fun x =>
      { s.party x with
        peer := { (s.party x).peer with
          incomingBuffer := if x =
            side then rest else (s.party x).peer.incomingBuffer } } }

def total (s : Fifo) : Nat :=
  (s.party .client).created.length + (s.party .server).created.length

def Quiet (s : Fifo) : Prop := forall side, (s.party side).inbox = []

/-- A side may write: it is connected, and has the turn or can take it over. -/
def MayWrite (side : Side) (s : Fifo) : Prop :=
  (s.party side).peer.state = .connected ∧
    (s.turn = side ∨ (s.party side).inbox = [] ∧ (s.party side.other).inbox = [])

instance (side : Side) (s : Fifo) : Decidable (MayWrite side s) :=
  inferInstanceAs (Decidable (_ ∧ _))

def step (limit : Nat) (s : Fifo) : Action -> Option Fifo
  | .write side env buf addr =>
      if MayWrite side s ∧ s.total + (chunksOf buf).length <= limit then
        some (s.write side env buf addr)
      else
        none
  | .deliver side env =>
      match (s.party side).inbox with
      | [] => none
      | p :: rest =>
          (handlePacket env p (s.party side).peer).toOption.map fun o =>
            s.handOver side rest o
  | .forward side channel =>
      let rest := (Utp.forward channel (s.party side).peer.incomingBuffer []).2.1
      some (s.drained side rest)

inductive Moves (limit : Nat) (s : Fifo) : Action -> Fifo -> Prop where
  | write {side : Side} (env : Env) (buf : List UInt8) (addr : SocketAddr) :
      MayWrite side s -> s.total + (chunksOf buf).length <= limit ->
      Moves limit s (.write side env buf addr) (s.write side env buf addr)
  | deliver {side : Side} {env : Env} {p : Packet} {rest : List Packet} {o : Outcome} :
      (s.party side).inbox = p :: rest ->
        handlePacket env p (s.party side).peer = .ok o ->
      Moves limit s (.deliver side env) (s.handOver side rest o)
  | forward (side : Side) (channel : Nat -> Except String Unit) (rest : List Packet) :
      Moves limit s (.forward side channel) (s.drained side rest)

section Step

variable {limit : Nat} {s s' : Fifo} {side x : Side} {env : Env} {buf : List UInt8}
  {addr : SocketAddr} {rest : List Packet} {o : Outcome}

theorem moves_of_step {a : Action} (h : step limit s a = some s') :
    Moves limit s a s' := by
  cases a with
  | write side env buf addr =>
      rw [step] at h
      split at h
      · rename_i hmay
        cases h
        exact .write env buf addr hmay.1 hmay.2
      · cases h
  | deliver side env =>
      rw [step] at h
      split at h
      · cases h
      · rename_i p rest hinbox
        rcases Option.map_eq_some_iff.mp h with ⟨o, ho, rfl⟩
        exact .deliver hinbox (toOption_eq_some.mp ho)
  | forward side channel =>
      cases h
      exact .forward side channel _

theorem step_deliver {p : Packet} (hinbox : (s.party side).inbox = p :: rest)
    (ho : handlePacket env p (s.party side).peer = .ok o) :
    step limit s (.deliver side env) = some (s.handOver side rest o) := by
  rw [step, hinbox]
  show ((handlePacket env p (s.party side).peer).toOption.map _) = _
  rw [ho]
  rfl

theorem party_write_self :
    (s.write side env buf addr).party side =
      { s.party side with
        peer := (sendPackets env.reliable buf addr (s.party side).peer).peer
        written := (s.party side).written ++ [buf]
        created := (s.party side).created ++
          createdPackets env.id (s.party side).peer (chunksOf buf) } :=
  if_pos rfl

theorem party_write_ne (hne : x ≠ side) :
    (s.write side env buf addr).party x =
      { s.party x with
        inbox := (s.party x).inbox ++
          (sendPackets env.reliable buf addr (s.party side).peer).sent.map Prod.fst } :=
  if_neg hne

theorem party_handOver_self :
    (s.handOver side rest o).party side =
      { s.party side with
        peer := o.peer
        inbox := rest
        pushed := (s.party side).pushed ++
          o.peer.incomingBuffer.drop (s.party side).peer.incomingBuffer.length } :=
  if_pos rfl

theorem party_handOver_ne (hne : x ≠ side) :
    (s.handOver side rest o).party x =
      { s.party x with inbox := (s.party x).inbox ++ o.emitted } :=
  if_neg hne

end Step

/-!
## One side has the turn
-/

/-- How far the numbers of a side are behind what its peer waits for. -/
def lag (s : Fifo) (side : Side) : Nat := side.skips - (s.party side).created.length

def skipped (s : Fifo) (side : Side) : List Packet :=
  (s.party side).created.take side.skips

/-- The side with the turn sends; everything the other side has written is delivered. -/
structure Level (side : Side) (s : Fifo) (pending : List Packet) : Prop where
  transfer : Transfer (s.lag side) (s.skipped side) pending (s.party side).peer
    (s.party side.other).peer (s.party side.other).inbox (s.party side).inbox
  rests : Resting (s.lag side.other) (s.skipped side.other) (s.party side.other).peer
  stored : (s.party side).peer.outOfOrder = ∅
  sent : (s.party side).created.drop side.skips = (s.party side.other).pushed ++ pending
  back : (s.party side.other).created.drop side.other.skips = (s.party side).pushed
  fits : (s.party side.other).peer.lastAcked.toNat + pending.length <= s.total + 1

section Level

variable {limit : Nat} {s s' : Fifo} {side : Side} {pending : List Packet} {env : Env}

theorem Level.switch (h : Level side s pending) (hquiet : (s.party side).inbox = [])
    (hquiet' : (s.party side.other).inbox = []) : Level side.other s [] := by
  have htransfer := h.transfer
  rw [hquiet, hquiet'] at htransfer
  have hnil := htransfer.pending_nil
  have hlevel := htransfer.mark_reached
  have hfits := h.fits
  refine { transfer := ?_, rests := ?_, stored := ?_, sent := ?_, back := ?_, fits := ?_ }
  · rw [Side.other_other, hquiet, hquiet']
    exact h.rests.transfer htransfer.receiver_state htransfer.sender_state h.stored hlevel
  · rw [Side.other_other]
    exact htransfer.rests
  · exact htransfer.stored
  · rw [Side.other_other, List.append_nil]
    exact h.back
  · rw [Side.other_other, h.sent, hnil, List.append_nil]
  · rw [Side.other_other, hlevel, List.length_nil]
    omega

theorem total_write {buf : List UInt8} {addr : SocketAddr} :
    (s.write side env buf addr).total = s.total + (chunksOf buf).length := by
  have hlength := @length_createdPackets env.id (s.party side).peer (chunksOf buf)
  cases side <;> simp [total, write, List.length_append, hlength] <;> omega

theorem Level.write (h : Level side s pending) (env : Env) {buf : List UInt8}
    (addr : SocketAddr) (hfit : s.total + (chunksOf buf).length <= limit)
    (hlimit : limit <= 65533) :
    exists pending', Level side (s.write side env buf addr) pending' := by
  have hopen : (s.party side).peer.state ≠ .closed := by
    rw [h.transfer.sender_state]
    decide
  have hcount := h.transfer.count
  have hfits := h.fits
  have hroom : (s.party side).peer.seqNr.toNat + (chunksOf buf).length <=
    65535 := by omega
  have hwritten := h.transfer.write env.id hroom
  have hlag : (s.write side env buf addr).lag side =
    s.lag side - (chunksOf buf).length := by
    rw [lag, party_write_self, List.length_append, length_createdPackets, Nat.sub_add_eq]
    rfl
  have hskipped : (s.write side env buf addr).skipped side = s.skipped side ++
      (createdPackets env.id (s.party side).peer (chunksOf buf)).take (s.lag side) := by
    rw [skipped, party_write_self, List.take_append]
    rfl
  refine ⟨pending ++
    (createdPackets env.id (s.party side).peer (chunksOf buf)).drop (s.lag side), ?_⟩
  refine { transfer := ?_, rests := ?_, stored := ?_, sent := ?_, back := ?_, fits := ?_ }
  · rw [hlag, hskipped, party_write_self, party_write_ne Side.other_ne]
    show Transfer _ _ _ (sendPackets _ _ _ _).peer _
      (_ ++ (sendPackets _ _ _ _).sent.map _) _
    rw [sent_reliable env hopen, sendPackets_peer hopen]
    exact hwritten
  · rw [lag, skipped, party_write_ne Side.other_ne]
    exact h.rests
  · rw [party_write_self]
    show (sendPackets _ _ _ _).peer.outOfOrder = ∅
    rw [sendPackets_peer hopen, enqueue, foldl_enqueueChunk]
    exact h.stored
  · rw [party_write_self, party_write_ne Side.other_ne, ← List.append_assoc, ← h.sent]
    exact List.drop_append
  · rw [party_write_self, party_write_ne Side.other_ne]
    exact h.back
  · rw [total_write, party_write_ne Side.other_ne, List.length_append, List.length_drop,
      length_createdPackets]
    show (s.party side.other).peer.lastAcked.toNat + _ <= _
    omega

theorem total_handOver {rest : List Packet} {o : Outcome} :
    (s.handOver side rest o).total = s.total := by
  cases side <;> rfl

theorem Level.takes (h : Level side s pending) {p : Packet} {rest : List Packet}
    {o : Outcome} (hinbox : (s.party side.other).inbox = p :: rest)
    (ho : handlePacket env p (s.party side.other).peer = .ok o) :
    exists pending', Level side (s.handOver side.other rest o) pending' := by
  have hne : side ≠ side.other := Side.other_ne.symm
  have htransfer := h.transfer
  rw [hinbox] at htransfer
  rcases htransfer.takes ho with
    ⟨taken, pending', reply, hpending, htakes, hemitted, -, -, hnext⟩
  have hbuffer : o.peer.incomingBuffer.drop
    (s.party side.other).peer.incomingBuffer.length =
      taken := by
    rw [htakes.incomingBuffer, List.drop_left]
  refine ⟨pending', ?_⟩
  refine { transfer := ?_, rests := ?_, stored := ?_, sent := ?_, back := ?_, fits := ?_ }
  · rw [lag, skipped, party_handOver_ne hne, party_handOver_self, hemitted]
    exact hnext
  · rw [lag, skipped, party_handOver_self]
    exact h.rests.takes htakes
  · rw [party_handOver_ne hne]
    exact h.stored
  · rw [party_handOver_ne hne, party_handOver_self, hbuffer]
    show _ = (s.party side.other).pushed ++ taken ++ pending'
    rw [List.append_assoc, ← hpending]
    exact h.sent
  · rw [party_handOver_ne hne, party_handOver_self]
    exact h.back
  · have hfits := h.fits
    have hreached := htakes.lastAcked
    have hlength := congrArg List.length hpending
    rw [List.length_append] at hlength
    rw [total_handOver, party_handOver_self]
    show o.peer.lastAcked.toNat + _ <= _
    omega

theorem Level.hears (h : Level side s pending) {q : Packet} {rest : List Packet}
    {o : Outcome} (hinbox : (s.party side).inbox = q :: rest)
    (ho : handlePacket env q (s.party side).peer = .ok o) :
    Level side (s.handOver side rest o) pending := by
  have htransfer := h.transfer
  rw [hinbox] at htransfer
  rcases htransfer.hears ho with ⟨reply, hsame, -, hemitted, -, hnext⟩
  have hbuffer : o.peer.incomingBuffer.drop (s.party side).peer.incomingBuffer.length =
      [] := by
    rw [hsame.incomingBuffer, List.drop_length]
  refine { transfer := ?_, rests := ?_, stored := ?_, sent := ?_, back := ?_, fits := ?_ }
  · rw [lag, skipped, party_handOver_self, party_handOver_ne Side.other_ne, hemitted]
    exact hnext
  · rw [lag, skipped, party_handOver_ne Side.other_ne]
    exact h.rests
  · rw [party_handOver_self]
    exact hsame.outOfOrder.trans h.stored
  · rw [party_handOver_self, party_handOver_ne Side.other_ne]
    exact h.sent
  · rw [party_handOver_self, party_handOver_ne Side.other_ne, hbuffer]
    exact h.back.trans (List.append_nil _).symm
  · rw [total_handOver, party_handOver_ne Side.other_ne]
    exact h.fits

theorem Level.drained (h : Level side s pending) (x : Side) (rest : List Packet) :
    Level side (s.drained x rest) pending :=
  { h with
    transfer := { h.transfer with }
    rests := { h.rests with } }

end Level

/-!
## From `connect` on
-/

/-- Before the client is connected: nothing has been written yet, and the server has no
more than the entry for the `Syn`. -/
structure Greeting (s : Fifo) : Prop where
  turn : s.turn = .client
  created : forall side, (s.party side).created = []
  pushed : forall side, (s.party side).pushed = []
  client_state : (s.party .client).peer.state = .synSent
  client_seqNr : (s.party .client).peer.seqNr = 1
  client_window : forall (k : UInt16) p,
    (s.party .client).peer.sentWindow[k]? = some p -> k = 1
  client_outOfOrder : (s.party .client).peer.outOfOrder = ∅
  server_seqNr : (s.party .server).peer.seqNr = 1
  server_window : (s.party .server).peer.sentWindow = ∅
  server_outOfOrder : (s.party .server).peer.outOfOrder = ∅

/-- The `Syn` on its way, its answer on the way back, and everything behind that. -/
inductive Phase (s : Fifo) : Prop where
  | syn {p : Packet} : Greeting s -> (s.party .server).peer.state = .new ->
      (s.party .server).inbox = [p] -> (s.party .client).inbox = [] ->
      p.getType = .syn -> p.seqNr = 1 -> Phase s
  | answered {q : Packet} : Greeting s -> (s.party .server).peer.state = .connected ->
      (s.party .server).peer.lastAcked = 1 ->
      (s.party .server).inbox = [] -> (s.party .client).inbox = [q] ->
      q.getType = .state -> q.seqNr = 1 -> q.ackNr = 1 -> Phase s
  | level {pending : List Packet} : Level s.turn s pending -> Phase s

section Phase

variable {limit : Nat} {s s' : Fifo} {side : Side} {env : Env}

theorem phase_initial (id senderId : UInt16) (addr clientAddr : SocketAddr) :
    Phase (initial id senderId addr clientAddr) := by
  refine .syn ?_ rfl rfl rfl (getType_synPacket ..) (seqNr_synPacket ..)
  exact
    { turn := rfl
      created := fun side => by cases side <;> rfl
      pushed := fun side => by cases side <;> rfl
      client_state := rfl
      client_seqNr := rfl
      client_window := by
        intro k p hk
        rw [((windowOfSyn_connectPeer id senderId addr) k p |>.mp hk).1, seqNr_synPacket]
        rfl
      client_outOfOrder := rfl
      server_seqNr := rfl
      server_window := rfl
      server_outOfOrder := rfl }

theorem Greeting.not_mayWrite (h : Greeting s)
    (hserver : (s.party .server).peer.state ≠ .connected ∨ (s.party .client).inbox ≠ []) :
    ¬ MayWrite side s := by
  intro hmay
  cases side with
  | client =>
      rw [MayWrite, h.client_state] at hmay
      cases hmay.1
  | server =>
      rcases hserver with hstate | hinbox
      · exact hstate hmay.1
      · rcases hmay.2 with hturn | hquiet
        · rw [h.turn] at hturn
          cases hturn
        · exact hinbox hquiet.2

theorem Greeting.drained (h : Greeting s) (x : Side) (rest : List Packet) :
    Greeting (s.drained x rest) :=
  { h with }

theorem Greeting.answer (h : Greeting s) {p : Packet} {o : Outcome}
    (hstate : (s.party .server).peer.state = .new)
    (hclient : (s.party .client).inbox = [])
    (htype : p.getType = .syn) (hseq : p.seqNr = 1)
    (ho : handlePacket env p (s.party .server).peer = .ok o) :
    Phase (s.handOver .server [] o) := by
  rw [handlePacket_newSyn hstate htype] at ho
  cases ho
  have hgreeting :
      Greeting (s.handOver .server [] (handleNewSyn env p (s.party .server).peer)) :=
    { turn := h.turn
      created := fun side => by cases side <;> exact h.created _
      pushed := by
        intro side
        cases side with
        | client => exact h.pushed .client
        | server =>
            show (s.party .server).pushed ++ List.drop _ _ = []
            rw [h.pushed, List.nil_append]
            exact List.drop_length
      client_state := h.client_state
      client_seqNr := h.client_seqNr
      client_window := h.client_window
      client_outOfOrder := h.client_outOfOrder
      server_seqNr := h.server_seqNr
      server_window := h.server_window
      server_outOfOrder := h.server_outOfOrder }
  refine .answered (q := prepareReply env p .state p.seqNr p.seqNr)
    hgreeting rfl hseq rfl ?_
    (getType_prepareReply ..) ?_ ?_
  · show (s.party .client).inbox ++ _ = _
    rw [hclient]
    rfl
  · rw [seqNr_prepareReply, hseq]
  · rw [ackNr_prepareReply, hseq]

theorem Greeting.client_rests (h : Greeting s) {q : Packet} {env : Env}
    (hseq : q.seqNr = 1)
    (hack : q.ackNr = 1) :
    Resting 0 [] (handleSynAck env q (s.party .client).peer).peer := by
  refine resting_of_empty ?_ fun k p hk => ?_
  · show ((s.party .client).peer.seqNr + 1).toNat + 0 = q.ackNr.toNat + 1
    rw [h.client_seqNr, hack]
    rfl
  · change ((s.party .client).peer.sentWindow.erase q.seqNr)[k]? = some p at hk
    have hone := h.client_window k p (erase_kept hk)
    rw [hone, hseq, getElem?_erase_eq, if_pos rfl] at hk
    cases hk

theorem Greeting.server_rests (h : Greeting s)
    (hlast : (s.party .server).peer.lastAcked = 1) :
    Resting 1 [] (s.party .server).peer := by
  refine resting_of_empty ?_ fun k p hk => ?_
  · rw [h.server_seqNr, hlast]
  · rw [h.server_window] at hk
    simp at hk

theorem Greeting.open (h : Greeting s) {q : Packet} {o : Outcome}
    (hstate : (s.party .server).peer.state = .connected)
    (hlast : (s.party .server).peer.lastAcked = 1)
    (hserver : (s.party .server).inbox = [])
    (htype : q.getType = .state) (hseq : q.seqNr = 1) (hack : q.ackNr = 1)
    (ho : handlePacket env q (s.party .client).peer = .ok o) :
    Level (s.handOver .client [] o).turn (s.handOver .client [] o) [] := by
  rw [handlePacket_synAck h.client_state htype] at ho
  cases ho
  show Level s.turn _ _
  rw [h.turn]
  have hinbox : ((s.handOver .client [] (handleSynAck env q (s.party .client).peer)).party
      .server).inbox = [] := by
    show (s.party .server).inbox ++ [] = []
    rw [hserver]
    rfl
  refine { transfer := ?_, rests := ?_, stored := ?_, sent := ?_, back := ?_, fits := ?_ }
  · show Transfer (0 - _) _ [] _ _
      ((s.handOver .client [] (handleSynAck env q (s.party .client).peer)).party
        .server).inbox []
    rw [hinbox, Nat.zero_sub]
    exact (h.client_rests hseq hack).transfer rfl hstate h.server_outOfOrder
      (hlast.trans hack.symm)
  · show Resting (1 - (s.party .server).created.length) ((s.party .server).created.take 1)
      (s.party .server).peer
    rw [h.created]
    exact h.server_rests hlast
  · exact h.client_outOfOrder
  · show (s.party .client).created.drop 0 = (s.party .server).pushed ++ []
    rw [h.created, h.pushed]
    rfl
  · show (s.party .server).created.drop 1 = (s.party .client).pushed ++ List.drop _ _
    rw [h.created, h.pushed, List.nil_append]
    exact List.drop_length.symm
  · show (s.party .server).peer.lastAcked.toNat + 0 <= _
    rw [hlast]
    exact Nat.le_add_left ..

theorem phase_step (hlimit : limit <= 65533) (h : Phase s) {a : Action}
    (hstep : step limit s a = some s') : Phase s' := by
  cases h with
  | syn hgreeting hstate hserver hclient htype hseq =>
      cases moves_of_step hstep with
      | write env buf addr hmay =>
          refine absurd hmay (hgreeting.not_mayWrite (Or.inl ?_))
          rw [hstate]
          decide
      | @deliver side env p rest o hinbox ho =>
          cases side with
          | client =>
              rw [hclient] at hinbox
              cases hinbox
          | server =>
              rw [hserver] at hinbox
              cases hinbox
              exact hgreeting.answer hstate hclient htype hseq ho
      | forward side channel rest =>
          exact .syn (hgreeting.drained side rest) hstate hserver hclient htype hseq
  | answered hgreeting hstate hlast hserver hclient htype hseq hack =>
      cases moves_of_step hstep with
      | write env buf addr hmay =>
          refine absurd hmay (hgreeting.not_mayWrite (Or.inr ?_))
          rw [hclient]
          simp
      | @deliver side env p rest o hinbox ho =>
          cases side with
          | client =>
              rw [hclient] at hinbox
              cases hinbox
              exact .level (hgreeting.open hstate hlast hserver htype hseq hack ho)
          | server =>
              rw [hserver] at hinbox
              cases hinbox
      | forward side channel rest =>
          exact .answered (hgreeting.drained side rest) hstate hlast hserver hclient htype
            hseq hack
  | level hlevel =>
      cases moves_of_step hstep with
      | @write side env buf addr hmay hfit =>
          have hside : exists pending, Level side s pending := by
            rcases s.turn.eq_or_eq_other side with rfl | rfl
            · exact ⟨_, hlevel⟩
            · rcases hmay.2 with hturn | ⟨hown, hother⟩
              · exact absurd hturn.symm Side.other_ne
              · rw [Side.other_other] at hother
                exact ⟨_, hlevel.switch hother hown⟩
          rcases hside with ⟨pending, hside⟩
          rcases hside.write env addr hfit hlimit with ⟨pending', hnext⟩
          exact .level hnext
      | @deliver side env p rest o hinbox ho =>
          rcases s.turn.eq_or_eq_other side with rfl | rfl
          · exact .level (hlevel.hears hinbox ho)
          · rcases hlevel.takes hinbox ho with ⟨pending', hnext⟩
            exact .level hnext
      | forward side channel rest => exact .level (hlevel.drained side rest)

end Phase

/-!
## What is handled
-/

/-- The head of a queue is one acknowledgement too many for the counter of the side it
is for, which the overflow check keeps from being handled. -/
def Overflowing (side : Side) (s : Fifo) : Prop :=
  exists q rest, (s.party side).inbox = q :: rest ∧ q.getType = .ack ∧
    q.ackNr = (s.party side).peer.lastAcked ∧
    (s.party side).peer.duplicateAckCount.toNat = 65535

def Idle (limit : Nat) (s : Fifo) : Prop :=
  forall a, a.delivers = true -> step limit s a = none

section Handled

variable {limit : Nat} {s s' : Fifo} {side : Side} {env : Env} {pending : List Packet}

theorem Level.handled_iff (h : Level s.turn s pending) (hbound : s.total < 65534)
    {p : Packet} {rest : List Packet} (hinbox : (s.party side).inbox = p :: rest) :
    (exists o, handlePacket env p (s.party side).peer = .ok o) <->
      ¬ Overflowing side s := by
  have hfits := h.fits
  have htransfer := h.transfer
  rcases s.turn.eq_or_eq_other side with rfl | rfl
  · rw [hinbox] at htransfer
    rw [htransfer.ack_handled_iff (by omega) env]
    refine not_congr ⟨fun hfull => ?_, fun hoverflow => ?_⟩
    · exact ⟨p, rest, hinbox, (htransfer.plain p (List.mem_cons_self ..)).1, hfull⟩
    · rcases hoverflow with ⟨q, rest', hqueue, -, hfull⟩
      cases hinbox.symm.trans hqueue
      exact hfull
  · rw [hinbox] at htransfer
    have hcount := h.rests.count
    refine iff_of_true (htransfer.data_handled (by omega) (by omega) env)
      fun hoverflow => ?_
    rcases hoverflow with ⟨q, rest', hqueue, htype, -⟩
    cases hinbox.symm.trans hqueue
    rw [(htransfer.packets p (List.mem_cons_self ..)).1] at htype
    cases htype

theorem Phase.handled_iff (h : Phase s) (hbound : s.total < 65534)
    (env : Env) {p : Packet}
    {rest : List Packet} (hinbox : (s.party side).inbox = p :: rest) :
    (exists o, handlePacket env p (s.party side).peer = .ok o) <->
      ¬ Overflowing side s := by
  have hfree : p.getType ≠ .ack -> ¬ Overflowing side s := by
    intro hne hoverflow
    rcases hoverflow with ⟨q, rest', hqueue, htype, -⟩
    cases hinbox.symm.trans hqueue
    exact hne htype
  cases h with
  | syn hgreeting hstate hserver hclient htype =>
      cases side with
      | client =>
          rw [hclient] at hinbox
          cases hinbox
      | server =>
          cases hserver.symm.trans hinbox
          refine iff_of_true ?_ (hfree (by rw [htype]; decide))
          exact ⟨_, handlePacket_newSyn hstate htype⟩
  | answered hgreeting _ _ hserver hclient htype =>
      cases side with
      | client =>
          cases hclient.symm.trans hinbox
          refine iff_of_true ?_ (hfree (by rw [htype]; decide))
          exact ⟨_, handlePacket_synAck hgreeting.client_state htype⟩
      | server =>
          rw [hserver] at hinbox
          cases hinbox
  | level hlevel => exact hlevel.handled_iff hbound hinbox

theorem Phase.idle_iff (h : Phase s) (hbound : s.total < 65534) :
    Idle limit s <-> forall side, (s.party side).inbox = [] ∨ Overflowing side s := by
  constructor
  · intro hidle side
    cases hinbox : (s.party side).inbox with
    | nil => exact Or.inl rfl
    | cons p rest =>
        refine Or.inr ?_
        by_contra hfree
        rcases (h.handled_iff hbound (healthyEnv 7) hinbox).mpr hfree with ⟨o, ho⟩
        have hstep : step limit s (.deliver side (healthyEnv 7)) = some _ :=
          step_deliver hinbox ho
        rw [hidle _ rfl] at hstep
        cases hstep
  · intro hrest a hdelivers
    by_contra hsome
    rcases Option.ne_none_iff_exists'.mp hsome with ⟨s', hstep⟩
    cases moves_of_step hstep with
    | write => cases hdelivers
    | @deliver side env p rest o hinbox ho =>
        rcases hrest side with hnil | hoverflow
        · rw [hnil] at hinbox
          cases hinbox
        · exact (h.handled_iff hbound env hinbox).mp ⟨o, ho⟩ hoverflow
    | forward => cases hdelivers

end Handled

/-!
## Coming to rest
-/

/-- How much the network can still hand over. -/
def work (s : Fifo) : Nat :=
  if (s.party .client).peer.state = .synSent then
    2 * (s.party .server).inbox.length + (s.party .client).inbox.length + 1
  else
    remaining (s.party s.turn).peer (s.party s.turn.other).peer
      (s.party s.turn.other).inbox
      (s.party s.turn).inbox

section Rest

variable {limit : Nat} {s s' : Fifo} {side : Side} {env : Env} {pending : List Packet}

theorem Level.work_eq (h : Level s.turn s pending) :
    s.work = remaining (s.party s.turn).peer (s.party s.turn.other).peer
      (s.party s.turn.other).inbox (s.party s.turn).inbox := by
  have hstate : (s.party .client).peer.state = .connected := by
    rcases s.turn.eq_or_eq_other .client with hturn | hturn
    · rw [hturn]
      exact h.transfer.sender_state
    · rw [hturn]
      exact h.transfer.receiver_state
  rw [work, hstate]
  exact if_neg (by decide)

theorem Level.work_lt (h : Level s.turn s pending) {p : Packet} {rest : List Packet}
    {o : Outcome} (hinbox : (s.party side).inbox = p :: rest)
    (ho : handlePacket env p (s.party side).peer = .ok o) :
    (s.handOver side rest o).work < s.work := by
  have htransfer := h.transfer
  rcases s.turn.eq_or_eq_other side with rfl | rfl
  · have hnext : Level (s.handOver s.turn rest o).turn _ _ := h.hears hinbox ho
    rw [hinbox] at htransfer
    rcases htransfer.hears ho with ⟨reply, hsame, hmark, hemitted, hbehind, -⟩
    rw [h.work_eq, hnext.work_eq, hinbox]
    show remaining ((s.handOver s.turn rest o).party s.turn).peer
      ((s.handOver s.turn rest o).party s.turn.other).peer
      ((s.handOver s.turn rest o).party s.turn.other).inbox
      ((s.handOver s.turn rest o).party s.turn).inbox < _
    rw [party_handOver_self, party_handOver_ne Side.other_ne, hemitted]
    exact htransfer.hears_lt hsame hmark hbehind
  · rcases h.takes hinbox ho with ⟨pending', hnext⟩
    change Level (s.handOver s.turn.other rest o).turn _ _ at hnext
    rw [hinbox] at htransfer
    rcases htransfer.takes ho with
      ⟨taken, later, reply, hpending, htakes, hemitted, hackNr, hlast, -⟩
    have hreached := htakes.lastAcked
    have hlength := congrArg List.length hpending
    rw [List.length_append] at hlength
    rw [h.work_eq, hnext.work_eq, hinbox]
    show remaining ((s.handOver s.turn.other rest o).party s.turn).peer
      ((s.handOver s.turn.other rest o).party s.turn.other).peer
      ((s.handOver s.turn.other rest o).party s.turn.other).inbox
      ((s.handOver s.turn.other rest o).party s.turn).inbox < _
    have hle : o.peer.lastAcked.toNat <=
        (s.party s.turn.other).peer.lastAcked.toNat + pending.length := by
      omega
    rw [party_handOver_self, party_handOver_ne Side.other_ne.symm, hemitted]
    exact htransfer.takes_lt hackNr hlast hle

theorem Level.work_quiet (h : Level s.turn s []) (hquiet : s.Quiet) : s.work = 1 := by
  have htransfer := h.transfer
  rw [hquiet, hquiet] at htransfer
  have hlast := htransfer.last_eq
  rw [List.length_nil, Nat.add_zero] at hlast
  rw [h.work_eq, hquiet, hquiet, remaining, hlast, htransfer.mark_reached]
  simp [exchange, budget, waiting, dataNumbers, ackNumbers, ahead]

theorem Phase.work_lt (h : Phase s) {a : Action} (hdelivers : a.delivers = true)
    (hstep : step limit s a = some s') : s'.work < s.work := by
  cases moves_of_step hstep with
  | write => cases hdelivers
  | forward => cases hdelivers
  | @deliver side env p rest o hinbox ho =>
      cases h with
      | syn hgreeting hstate hserver hclient htype =>
          cases side with
          | client =>
              rw [hclient] at hinbox
              cases hinbox
          | server =>
              cases hserver.symm.trans hinbox
              rw [handlePacket_newSyn hstate htype] at ho
              cases ho
              have hbefore : s.work = 3 := by
                rw [work, if_pos hgreeting.client_state, hserver, hclient]
                rfl
              have hafter : (s.handOver .server []
                  (handleNewSyn env p (s.party .server).peer)).work = 2 := by
                rw [work]
                show (if (s.party .client).peer.state = .synSent then
                  2 * 0 + ((s.party .client).inbox ++ [_]).length + 1 else _) = 2
                rw [if_pos hgreeting.client_state, hclient]
                rfl
              rw [hbefore, hafter]
              decide
      | answered hgreeting hstate hlast hserver hclient htype hseq hack =>
          cases side with
          | client =>
              cases hclient.symm.trans hinbox
              have hnext := hgreeting.open hstate hlast hserver htype hseq hack ho
              have hquiet : (s.handOver .client [] o).Quiet := by
                rw [handlePacket_synAck hgreeting.client_state htype] at ho
                cases ho
                intro side
                cases side with
                | client => rfl
                | server =>
                    show (s.party .server).inbox ++ [] = []
                    rw [hserver]
                    rfl
              have hbefore : s.work = 2 := by
                rw [work, if_pos hgreeting.client_state, hserver, hclient]
                rfl
              rw [hbefore, hnext.work_quiet hquiet]
              decide
          | server =>
              rw [hserver] at hinbox
              cases hinbox
      | level hlevel => exact hlevel.work_lt hinbox ho

def unacknowledged (s : Fifo) : Nat :=
  let numbers side := (s.party side).peer.seqNr.toNat - 1 -
    (s.party side).peer.lastAcked.toNat
  numbers .client + numbers .server

def inFlight (s : Fifo) : Nat :=
  (s.party .client).inbox.length + (s.party .server).inbox.length

theorem Level.work_le (h : Level s.turn s pending) :
    s.work <= (2 * s.unacknowledged + 2) * (2 * s.inFlight + 1) := by
  have hcount := h.transfer.count
  have hlast := h.transfer.last_eq
  have hgap : max (s.party s.turn.other).peer.lastAcked.toNat
      ((s.party s.turn).peer.seqNr.toNat - 1) - (s.party s.turn).peer.lastAcked.toNat <=
        (s.party s.turn).peer.seqNr.toNat - 1 -
          (s.party s.turn).peer.lastAcked.toNat := by
    by_cases hlag : 0 < s.lag s.turn
    · rcases h.transfer.lagging hlag with ⟨hnil, hlevel⟩
      rw [hlast, hnil, hlevel, List.length_nil]
      omega
    · omega
  have hturn : (s.party s.turn).peer.seqNr.toNat - 1 -
        (s.party s.turn).peer.lastAcked.toNat <= s.unacknowledged ∧
      (s.party s.turn.other).inbox.length +
        (s.party s.turn).inbox.length = s.inFlight := by
    cases s.turn with
    | client => exact ⟨Nat.le_add_right .., Nat.add_comm ..⟩
    | server => exact ⟨Nat.le_add_left .., rfl⟩
  have hbound := exchange_le (s.party s.turn).peer.lastAcked.toNat
    (s.party s.turn.other).peer.lastAcked.toNat
    (max (s.party s.turn.other).peer.lastAcked.toNat
      ((s.party s.turn).peer.seqNr.toNat - 1))
    (dataNumbers (s.party s.turn.other).inbox) (ackNumbers (s.party s.turn).inbox)
  rw [← remaining, ← h.work_eq, dataNumbers, ackNumbers, List.length_map, List.length_map,
    hturn.2] at hbound
  refine Nat.le_trans hbound (Nat.mul_le_mul_right _ ?_)
  omega

theorem Phase.work_le (h : Phase s) :
    s.work <= (2 * s.unacknowledged + 2) * (2 * s.inFlight + 1) := by
  have hgreeting : s.work <= 3 -> s.inFlight = 1 ->
      s.work <= (2 * s.unacknowledged + 2) * (2 * s.inFlight + 1) := by
    intro hwork hflight
    rw [hflight]
    omega
  cases h with
  | syn hwaiting _ hserver hclient =>
      refine hgreeting ?_ ?_
      · rw [work, if_pos hwaiting.client_state, hserver, hclient]
        exact Nat.le_refl 3
      · rw [inFlight, hserver, hclient]
        rfl
  | answered hwaiting _ _ hserver hclient =>
      refine hgreeting ?_ ?_
      · rw [work, if_pos hwaiting.client_state, hserver, hclient]
        exact Nat.le_succ 2
      · rw [inFlight, hserver, hclient]
        rfl
  | level hlevel => exact hlevel.work_le

end Rest

/-!
## Delivery
-/

structure Accounts (limit : Nat) (s : Fifo) : Prop where
  bounded : s.total <= limit
  payloads : forall side, exists chunks,
    List.Forall₂ (fun (p : Packet) chunk => p.HasChain [] chunk)
      (s.party side).created chunks ∧
      chunks.flatten = (s.party side).written.flatten

/-- The other side has delivered a front of what this one has written, but for the
packets that are skipped. -/
structure Ordered (side : Side) (s : Fifo) : Prop where
  payloads : exists payloads, (s.party side).created.mapM Packet.payload = .ok payloads ∧
    payloads.flatten = (s.party side).written.flatten
  pushed : (s.party side.other).pushed <+: (s.party side).created.drop side.skips

/-- The other side has delivered all of it, and this one keeps what is skipped, and
nothing else, to send it again. -/
structure Finished (side : Side) (s : Fifo) : Prop where
  state : (s.party side).peer.state = .connected
  pushed : (s.party side.other).pushed = (s.party side).created.drop side.skips
  stored : (s.party side.other).peer.outOfOrder = ∅
  window : forall p, p ∈ (s.party side).created.take side.skips <->
    exists k : UInt16, (s.party side).peer.sentWindow[k]? = some p

section Delivery

variable {limit : Nat} {s s' : Fifo} {side : Side} {pending : List Packet}

theorem accounts_step (h : Accounts limit s) {a : Action}
    (hstep : step limit s a = some s') :
    Accounts limit s' := by
  cases moves_of_step hstep with
  | @write side env buf addr hmay hfit =>
      refine { bounded := by rwa [total_write], payloads := fun x => ?_ }
      rcases h.payloads x with ⟨chunks, hall, hflat⟩
      by_cases hx : x = side
      · cases hx
        rw [party_write_self]
        refine ⟨chunks ++ chunksOf buf,
          List.rel_append hall (forall₂_createdPackets env.id _ (chunksOf buf)), ?_⟩
        rw [List.flatten_append, List.flatten_append, hflat]
        simp [chunksOf, chunks_flatten]
      · rw [party_write_ne hx]
        exact ⟨chunks, hall, hflat⟩
  | @deliver side env p rest o hinbox ho =>
      refine
        { bounded := by rw [total_handOver]; exact h.bounded
          payloads := fun x => ?_ }
      by_cases hx : x = side
      · cases hx
        rw [party_handOver_self]
        exact h.payloads _
      · rw [party_handOver_ne hx]
        exact h.payloads x
  | forward side channel rest => exact { h with }

theorem invariant_of_run (hlimit : limit <= 65533) {id senderId : UInt16}
    {addr clientAddr : SocketAddr} {actions : List Action}
    (hrun : run (step limit) (initial id senderId addr clientAddr) actions = some s) :
    Phase s ∧ Accounts limit s := by
  have hstep : forall s a s', Phase s ∧ Accounts limit s -> step limit s a = some s' ->
      Phase s' ∧ Accounts limit s' :=
    fun _ _ _ h hs => ⟨phase_step hlimit h.1 hs, accounts_step h.2 hs⟩
  refine run_invariant hstep ⟨phase_initial id senderId addr clientAddr, ?_⟩ hrun
  exact
    { bounded := Nat.zero_le _
      payloads := fun side => ⟨[], by cases side <;> exact .nil, by cases side <;> rfl⟩ }

theorem Level.pushed_eq (h : Level s.turn s pending) (side : Side) :
    exists missing, (s.party side).created.drop side.skips =
      (s.party side.other).pushed ++ missing ∧
        ((s.party side.other).inbox = [] -> missing = []) := by
  rcases s.turn.eq_or_eq_other side with rfl | rfl
  · refine ⟨pending, h.sent, fun hinbox => ?_⟩
    have htransfer := h.transfer
    rw [hinbox] at htransfer
    exact htransfer.pending_nil
  · refine ⟨[], ?_, fun _ => rfl⟩
    rw [Side.other_other, List.append_nil]
    exact h.back

theorem Phase.pushed_eq (h : Phase s) (side : Side) :
    exists missing, (s.party side).created.drop side.skips =
      (s.party side.other).pushed ++ missing ∧
        ((s.party side.other).inbox = [] -> missing = []) := by
  have hgreeting : Greeting s -> (s.party side).created.drop side.skips =
      (s.party side.other).pushed ++ [] := by
    intro hwaiting
    rw [hwaiting.created, hwaiting.pushed, List.drop_nil, List.append_nil]
  cases h with
  | syn hwaiting => exact ⟨[], hgreeting hwaiting, fun _ => rfl⟩
  | answered hwaiting => exact ⟨[], hgreeting hwaiting, fun _ => rfl⟩
  | level hlevel => exact hlevel.pushed_eq side

theorem Level.finished (h : Level side s pending) (hquiet : s.Quiet) :
    Finished side s := by
  have htransfer := h.transfer
  rw [hquiet, hquiet] at htransfer
  have hsent := h.sent
  rw [htransfer.pending_nil, List.append_nil] at hsent
  exact
    { state := htransfer.sender_state
      pushed := hsent.symm
      stored := htransfer.stored
      window := htransfer.rests.kept }

theorem Phase.finished (h : Phase s) (hquiet : s.Quiet) (side : Side) :
    Finished side s := by
  cases h with
  | syn _ _ hserver =>
      rw [hquiet] at hserver
      cases hserver
  | answered _ _ _ _ hclient =>
      rw [hquiet] at hclient
      cases hclient
  | level hlevel =>
      rcases s.turn.eq_or_eq_other side with rfl | rfl
      · exact hlevel.finished hquiet
      · exact (hlevel.switch (hquiet _) (hquiet _)).finished hquiet

/-- On a network that keeps the order and loses nothing, and with the two sides writing
in turn, what each has delivered is at any time a front of what the other has written,
but for the first packet of the accepting side.  What is on its way is handed over in
boundedly many steps, none of which is refused before the end (but for an overflow of
the counter of repeated acknowledgements).  Then everything has been delivered, nothing
is stored, and nothing but that first packet is left to be acknowledged. -/
theorem delivers_in_turn (hlimit : limit <= 65533) {id senderId : UInt16}
    {addr clientAddr : SocketAddr} {actions : List Action}
    (hrun : run (step limit) (initial id senderId addr clientAddr) actions = some s) :
    (forall side, Ordered side s) ∧
      (forall more t, (forall a, a ∈ more -> a.delivers = true) ->
        run (step limit) s more = some t ->
          more.length <= (2 * s.unacknowledged + 2) * (2 * s.inFlight + 1)) ∧
      (Idle limit s <-> forall side, (s.party side).inbox = [] ∨ Overflowing side s) ∧
      (forall side, (s.party side.other).inbox = [] ->
        (s.party side.other).pushed = (s.party side).created.drop side.skips) ∧
      (s.Quiet -> forall side, Finished side s) := by
  rcases invariant_of_run hlimit hrun with ⟨hphase, haccounts⟩
  have hbounded := haccounts.bounded
  refine ⟨fun side => ?_, ?_, hphase.idle_iff (by omega), fun side hinbox => ?_,
    hphase.finished⟩
  · rcases haccounts.payloads side with ⟨chunks, hall, hflat⟩
    rcases hphase.pushed_eq side with ⟨missing, hpushed, -⟩
    exact
      { payloads := ⟨chunks, mapM_payload hall, hflat⟩
        pushed := ⟨missing, hpushed.symm⟩ }
  · intro more t hmore hmoved
    have hstep : forall s a s', Phase s -> a.delivers = true ->
      step limit s a = some s' ->
        Phase s' ∧ s'.work < s.work :=
      fun _ _ _ hs hdelivers hs' => ⟨phase_step hlimit hs hs', hs.work_lt hdelivers hs'⟩
    exact Nat.le_trans (length_le_measure work hstep hmore hphase hmoved) hphase.work_le
  · rcases hphase.pushed_eq side with ⟨missing, hpushed, hmissing⟩
    rw [hpushed, hmissing hinbox, List.append_nil]

end Delivery

/-- The client writes two packets, and then the server does, whose second one is
delivered. -/
theorem delivers_in_turn_twice :
    exists s, run (step 60000) (initial 7 3 (loopback 2) (loopback 1))
        [.deliver .server (healthyEnv 8), .deliver .client (healthyEnv 7),
          .write .client (healthyEnv 7) [1, 2, 3, 4, 5, 6, 7, 8, 9] (loopback 2),
          .deliver .server (healthyEnv 8), .deliver .server (healthyEnv 8),
          .deliver .client (healthyEnv 7), .deliver .client (healthyEnv 7),
          .write .server (healthyEnv 8) [10, 11, 12, 13, 14, 15, 16, 17] (loopback 1),
          .deliver .client (healthyEnv 7), .deliver .client (healthyEnv 7),
          .deliver .server (healthyEnv 8), .deliver .server (healthyEnv 8)] = some s ∧
      (s.party .client).created.length = 2 ∧ (s.party .server).created.length = 2 ∧
      (s.party .server).pushed.length = 2 ∧ (s.party .client).pushed.length = 1 ∧
      Idle 60000 s ∧ Finished .client s ∧ Finished .server s := by
  have hruns : (run (step 60000) (initial 7 3 (loopback 2) (loopback 1))
      [.deliver .server (healthyEnv 8), .deliver .client (healthyEnv 7),
        .write .client (healthyEnv 7) [1, 2, 3, 4, 5, 6, 7, 8, 9] (loopback 2),
        .deliver .server (healthyEnv 8), .deliver .server (healthyEnv 8),
        .deliver .client (healthyEnv 7), .deliver .client (healthyEnv 7),
        .write .server (healthyEnv 8) [10, 11, 12, 13, 14, 15, 16, 17] (loopback 1),
        .deliver .client (healthyEnv 7), .deliver .client (healthyEnv 7),
        .deliver .server (healthyEnv 8), .deliver .server (healthyEnv 8)]).map
      (fun s => (((s.party .client).inbox, (s.party .server).inbox),
        (s.party .client).created.length, (s.party .server).created.length,
        (s.party .server).pushed.length, (s.party .client).pushed.length)) =
      some (([], []), 2, 2, 2, 1) := by
    decide +kernel
  rcases Option.map_eq_some_iff.mp hruns with ⟨s, hrun, hfacts⟩
  rcases Prod.mk.inj hfacts with ⟨hinboxes, hcounts⟩
  rcases Prod.mk.inj hinboxes with ⟨hclient, hserver⟩
  have hquiet : s.Quiet := fun side => by
    cases side with
    | client => exact hclient
    | server => exact hserver
  rcases delivers_in_turn (by decide) hrun with ⟨-, -, hidle, -, hfinished⟩
  simp only [Prod.mk.injEq] at hcounts
  exact ⟨s, hrun, hcounts.1, hcounts.2.1, hcounts.2.2.1, hcounts.2.2.2,
    hidle.mpr fun side => Or.inl (hquiet side), hfinished hquiet .client,
    hfinished hquiet .server⟩

end Fifo
end Utp
