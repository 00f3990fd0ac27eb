import Utp.Socket.Calls

/-!
# The life cycle of a connection

A connection is opened once and closed for good.  The states of a peer fall into
three phases, and a packet either leaves the state alone or moves it on.
-/

namespace Utp

open Foundation

def SocketState.phase : SocketState -> Nat
  | .new | .synSent => 0
  | .connected | .finSent => 1
  | .closed | .resetReceived => 2

def SocketState.Terminated (state : SocketState) : Prop :=
  state = .closed ∨ state = .resetReceived

theorem SocketState.terminated_iff {state : SocketState} :
    state.Terminated <-> state.phase = 2 := by
  unfold Terminated
  cases state <;> simp [phase]

def OpenedBy (state : SocketState) (t : PacketType) : Prop :=
  (state = .new ∧ t = .syn) ∨ (state = .synSent ∧ t = .state)

/-- What a packet can do to the state of a peer. -/
inductive Moves (state : SocketState) (t : PacketType) : SocketState -> Prop where
  | stays : Moves state t state
  | opens : OpenedBy state t -> Moves state t .connected
  | closes : state = .connected ∨ state = .finSent -> Moves state t .closed
  | resets : Moves state t .resetReceived

theorem Moves.phase_le {state state' : SocketState} {t : PacketType}
    (h : Moves state t state') : state.phase <= state'.phase := by
  cases h with
  | stays => exact Nat.le_refl _
  | opens hopened =>
      rcases hopened with ⟨rfl, -⟩ | ⟨rfl, -⟩
      · decide
      · decide
  | closes hopen =>
      rcases hopen with rfl | rfl
      · decide
      · decide
  | resets => cases state <;> decide

theorem Moves.early {state state' : SocketState} {t : PacketType}
    (h : Moves state t state') (hearly : state' = .new ∨ state' = .synSent) :
    state = state' := by
  cases h with
  | stays => rfl
  | opens => rcases hearly with hstate | hstate <;> cases hstate
  | closes => rcases hearly with hstate | hstate <;> cases hstate
  | resets => rcases hearly with hstate | hstate <;> cases hstate

section Moves

variable {env : Env} {packet : Packet} {peer : UtpSocketState} {o : Outcome}

theorem Handles.moves (h : Handles env packet peer o) :
    Moves peer.state packet.getType o.peer.state := by
  cases h with
  | newSyn hstate htype => exact .opens (Or.inl ⟨hstate, htype⟩)
  | unexpectedSyn => exact .stays
  | synAck hstate htype => exact .opens (Or.inr ⟨hstate, htype⟩)
  | ack _ _ h =>
      rw [(handleAck_frame h).1.state]
      exact .stays
  | data _ _ h =>
      rcases handleData_effect h with ⟨sack, heffect⟩
      rw [heffect.state]
      exact .stays
  | state _ _ h =>
      rw [(handleState_frame h).1.state]
      exact .stays
  | fin hopen => exact .closes hopen
  | reset => exact .resets
  | other => exact .stays

end Moves

/-!
## Behind the end of a connection
-/

/-- The connection stays over, and nothing is delivered, sent, or acknowledged
any more. -/
structure Frozen (peer later : UtpSocketState) : Prop where
  terminated : later.state.Terminated
  incomingBuffer : later.incomingBuffer = peer.incomingBuffer
  seqNr : later.seqNr = peer.seqNr
  ackNr : later.ackNr = peer.ackNr
  lastAcked : later.lastAcked = peer.lastAcked
  sentWindow : later.sentWindow = peer.sentWindow
  outOfOrder : later.outOfOrder = peer.outOfOrder

theorem Frozen.refl {peer : UtpSocketState} (h : peer.state.Terminated) :
    Frozen peer peer :=
  ⟨h, rfl, rfl, rfl, rfl, rfl, rfl⟩

theorem Frozen.trans {first second third : UtpSocketState} (h : Frozen first second)
    (h' : Frozen second third) : Frozen first third where
  terminated := h'.terminated
  incomingBuffer := h'.incomingBuffer.trans h.incomingBuffer
  seqNr := h'.seqNr.trans h.seqNr
  ackNr := h'.ackNr.trans h.ackNr
  lastAcked := h'.lastAcked.trans h.lastAcked
  sentWindow := h'.sentWindow.trans h.sentWindow
  outOfOrder := h'.outOfOrder.trans h.outOfOrder

structure OnlyResets (packet : Packet) (o : Outcome) : Prop where
  sent : o.sent = []
  reply : forall reply, o.result = .ok (some reply) ->
    packet.getType = .syn ∧ reply.getType = .reset

section Terminated

variable {env : Env} {packet : Packet} {peer : UtpSocketState} {o : Outcome}

theorem Handles.frozen (h : Handles env packet peer o) (hover : peer.state.Terminated) :
    Frozen peer o.peer ∧ OnlyResets packet o := by
  have hnone : forall state : SocketState, state.phase < 2 -> peer.state ≠ state := by
    intro state hphase heq
    have hover := SocketState.terminated_iff.mp hover
    rw [heq] at hover
    omega
  have hopen : ¬ (peer.state = .connected ∨ peer.state = .finSent) := by
    intro hcase
    rcases hcase with hstate | hstate
    · exact hnone .connected (by decide) hstate
    · exact hnone .finSent (by decide) hstate
  cases h with
  | newSyn hstate => exact absurd hstate (hnone .new (by decide))
  | unexpectedSyn _ htype =>
      refine ⟨.refl hover, rfl, ?_⟩
      intro reply hreply
      cases hreply
      exact ⟨htype, getType_prepareReply ..⟩
  | synAck hstate => exact absurd hstate (hnone .synSent (by decide))
  | ack hstate => exact absurd hstate hopen
  | data hstate => exact absurd hstate hopen
  | state hstate => exact absurd hstate (hnone .connected (by decide))
  | fin hstate => exact absurd hstate hopen
  | reset =>
      refine ⟨⟨Or.inr rfl, rfl, rfl, rfl, rfl, rfl, rfl⟩, rfl, ?_⟩
      intro reply hreply
      cases hreply
  | other =>
      refine ⟨.refl hover, rfl, ?_⟩
      intro reply hreply
      cases hreply

end Terminated

/-!
## Whole runs
-/

def Call.Opens (c : Call) : Prop :=
  c.before.state ≠ .connected ∧ c.after.state = .connected

theorem Call.moves (c : Call) :
    Moves c.before.state c.packet.getType c.after.state :=
  c.handles.moves

theorem Call.openedBy {c : Call} (h : c.Opens) :
    OpenedBy c.before.state c.packet.getType := by
  rcases h with ⟨hbefore, hafter⟩
  have hmoves := c.moves
  rw [hafter] at hmoves
  generalize hstate : c.before.state = state at hmoves hbefore ⊢
  cases hmoves with
  | stays => exact absurd rfl hbefore
  | opens hopened => exact hopened

theorem callsOf_openedOnce (inputs : List (Env × Packet)) (peer : UtpSocketState) :
    (callsOf inputs peer).Pairwise fun c d => c.Opens -> ¬ d.Opens := by
  have hphases := (linked_callsOf inputs peer).steps
    (fun s t => s.state.phase <= t.state.phase) (fun s => Nat.le_refl _)
    (fun _ _ _ => Nat.le_trans) (fun c _ => c.moves.phase_le)
  refine hphases.imp ?_
  intro c d hphase hc hd
  rw [hc.2] at hphase
  rcases Call.openedBy hd with ⟨hbefore, -⟩ | ⟨hbefore, -⟩
  · rw [hbefore] at hphase
    exact absurd hphase (by decide)
  · rw [hbefore] at hphase
    exact absurd hphase (by decide)

theorem callsOf_frozen (inputs : List (Env × Packet)) (peer : UtpSocketState) :
    (peer :: (callsOf inputs peer).map Call.after).Pairwise fun s t =>
      s.state.Terminated -> Frozen s t := by
  refine (linked_callsOf inputs peer).states (fun s t => s.state.Terminated -> Frozen s t)
    (fun s h => .refl h) ?_ ?_
  · intro s t u hst htu hover
    exact (hst hover).trans (htu (hst hover).terminated)
  · intro c _ hover
    exact (c.handles.frozen hover).1

/-- What a history of calls tells about a connection. -/
structure LifeCycle (peer : UtpSocketState) (calls : List Call) : Prop where
  openedBy : forall c, c ∈ calls -> c.Opens ->
    OpenedBy c.before.state c.packet.getType
  openedOnce : calls.Pairwise fun c d => c.Opens -> ¬ d.Opens
  /-- A state in which the peer is before the handshake it never left. -/
  notReentered : (peer :: calls.map Call.after).Pairwise fun s t =>
    t.state = .new ∨ t.state = .synSent -> s.state = t.state
  frozen : (peer :: calls.map Call.after).Pairwise fun s t =>
    s.state.Terminated -> Frozen s t
  onlyResets : forall c, c ∈ calls -> c.before.state.Terminated ->
    OnlyResets c.packet c.outcome

theorem lifeCycle_callsOf (inputs : List (Env × Packet)) (peer : UtpSocketState) :
    LifeCycle peer (callsOf inputs peer) where
  openedBy := fun c _ h => Call.openedBy h
  openedOnce := callsOf_openedOnce inputs peer
  notReentered := by
    refine (linked_callsOf inputs peer).states (fun s t =>
      t.state = .new ∨ t.state = .synSent -> s.state = t.state)
      (fun s _ => rfl) ?_ ?_
    · intro s t u hst htu hu
      have hsame := htu hu
      rw [← hsame] at hu
      exact (hst hu).trans hsame
    · intro c _ hearly
      exact c.moves.early hearly
  frozen := callsOf_frozen inputs peer
  onlyResets := fun c _ hover => (c.handles.frozen hover).2

end Utp
