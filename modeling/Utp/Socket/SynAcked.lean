import Utp.Socket.LifeCycle
import Utp.Socket.SendPackets

/-!
# The acknowledgement of the client's `Syn`

A client that has called `connect` waits for a `State`.  The first one opens the
connection whatever it acknowledges, and the packet it takes out of the window
is the one with the server's number, not the one it acknowledges.
-/

namespace Utp

open Foundation

/-!
## Waiting for the server
-/

section Waiting

variable {env : Env} {packet : Packet} {peer : UtpSocketState} {o : Outcome}

theorem handlePacket_waiting (env : Env) (packet : Packet)
    (hstate : peer.state = .synSent) :
    exists o, handlePacket env packet peer = .ok o ∧
      ((packet.getType = .state ∧ o = handleSynAck env packet peer) ∨
        (packet.getType = .reset ∧ o.peer.state = .resetReceived) ∨
        (packet.getType ≠ .state ∧ packet.getType ≠ .reset ∧ o.peer = peer)) := by
  simp only [handlePacket, hstate]
  cases packet.getType with
  | state => exact ⟨_, rfl, Or.inl ⟨rfl, rfl⟩⟩
  | reset => exact ⟨_, rfl, Or.inr (Or.inl ⟨rfl, rfl⟩)⟩
  | syn => exact ⟨_, rfl, Or.inr (Or.inr ⟨by decide, by decide, rfl⟩)⟩
  | data => exact ⟨_, rfl, Or.inr (Or.inr ⟨by decide, by decide, rfl⟩)⟩
  | fin => exact ⟨_, rfl, Or.inr (Or.inr ⟨by decide, by decide, rfl⟩)⟩
  | ack => exact ⟨_, rfl, Or.inr (Or.inr ⟨by decide, by decide, rfl⟩)⟩

end Waiting

/-!
## Opening on the right acknowledgement
-/

/-- If the call opens the connection, its packet acknowledges the `Syn`; and if it
leaves the peer connected, the `Syn` is gone from the window, so that no write
sends it again. -/
structure OpensOnSyn (syn : Packet) (c : Call) : Prop where
  acked : c.Opens -> c.packet.ackNr = syn.seqNr
  lastAcked : c.Opens -> c.after.lastAcked = syn.seqNr
  removed : c.after.state = .connected ->
    forall k : UInt16, c.after.sentWindow[k]? ≠ some syn
  notResent : c.after.state = .connected ->
    forall env buf addr d, d ∈ (sendPackets env buf addr c.after).sent -> d.1 ≠ syn

/-- The packet that ends the wait: the first `State` or `Reset`. -/
def settling (inputs : List (Env × Packet)) : Option (Env × Packet) :=
  inputs.find? fun input => input.2.getType = .state || input.2.getType = .reset

/-- If it is a `State`, it acknowledges the `Syn` and has the number of the `Syn`
itself. -/
def AnswersSyn (syn : Packet) (inputs : List (Env × Packet)) : Prop :=
  forall input, settling inputs = some input -> input.2.getType = .state ->
    input.2.ackNr = syn.seqNr ∧ input.2.seqNr = syn.seqNr

theorem settling_cons_of_ne {input : Env × Packet} {inputs : List (Env × Packet)}
    (hstate : input.2.getType ≠ .state) (hreset : input.2.getType ≠ .reset) :
    settling (input :: inputs) = settling inputs :=
  List.find?_cons_of_neg (by simp [hstate, hreset])

theorem settling_cons_of_eq {input : Env × Packet} {inputs : List (Env × Packet)}
    (h : input.2.getType = .state ∨ input.2.getType = .reset) :
    settling (input :: inputs) = some input :=
  List.find?_cons_of_pos (by simpa using h)

theorem notResent_of_removed {syn : Packet} {peer : UtpSocketState}
    (hsyn : syn.getType = .syn)
    (hremoved : forall k : UInt16, peer.sentWindow[k]? ≠ some syn) (env : Env)
    (buf : List UInt8) (addr : SocketAddr) (d : Datagram)
    (hd : d ∈ (sendPackets env buf addr peer).sent) : d.1 ≠ syn := by
  intro hsame
  rcases sendPackets_mem hd with ⟨k, hk⟩
  rw [hsame] at hk
  rcases sendPackets_window hk with hold | hdata
  · exact hremoved k hold
  · rw [hsyn] at hdata
    cases hdata

theorem OpensOnSyn.of_not_connected {syn : Packet} {c : Call}
    (h : c.after.state ≠ .connected) : OpensOnSyn syn c where
  acked := fun hopens => absurd hopens.2 h
  lastAcked := fun hopens => absurd hopens.2 h
  removed := fun hconnected => absurd hconnected h
  notResent := fun hconnected => absurd hconnected h

/-- A window that holds the `Syn` under its own number and nothing else. -/
def WindowOfSyn (syn : Packet) (peer : UtpSocketState) : Prop :=
  forall (k : UInt16) q, peer.sentWindow[k]? = some q <-> k = syn.seqNr ∧ q = syn

theorem removed_later {syn : Packet} {peer : UtpSocketState}
    (inputs : List (Env × Packet))
    (hremoved : forall k : UInt16, peer.sentWindow[k]? ≠ some syn) :
    forall c, c ∈ callsOf inputs peer ->
      forall k : UInt16, c.after.sentWindow[k]? ≠ some syn := by
  intro c hc
  have hkept := (linked_callsOf inputs peer).from_start
    (fun s t => forall (k : UInt16) q, t.sentWindow[k]? = some q ->
      s.sentWindow[k]? = some q)
    (fun s k q hq => hq) (fun s t u hst htu k q hq => hst k q (htu k q hq))
    (fun d _ k q hq => d.handles.window_kept hq)
  intro k hk
  exact hremoved k ((hkept c hc).2 k syn hk)

section Runs

variable {syn : Packet} {env : Env} {packet : Packet} {peer : UtpSocketState}

theorem opensOnSyn_synAck (hsyn : syn.getType = .syn) (hstate : peer.state = .synSent)
    (hwindow : WindowOfSyn syn peer) {c : Call} (hbefore : c.before = peer)
    (houtcome : c.outcome = handleSynAck env c.packet peer) :
    OpensOnSyn syn c <-> c.packet.ackNr = syn.seqNr ∧ c.packet.seqNr = syn.seqNr := by
  have hafter : c.after = (handleSynAck env c.packet peer).peer :=
    congrArg Outcome.peer houtcome
  have hopens : c.Opens := by
    constructor
    · rw [hbefore, hstate]
      decide
    · rw [hafter]
      rfl
  constructor
  · intro hc
    refine ⟨hc.acked hopens, ?_⟩
    by_contra hne
    apply hc.removed hopens.2 syn.seqNr
    rw [hafter]
    change (peer.sentWindow.erase c.packet.seqNr)[syn.seqNr]? = some syn
    rw [getElem?_erase_eq, if_neg hne]
    exact (hwindow _ _).mpr ⟨rfl, rfl⟩
  · intro hanswers
    have hremoved : forall k : UInt16, c.after.sentWindow[k]? ≠ some syn := by
      intro k hk
      rw [hafter] at hk
      change (peer.sentWindow.erase c.packet.seqNr)[k]? = some syn at hk
      rw [getElem?_erase_eq] at hk
      split at hk
      · cases hk
      · rename_i hne
        exact hne (hanswers.2.trans ((hwindow _ _).mp hk).1.symm)
    exact
      { acked := fun _ => hanswers.1
        lastAcked := by
          intro _
          rw [hafter]
          exact hanswers.1
        removed := fun _ => hremoved
        notResent := fun _ => notResent_of_removed hsyn hremoved }

theorem answersSyn_cons_state {inputs : List (Env × Packet)}
    (htype : packet.getType = .state) :
    AnswersSyn syn ((env, packet) :: inputs) <->
      packet.ackNr = syn.seqNr ∧ packet.seqNr = syn.seqNr := by
  rw [AnswersSyn, settling_cons_of_eq (Or.inl htype)]
  constructor
  · intro h
    exact h _ rfl htype
  · intro h input hinput _
    cases hinput
    exact h

theorem OpensOnSyn.later (hsyn : syn.getType = .syn) {c : Call}
    {inputs : List (Env × Packet)} (hc : OpensOnSyn syn c) (hopens : c.Opens)
    (hnever : forall d, d ∈ callsOf inputs c.after -> ¬ d.Opens) :
    forall d, d ∈ callsOf inputs c.after -> OpensOnSyn syn d := by
  intro d hd
  have hremoved := removed_later inputs (hc.removed hopens.2) d hd
  exact
    { acked := fun hopened => absurd hopened (hnever d hd)
      lastAcked := fun hopened => absurd hopened (hnever d hd)
      removed := fun _ => hremoved
      notResent := fun _ => notResent_of_removed hsyn hremoved }

theorem OpensOnSyn.of_terminated {c : Call} (h : c.after.state.Terminated) :
    OpensOnSyn syn c := by
  apply OpensOnSyn.of_not_connected
  intro hconnected
  rw [hconnected, SocketState.terminated_iff] at h
  cases h

theorem opensOnSyn_waiting (hsyn : syn.getType = .syn) (hstate : peer.state = .synSent)
    (hwindow : WindowOfSyn syn peer) (inputs : List (Env × Packet)) :
    (forall c, c ∈ callsOf inputs peer -> OpensOnSyn syn c) <->
      AnswersSyn syn inputs := by
  induction inputs with
  | nil =>
      exact iff_of_true (fun c hc => by cases hc) (fun input hinput => by cases hinput)
  | cons input inputs ih =>
      rcases input with ⟨env, packet⟩
      rcases handlePacket_waiting env packet hstate with ⟨o, ho, hcase⟩
      rcases callsOf_cons inputs ho with ⟨c, rfl, hbefore, rfl, hcalls⟩
      have honce := callsOf_openedOnce ((env, c.packet) :: inputs) peer
      have hkept := callsOf_frozen ((env, c.packet) :: inputs) peer
      rw [hcalls] at honce hkept
      rw [hcalls, List.forall_mem_cons]
      rcases hcase with ⟨htype, houtcome⟩ | ⟨htype, hreset⟩ | ⟨hnotState,
        hnotReset, hsame⟩
      · -- the call opens the connection, and no later one does
        rw [answersSyn_cons_state htype,
          ← opensOnSyn_synAck hsyn hstate hwindow hbefore houtcome]
        refine and_iff_left_of_imp ?_
        intro hc
        have hopens : c.Opens := by
          refine ⟨?_, congrArg (fun o => o.peer.state) houtcome⟩
          rw [hbefore, hstate]
          decide
        have hnever := (List.pairwise_cons.mp honce).1
        exact hc.later hsyn hopens fun d hd => hnever d hd hopens
      · -- the connection is over
        have hover : c.after.state.Terminated := Or.inr hreset
        have hfrozen := (List.pairwise_cons.mp (List.pairwise_cons.mp hkept).2).1
        refine iff_of_true ⟨.of_terminated hover, ?_⟩ ?_
        · intro d hd
          exact .of_terminated (hfrozen d.after (List.mem_map_of_mem hd) hover).terminated
        · intro input hinput hstate'
          rw [settling_cons_of_eq (Or.inr htype)] at hinput
          cases hinput
          rw [htype] at hstate'
          cases hstate'
      · have hwaiting : c.after.state ≠ .connected := by
          rw [Call.after, hsame, hstate]
          decide
        rw [hsame, ih, AnswersSyn, AnswersSyn, settling_cons_of_ne hnotState hnotReset]
        exact and_iff_right (.of_not_connected hwaiting)

end Runs

theorem windowOfSyn_connectPeer (id senderId : UInt16) (addr : SocketAddr) :
    WindowOfSyn (synPacket id (.new senderId)) (connectPeer id senderId addr) := by
  intro k q
  change ((∅ : PacketMap).insert (synPacket id (.new senderId)).seqNr
    (synPacket id (.new senderId)))[k]? = some q <-> _
  rw [getElem?_insert_eq]
  split
  · rename_i hk
    rw [Option.some.injEq, hk]
    exact ⟨fun h => ⟨rfl, h.symm⟩, fun h => h.2.symm⟩
  · rename_i hk
    exact iff_of_false (by simp) fun h => hk h.1.symm

/-- In every run of a client behind `connect`, the connection is opened by an
acknowledgement of the `Syn` that takes the `Syn` out of the window exactly when
the first `State` or `Reset` is not a `State`, or one with the number of the
`Syn` in both fields. -/
theorem client_opens_on_syn_iff (id senderId : UInt16) (addr : SocketAddr)
    (inputs : List (Env × Packet)) :
    (forall c, c ∈ callsOf inputs (connectPeer id senderId addr) ->
      OpensOnSyn (synPacket id (.new senderId)) c) <->
        AnswersSyn (synPacket id (.new senderId)) inputs :=
  opensOnSyn_waiting (getType_synPacket ..) rfl
    (windowOfSyn_connectPeer id senderId addr) inputs

theorem call_of_state (seqNr ackNr : UInt16) :
    exists c, c ∈ callsOf [incoming .state seqNr ackNr] (connectPeer 7 9 (loopback 1)) ∧
      c.packet = barePacket .state seqNr ackNr ∧ c.Opens ∧
      c.after = (handleSynAck (healthyEnv 7) (barePacket .state seqNr ackNr)
        (connectPeer 7 9 (loopback 1))).peer := by
  have ho : handlePacket (healthyEnv 7) (barePacket .state seqNr ackNr)
      (connectPeer 7 9 (loopback 1)) = .ok (handleSynAck (healthyEnv 7)
        (barePacket .state seqNr ackNr) (connectPeer 7 9 (loopback 1))) := by
    have hstate : (connectPeer 7 9 (loopback 1)).state = .synSent := rfl
    simp only [handlePacket, hstate, getType_barePacket]
  rcases callsOf_cons [] ho with ⟨c, hpacket, hbefore, houtcome, hcalls⟩
  have hafter : c.after = _ := congrArg Outcome.peer houtcome
  refine ⟨c, ?_, hpacket, ⟨?_, ?_⟩, hafter⟩
  · rw [incoming, hcalls]
    exact List.mem_cons_self ..
  · rw [hbefore]
    intro hconnected
    cases hconnected
  · rw [hafter]
    rfl

/-- A `State` that acknowledges nothing opens the connection; one that does
acknowledge the `Syn` but has another number leaves it in the window, and the
next write sends it again. -/
theorem stray_state_opens :
    (exists c, c ∈ callsOf [incoming .state 1 0] (connectPeer 7 9 (loopback 1)) ∧
      c.Opens ∧ c.packet.ackNr ≠ (synPacket 7 (.new 9)).seqNr ∧
      ¬ OpensOnSyn (synPacket 7 (.new 9)) c) ∧
    exists c, c ∈ callsOf [incoming .state 5 1] (connectPeer 7 9 (loopback 1)) ∧
      c.Opens ∧ c.packet.ackNr = (synPacket 7 (.new 9)).seqNr ∧
      (sendPackets (healthyEnv 7) [] (loopback 1) c.after).sent =
        [(synPacket 7 (.new 9), loopback 1)] ∧
      ¬ OpensOnSyn (synPacket 7 (.new 9)) c := by
  constructor
  · rcases call_of_state 1 0 with ⟨c, hmem, hpacket, hopens, -⟩
    have hack : c.packet.ackNr ≠ (synPacket 7 (.new 9)).seqNr := by
      rw [hpacket]
      decide +kernel
    exact ⟨c, hmem, hopens, hack, fun h => hack (h.acked hopens)⟩
  · rcases call_of_state 5 1 with ⟨c, hmem, hpacket, hopens, hafter⟩
    have hsent : (sendPackets (healthyEnv 7) [] (loopback 1) c.after).sent =
        [(synPacket 7 (.new 9), loopback 1)] := by
      rw [hafter]
      decide +kernel
    refine ⟨c, hmem, hopens, ?_, hsent, ?_⟩
    · rw [hpacket]
      decide +kernel
    · intro h
      refine h.notResent hopens.2 (healthyEnv 7) [] (loopback 1)
        (synPacket 7 (.new 9), loopback 1) ?_ rfl
      rw [hsent]
      exact List.mem_cons_self ..

end Utp
