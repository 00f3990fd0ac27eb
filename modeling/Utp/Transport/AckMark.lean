import Utp.Socket.PacketRun
import Utp.Transport.EarlyWrites

/-!
# The acknowledged mark

Two arms of a connected client move the last acknowledged number: the one for an
`Ack` by one at most, and the one for a `State` to whatever number the packet
carries.  This module follows the number through a run of writes and incoming
acknowledgements.
-/

namespace Utp

open Foundation

/-!
## Soundness of a run
-/

/-- One of the packets has this number or a greater one. -/
def Covered (sent : List Packet) (mark : UInt16) : Prop :=
  exists p, p ∈ sent ∧ mark.toNat <= p.seqNr.toNat

instance (sent : List Packet) (mark : UInt16) : Decidable (Covered sent mark) :=
  inferInstanceAs (Decidable (exists p, p ∈ sent ∧ mark.toNat <= p.seqNr.toNat))

theorem Covered.append {sent : List Packet} {mark : UInt16} (h : Covered sent mark)
    (more : List Packet) : Covered (sent ++ more) mark := by
  rcases h with ⟨p, hp, hle⟩
  exact ⟨p, List.mem_append_left _ hp, hle⟩

/-- The mark never decreases and never passes the greatest number sent so far.
A call that aborts ends the run. -/
def MarkSound : List EndpointAction -> UtpSocketState -> List Packet -> Prop
  | [], peer, sent => Covered sent peer.lastAcked
  | .write w :: actions, peer, sent =>
      Covered sent peer.lastAcked ∧
        MarkSound actions (w.apply peer) (sent ++ w.created peer)
  | .receive env packet :: actions, peer, sent =>
      Covered sent peer.lastAcked ∧
        forall o, handlePacket env packet peer = .ok o ->
          peer.lastAcked.toNat <= o.peer.lastAcked.toNat ∧
            MarkSound actions o.peer sent

def AcksAndStates (actions : List EndpointAction) : Prop :=
  forall env packet, EndpointAction.receive env packet ∈ actions ->
    packet.getType = .ack ∨ packet.getType = .state

theorem AcksAndStates.write {actions : List EndpointAction} (h : AcksAndStates actions)
    (w : Write) : AcksAndStates (.write w :: actions) := by
  intro env packet hmem
  rcases List.mem_cons.mp hmem with heq | hmem
  · cases heq
  · exact h env packet hmem

theorem AcksAndStates.receive {actions : List EndpointAction} (h : AcksAndStates actions)
    (env : Env) {packet : Packet} (htype : packet.getType = .ack ∨
      packet.getType = .state) :
    AcksAndStates (.receive env packet :: actions) := by
  intro env' packet' hmem
  rcases List.mem_cons.mp hmem with heq | hmem
  · cases heq
    exact htype
  · exact h env' packet' hmem

theorem acksAndStates_nil : AcksAndStates [] := by
  intro env packet hmem
  cases hmem

/-- A number the mark moves to must have been sent, and a `State` must not carry
an older number than the mark. -/
structure HonestMark (packet : Packet) (peer : UtpSocketState) (sent : List Packet) :
    Prop where
  ack : packet.getType = .ack -> packet.ackNr.toNat = peer.lastAcked.toNat + 1 ->
    Covered sent packet.ackNr
  state : packet.getType = .state ->
    peer.lastAcked.toNat <= packet.ackNr.toNat ∧ Covered sent packet.ackNr

def HonestRun : List EndpointAction -> UtpSocketState -> List Packet -> Prop
  | [], _, _ => True
  | .write w :: actions, peer, sent =>
      HonestRun actions (w.apply peer) (sent ++ w.created peer)
  | .receive env packet :: actions, peer, sent =>
      forall o, handlePacket env packet peer = .ok o ->
        HonestMark packet peer sent ∧ HonestRun actions o.peer sent

/-!
## One packet
-/

section Receive

variable {env : Env} {packet : Packet} {peer : UtpSocketState} {o : Outcome}

theorem mark_of_handlePacket (hstate : peer.state = .connected)
    (htype : packet.getType = .ack ∨ packet.getType = .state)
    (h : handlePacket env packet peer = .ok o) :
    o.peer.state = .connected ∧
      o.peer.lastAcked =
        if packet.getType = .state ∨ packet.ackNr.toNat = peer.lastAcked.toNat + 1 then
          packet.ackNr
        else peer.lastAcked := by
  rcases htype with htype | htype
  · rw [handlePacket_ack hstate htype] at h
    rcases handleAck_frame h with ⟨hframe, hmark⟩
    refine ⟨hframe.state.trans hstate, ?_⟩
    rw [hmark, htype]
    simp
  · rw [handlePacket_state hstate htype] at h
    rcases handleState_frame h with ⟨hframe, -, hmark⟩
    refine ⟨hframe.state.trans hstate, ?_⟩
    rw [hmark, if_pos (Or.inl htype)]

theorem honestMark_iff {sent : List Packet} (hstate : peer.state = .connected)
    (htype : packet.getType = .ack ∨ packet.getType = .state)
    (hcovered : Covered sent peer.lastAcked)
    (h : handlePacket env packet peer = .ok o) :
    HonestMark packet peer sent <->
      peer.lastAcked.toNat <= o.peer.lastAcked.toNat ∧ Covered sent o.peer.lastAcked := by
  rw [(mark_of_handlePacket hstate htype h).2]
  rcases htype with htype | htype
  · by_cases hnext : packet.ackNr.toNat = peer.lastAcked.toNat + 1
    · rw [if_pos (Or.inr hnext)]
      constructor
      · intro honest
        exact ⟨by omega, honest.ack htype hnext⟩
      · intro hsound
        refine { ack := fun _ _ => hsound.2, state := ?_ }
        intro hother
        cases htype.symm.trans hother
    · rw [if_neg (by simp [htype, hnext])]
      refine iff_of_true ?_ ⟨Nat.le_refl _, hcovered⟩
      refine { ack := fun _ h => absurd h hnext, state := ?_ }
      intro hother
      cases htype.symm.trans hother
  · rw [if_pos (Or.inl htype)]
    constructor
    · intro honest
      exact honest.state htype
    · intro hsound
      refine { ack := ?_, state := fun _ => hsound }
      intro hother
      cases htype.symm.trans hother

end Receive

/-!
## Runs
-/

theorem MarkSound.covered {actions : List EndpointAction} {peer : UtpSocketState}
    {sent : List Packet} (h : MarkSound actions peer sent) :
    Covered sent peer.lastAcked := by
  cases actions with
  | nil => exact h
  | cons action actions => cases action <;> exact h.1

theorem Write.lastAcked_apply {w : Write} {peer : UtpSocketState}
    (h : peer.state = .connected) : (w.apply peer).lastAcked = peer.lastAcked := by
  rw [w.apply_eq (by rw [h]; decide)]

theorem markSound_iff_honest {actions : List EndpointAction} {peer : UtpSocketState}
    {sent : List Packet} (hstate : peer.state = .connected)
    (hacks : AcksAndStates actions) (hcovered : Covered sent peer.lastAcked) :
    MarkSound actions peer sent <-> HonestRun actions peer sent := by
  induction actions generalizing peer sent with
  | nil => exact iff_of_true hcovered trivial
  | cons action actions ih =>
      have hlater : AcksAndStates actions :=
        fun env packet hmem => hacks env packet (List.mem_cons_of_mem _ hmem)
      cases action with
      | write w =>
          rw [MarkSound, HonestRun, and_iff_right hcovered]
          refine ih (Write.state_apply hstate) hlater ?_
          rw [Write.lastAcked_apply hstate]
          exact hcovered.append _
      | receive env packet =>
          have htype := hacks env packet (List.mem_cons_self ..)
          rw [MarkSound, HonestRun, and_iff_right hcovered]
          refine forall_congr' fun o => forall_congr' fun ho => ?_
          have hone := honestMark_iff hstate htype hcovered ho
          have hnext := (mark_of_handlePacket hstate htype ho).1
          constructor
          · intro hsound
            have hmark := hone.mpr ⟨hsound.1, hsound.2.covered⟩
            exact ⟨hmark, (ih hnext hlater hsound.2.covered).mp hsound.2⟩
          · intro honest
            rcases hone.mp honest.1 with ⟨hle, hmark⟩
            exact ⟨hle, (ih hnext hlater hmark).mpr honest.2⟩

def sentBefore (id senderId : UInt16) (addr : SocketAddr) (before : List Write) :
    List Packet :=
  synPacket id (.new senderId) ::
    createdAll before (connectPeer id senderId addr)

/-- After a handshake the mark is sound exactly as long as the packets that move
it are honest. -/
theorem markSound_iff {id senderId : UInt16} {addr : SocketAddr}
    {before : List Write} {serverEnv env : Env} {server : UtpSocketState}
    {answered opened : Outcome} {reply : Packet} {actions : List EndpointAction}
    (hnew : server.state = .new)
    (hanswer : handlePacket serverEnv (synPacket id (.new senderId)) server =
      .ok answered)
    (hreply : answered.result = .ok (some reply))
    (hopen : handlePacket env reply (writeAll before (connectPeer id senderId addr)) =
      .ok opened)
    (hacks : AcksAndStates actions) :
    MarkSound actions opened.peer (sentBefore id senderId addr before) <->
      HonestRun actions opened.peer (sentBefore id senderId addr before) := by
  rcases opened_of_handshake hnew hanswer hreply hopen with ⟨rfl, hack⟩
  exact markSound_iff_honest rfl hacks ⟨_, List.mem_cons_self .., by rw [← hack]; rfl⟩

def handshaken : Outcome :=
  handleSynAck (healthyEnv 7) synReply (connectPeer 7 3 (loopback 2))

/-- One packet written and acknowledged. -/
theorem mark_follows_ack :
    MarkSound [.write sixBytes, .receive (healthyEnv 7) (barePacket .ack 0 2)]
      handshaken.peer (sentBefore 7 3 (loopback 2) []) := by
  have hacks : AcksAndStates
      [.write sixBytes, .receive (healthyEnv 7) (barePacket .ack 0 2)] :=
    (acksAndStates_nil.receive _ (Or.inl (getType_barePacket ..))).write _
  refine (@markSound_iff 7 3 (loopback 2) [] (healthyEnv 8) (healthyEnv 7) (.new 7)
    _ handshaken synReply _ rfl rfl rfl rfl hacks).mpr ?_
  intro o _
  refine ⟨{ ack := fun _ _ => ?_, state := ?_ }, trivial⟩
  · decide +kernel
  · intro hstate
    rw [getType_barePacket] at hstate
    cases hstate

/-- Behind the acknowledgement of the first packet, a late copy of the server's
reply takes the mark back to the number of the `Syn`. -/
theorem late_reply_lowers_mark :
    handlePacket (healthyEnv 7) synReply (connectPeer 7 3 (loopback 2)) =
        .ok handshaken ∧
      AcksAndStates [.write sixBytes, .receive (healthyEnv 7) (barePacket .ack 0 2),
        .receive (healthyEnv 7) synReply] ∧
      ¬ MarkSound [.write sixBytes, .receive (healthyEnv 7) (barePacket .ack 0 2),
        .receive (healthyEnv 7) synReply] handshaken.peer
        (sentBefore 7 3 (loopback 2) []) := by
  refine ⟨rfl, ((acksAndStates_nil.receive _ (Or.inr (getType_prepareReply ..))).receive
    _ (Or.inl (getType_barePacket ..))).write _, ?_⟩
  intro hsound
  have hrun : (handlePacket (healthyEnv 7) (barePacket .ack 0 2)
      (sixBytes.apply handshaken.peer)).toOption.bind (fun o =>
        (handlePacket (healthyEnv 7) synReply o.peer).toOption.map fun o' =>
          (o.peer.lastAcked, o'.peer.lastAcked)) = some (2, 1) := by
    decide +kernel
  rcases Option.bind_eq_some_iff.mp hrun with ⟨o, ho, hrun⟩
  rcases Option.map_eq_some_iff.mp hrun with ⟨o', ho', hmarks⟩
  rcases Prod.mk.inj hmarks with ⟨hbefore, hafter⟩
  have hstep := (hsound.2.2 o (toOption_eq_some.mp ho)).2.2 o' (toOption_eq_some.mp ho')
  rw [hbefore, hafter] at hstep
  exact absurd hstep.1 (by decide)

end Utp
