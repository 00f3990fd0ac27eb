import Utp.Socket.SynAcked
import Utp.Transport.Numbering

/-!
# Writes around the handshake

`connect` returns before the server has answered, so writes may come before and
after the server's `State` reply.  The numbering of a whole such run is correct
exactly when nothing was written before the reply.
-/

namespace Utp

open Foundation

/-!
## Several writes
-/

def writeAll : List Write -> UtpSocketState -> UtpSocketState
  | [], peer => peer
  | w :: ws, peer => writeAll ws (w.apply peer)

def createdAll : List Write -> UtpSocketState -> List Packet
  | [], _ => []
  | w :: ws, peer => w.created peer ++ createdAll ws (w.apply peer)

def chunkCount (ws : List Write) : Nat :=
  (ws.map fun w => (chunksOf w.buf).length).sum

theorem length_createdAll (ws : List Write) (peer : UtpSocketState) :
    (createdAll ws peer).length = chunkCount ws := by
  induction ws generalizing peer with
  | nil => rfl
  | cons w ws ih =>
      rw [createdAll, List.length_append, ih, Write.created, length_createdPackets]
      rfl

theorem numberedFrom_createdAll {ws : List Write} {peer : UtpSocketState}
    (h : peer.state ≠ .closed) : NumberedFrom peer.seqNr (createdAll ws peer) := by
  induction ws generalizing peer with
  | nil => exact numberedFrom_nil _
  | cons w ws ih =>
      have happly := w.apply_eq h
      have hstate : (w.apply peer).state ≠ .closed := by
        rw [happly]
        exact h
      have hrest := ih hstate
      rw [happly] at hrest
      refine numberedFrom_append.mpr ⟨w.numberedFrom peer, ?_⟩
      rw [happly]
      exact hrest

theorem state_writeAll {ws : List Write} {peer : UtpSocketState}
    (h : peer.state ≠ .closed) : (writeAll ws peer).state = peer.state := by
  induction ws generalizing peer with
  | nil => rfl
  | cons w ws ih =>
      have hstate : (w.apply peer).state = peer.state := by
        rw [w.apply_eq h]
      rw [writeAll, ih (by rw [hstate]; exact h), hstate]

/-!
## The handshake
-/

theorem reply_of_newSyn {env : Env} {packet reply : Packet} {server : UtpSocketState}
    {o : Outcome} (hstate : server.state = .new) (htype : packet.getType = .syn)
    (ho : handlePacket env packet server = .ok o)
    (hreply : o.result = .ok (some reply)) :
    reply = prepareReply env packet .state packet.seqNr packet.seqNr := by
  simp only [handlePacket, hstate, htype] at ho
  cases ho
  cases hreply
  rfl

/-- What the numbering around a handshake should be: all numbers differ, the
data follows the `Syn`, and the reply takes only the `Syn` out of the window. -/
structure HandshakeNumbering (syn : Packet) (waiting opened : UtpSocketState)
    (created : List Packet) : Prop where
  distinct : ((syn :: created).map Packet.seqNr).Nodup
  consecutive : NumberedFrom (syn.seqNr + 1) created
  kept : forall (k : UInt16) p, waiting.sentWindow[k]? = some p -> p ≠ syn ->
    opened.sentWindow[k]? = some p

theorem nodup_of_numberedFrom {syn : Packet} {created : List Packet}
    (h : NumberedFrom (syn.seqNr + 1) created) :
    ((syn :: created).map Packet.seqNr).Nodup <-> created.length <= 65535 := by
  have hnumber : forall i (hi : i < ((syn :: created).map Packet.seqNr).length),
      ((syn :: created).map Packet.seqNr)[i] = syn.seqNr + UInt16.ofNat i := by
    intro i hi
    rw [List.getElem_map]
    cases i with
    | zero => exact (UInt16.add_zero syn.seqNr).symm
    | succ i =>
        rw [List.getElem_cons_succ]
        have hlt : i < created.length := by simpa using hi
        rw [h i _ (List.getElem?_eq_getElem hlt)]
        exact ofNat_succ_add syn.seqNr i
  have hlength : ((syn :: created).map Packet.seqNr).length = created.length + 1 := by
    simp
  rw [List.nodup_iff_injective_get]
  constructor
  · intro hinj
    by_contra hlong
    -- the packet 65536 behind the first one repeats its number
    have hwrap : UInt16.ofNat 0 = UInt16.ofNat 65536 := by decide
    have hsame := @hinj ⟨0, by omega⟩ ⟨65536, by omega⟩ (by
      rw [List.get_eq_getElem, List.get_eq_getElem, hnumber, hnumber, hwrap])
    cases hsame
  · intro hshort i j hij
    rw [List.get_eq_getElem, List.get_eq_getElem, hnumber, hnumber] at hij
    have hnat := congrArg UInt16.toNat ((UInt16.add_right_inj _).mp hij)
    rw [UInt16.toNat_ofNat', UInt16.toNat_ofNat'] at hnat
    have hi := i.isLt
    have hj := j.isLt
    apply Fin.ext
    omega

theorem opened_of_handshake {id senderId : UInt16} {addr : SocketAddr}
    {before : List Write} {serverEnv env : Env} {server : UtpSocketState}
    {answered opened : Outcome} {reply : Packet} (hnew : server.state = .new)
    (hanswer : handlePacket serverEnv (synPacket id (.new senderId)) server =
      .ok answered)
    (hreply : answered.result = .ok (some reply))
    (hopen : handlePacket env reply (writeAll before (connectPeer id senderId addr)) =
      .ok opened) :
    opened = handleSynAck env reply (writeAll before (connectPeer id senderId addr)) ∧
      reply.ackNr = (synPacket id (.new senderId)).seqNr := by
  have hwaiting : (connectPeer id senderId addr).state ≠ .closed := by
    show SocketState.synSent ≠ .closed
    decide
  have hstate : (writeAll before (connectPeer id senderId addr)).state = .synSent :=
    state_writeAll hwaiting
  cases reply_of_newSyn hnew (getType_synPacket id _) hanswer hreply
  rw [handlePacket_synAck hstate (getType_prepareReply ..)] at hopen
  exact ⟨(Except.ok.inj hopen).symm, ackNr_prepareReply ..⟩

theorem no_early_write {id senderId : UInt16} {addr : SocketAddr} {before : List Write}
    {rest : List Packet} (hbufs : forall w, w ∈ before -> w.buf ≠ [])
    (h : NumberedFrom ((synPacket id (.new senderId)).seqNr + 1)
      (createdAll before (connectPeer id senderId addr) ++ rest)) : before = [] := by
  cases before with
  | nil => rfl
  | cons w ws =>
      have hfirst := (numberedFrom_append.mp (numberedFrom_append.mp h).1).1
      rcases (w.numberedFrom _).start_unique.mp hfirst with hnil | hstart
      · exact absurd (Write.created_eq_nil.mp hnil) (hbufs w (List.mem_cons_self ..))
      · rw [seqNr_synPacket] at hstart
        have hne : (1 : UInt16) + 1 ≠ 1 := by decide
        exact absurd hstart hne

/-- Around a handshake the numbering is right exactly when nothing is written
before the reply, and no more than the numbers behind the `Syn` allow. -/
theorem handshakeNumbering_iff {id senderId : UInt16} {addr : SocketAddr}
    {before after : List Write} {serverEnv env : Env} {server : UtpSocketState}
    {answered opened : Outcome} {reply : Packet} (hnew : server.state = .new)
    (hanswer : handlePacket serverEnv (synPacket id (.new senderId)) server =
      .ok answered)
    (hreply : answered.result = .ok (some reply))
    (hopen : handlePacket env reply (writeAll before (connectPeer id senderId addr)) =
      .ok opened)
    (hbufs : forall w, w ∈ before ++ after -> w.buf ≠ []) :
    HandshakeNumbering (synPacket id (.new senderId))
      (writeAll before (connectPeer id senderId addr)) opened.peer
      (createdAll before (connectPeer id senderId addr) ++
        createdAll after opened.peer) <->
    before = [] ∧ chunkCount after <= 65535 := by
  have hsynAck := (opened_of_handshake hnew hanswer hreply hopen).1
  have hopened : opened.peer.state ≠ .closed := by
    rw [hsynAck]
    show SocketState.connected ≠ .closed
    decide
  have hseq : opened.peer.seqNr =
      (writeAll before (connectPeer id senderId addr)).seqNr + 1 := by
    rw [hsynAck]
    rfl
  have hafter : NumberedFrom opened.peer.seqNr (createdAll after opened.peer) :=
    numberedFrom_createdAll hopened
  rw [hseq] at hafter
  constructor
  · intro h
    have hbefore : before = [] :=
      no_early_write (fun w hw => hbufs w (List.mem_append_left _ hw)) h.consecutive
    refine ⟨hbefore, ?_⟩
    have hlength := (nodup_of_numberedFrom h.consecutive).mp h.distinct
    rw [hbefore] at hlength
    rwa [createdAll, List.nil_append, length_createdAll] at hlength
  · intro h
    rcases h with ⟨rfl, hcount⟩
    have hconsecutive : NumberedFrom ((synPacket id (.new senderId)).seqNr + 1)
        (createdAll [] (connectPeer id senderId addr) ++
          createdAll after opened.peer) := by
      rw [createdAll, List.nil_append, seqNr_synPacket]
      exact hafter
    refine
      { distinct := (nodup_of_numberedFrom hconsecutive).mpr ?_
        consecutive := hconsecutive
        kept := ?_ }
    · rw [createdAll, List.nil_append, length_createdAll]
      exact hcount
    · intro k p hp hne
      exact absurd ((windowOfSyn_connectPeer id senderId addr k p).mp hp).2 hne

def sixBytes : Write where
  env := healthyEnv 7
  buf := [1, 2, 3, 4, 5, 6]
  addr := loopback 2

def synReply : Packet :=
  prepareReply (healthyEnv 8) (synPacket 7 (.new 3)) .state 1 1

/-- The reply arrives before the first write. -/
theorem handshakeNumbering_late_write :
    exists opened,
      handlePacket (healthyEnv 7) synReply (connectPeer 7 3 (loopback 2)) =
        .ok opened ∧
      HandshakeNumbering (synPacket 7 (.new 3)) (connectPeer 7 3 (loopback 2))
        opened.peer (createdAll [sixBytes] opened.peer) := by
  have hserver : handlePacket (healthyEnv 8) (synPacket 7 (.new 3)) (.new 7) =
      .ok (handleNewSyn (healthyEnv 8) (synPacket 7 (.new 3)) (.new 7)) := rfl
  have hopen : handlePacket (healthyEnv 7) synReply
      (writeAll [] (connectPeer 7 3 (loopback 2))) =
        .ok (handleSynAck (healthyEnv 7) synReply (connectPeer 7 3 (loopback 2))) :=
    rfl
  have hbufs : forall w, w ∈ [] ++ [sixBytes] -> w.buf ≠ [] := by
    intro w hw
    cases List.mem_singleton.mp hw
    decide
  refine ⟨_, hopen, ?_⟩
  exact (handshakeNumbering_iff rfl hserver rfl hopen hbufs).mpr
    ⟨rfl, by decide +kernel⟩

/-- A write before the reply takes the number of the `Syn`, and the reply takes
it out of the window again. -/
theorem early_write_removed :
    exists opened syn p,
      handlePacket (healthyEnv 7) synReply
        (sixBytes.apply (connectPeer 7 3 (loopback 2))) = .ok opened ∧
      syn = synPacket 7 (.new 3) ∧
      sixBytes.created (connectPeer 7 3 (loopback 2)) = [p] ∧
      p.seqNr = syn.seqNr ∧ p.getType = .data ∧
      (sixBytes.apply (connectPeer 7 3 (loopback 2))).sentWindow[p.seqNr]? = some p ∧
      opened.peer.sentWindow[p.seqNr]? = none ∧
      ¬ HandshakeNumbering syn (sixBytes.apply (connectPeer 7 3 (loopback 2)))
        opened.peer [p] := by
  have hopen : handlePacket (healthyEnv 7) synReply
      (sixBytes.apply (connectPeer 7 3 (loopback 2))) =
        .ok (handleSynAck (healthyEnv 7) synReply
          (sixBytes.apply (connectPeer 7 3 (loopback 2)))) :=
    handlePacket_synAck (by decide +kernel) (getType_prepareReply ..)
  refine ⟨_, _, dataPacket 7 (connectPeer 7 3 (loopback 2)) [1, 2, 3, 4, 5, 6],
    hopen, rfl, ?_, ?_, getType_dataPacket .., ?_, ?_, ?_⟩
  · decide +kernel
  · decide +kernel
  · decide +kernel
  · decide +kernel
  · intro h
    exact absurd h.distinct (by decide +kernel)

end Utp
