import Utp.Socket.DataArm
import Utp.Socket.SendPackets

/-!
# Numbering of outgoing data

`send_packets` takes its sequence numbers from the same counter that the `Data`
arm increments.  This module follows the counter through runs that mix writes
and incoming `Data` packets.
-/

namespace Utp

open Foundation

/-!
## Consecutive numbers
-/

/-- The packets carry consecutive sequence numbers, modulo `2 ^ 16`. -/
def NumberedFrom (start : UInt16) (packets : List Packet) : Prop :=
  forall i p, packets[i]? = some p -> p.seqNr = start + UInt16.ofNat i

theorem numberedFrom_nil (start : UInt16) : NumberedFrom start [] := by
  intro i p hp
  cases hp

theorem numberedFrom_append {start : UInt16} {front back : List Packet} :
    NumberedFrom start (front ++ back) <->
      NumberedFrom start front ∧
        NumberedFrom (start + UInt16.ofNat front.length) back := by
  constructor
  · intro h
    constructor
    · intro i p hp
      apply h i p
      rw [List.getElem?_append_left (List.getElem?_eq_some_iff.mp hp).1, hp]
    · intro i p hp
      rw [UInt16.add_assoc, ← UInt16.ofNat_add]
      apply h (front.length + i) p
      rw [List.getElem?_append_right (by omega), Nat.add_sub_cancel_left, hp]
  · intro h i p hp
    by_cases hlt : i < front.length
    · rw [List.getElem?_append_left hlt] at hp
      exact h.1 i p hp
    · rw [List.getElem?_append_right (by omega)] at hp
      rw [h.2 _ p hp, UInt16.add_assoc, ← UInt16.ofNat_add,
        Nat.add_sub_cancel' (Nat.not_lt.mp hlt)]

theorem numberedFrom_createdPackets (id : UInt16) (peer : UtpSocketState)
    (chunks : List (List UInt8)) :
    NumberedFrom peer.seqNr (createdPackets id peer chunks) :=
  fun _ _ hp => (createdPackets_spec hp).2.1

theorem NumberedFrom.start_unique {start other : UInt16} {packets : List Packet}
    (h : NumberedFrom start packets) :
    NumberedFrom other packets <-> packets = [] ∨ other = start := by
  constructor
  · intro hother
    cases packets with
    | nil => exact Or.inl rfl
    | cons p packets =>
        have hfirst := h 0 p rfl
        have hsame := hother 0 p rfl
        have hzero : start + UInt16.ofNat 0 = start := UInt16.add_zero start
        have hzero' : other + UInt16.ofNat 0 = other := UInt16.add_zero other
        rw [hzero] at hfirst
        rw [hzero'] at hsame
        exact Or.inr (hsame.symm.trans hfirst)
  · intro hcase
    rcases hcase with rfl | rfl
    · exact numberedFrom_nil other
    · exact h

/-!
## Writes
-/

/-- One call of `send_packets`. -/
structure Write where
  env : Env
  buf : List UInt8
  addr : SocketAddr

def Write.apply (w : Write) (peer : UtpSocketState) : UtpSocketState :=
  (sendPackets w.env w.buf w.addr peer).peer

def Write.created (w : Write) (peer : UtpSocketState) : List Packet :=
  createdPackets w.env.id peer (chunksOf w.buf)

theorem Write.apply_eq {w : Write} {peer : UtpSocketState} (h : peer.state ≠ .closed) :
    w.apply peer = { peer with
      seqNr := peer.seqNr + UInt16.ofNat (w.created peer).length
      sentWindow := (w.apply peer).sentWindow } := by
  have hpeer : (sendPackets w.env w.buf w.addr peer).peer = enqueue w.env.id w.buf peer :=
    sendPackets_peer h
  unfold Write.apply Write.created
  rw [hpeer, length_createdPackets]
  exact foldl_enqueueChunk w.env.id peer (chunksOf w.buf)

theorem Write.created_eq_nil {w : Write} {peer : UtpSocketState} :
    w.created peer = [] <-> w.buf = [] := by
  rw [← List.length_eq_zero_iff, Write.created, length_createdPackets,
    List.length_eq_zero_iff, chunksOf, chunks_eq_nil_iff]

theorem Write.numberedFrom (w : Write) (peer : UtpSocketState) :
    NumberedFrom peer.seqNr (w.created peer) :=
  numberedFrom_createdPackets w.env.id peer (chunksOf w.buf)

/-!
## Writes between incoming data
-/

inductive EndpointAction where
  | write (w : Write)
  | receive (env : Env) (packet : Packet)

/-- Run an endpoint that writes and receives `Data` packets; the result is its
last state and the packets it created, in order. -/
def runEndpoint :
    List EndpointAction -> UtpSocketState -> Option (UtpSocketState × List Packet)
  | [], peer => some (peer, [])
  | .write w :: actions, peer =>
      (runEndpoint actions (w.apply peer)).map fun r =>
        (r.1, w.created peer ++ r.2)
  | .receive env packet :: actions, peer =>
      if packet.getType = .data then
        match handlePacket env packet peer with
        | .ok o => runEndpoint actions o.peer
        | .error _ => none
      else
        none

def WritesNothing : List EndpointAction -> Prop
  | [] => True
  | .write w :: actions => w.buf = [] ∧ WritesNothing actions
  | .receive _ _ :: actions => WritesNothing actions

/-- Once a packet that is next in order has been received, nothing is written. -/
def WritesFirst : List EndpointAction -> UtpSocketState -> Prop
  | [], _ => True
  | .write w :: actions, peer => WritesFirst actions (w.apply peer)
  | .receive env packet :: actions, peer =>
      (packet.seqNr.toNat = peer.lastAcked.toNat + 1 -> WritesNothing actions) ∧
        forall o, handlePacket env packet peer = .ok o -> WritesFirst actions o.peer

theorem runEndpoint_receive {env : Env} {packet : Packet}
    {actions : List EndpointAction} {peer : UtpSocketState}
    {r : UtpSocketState × List Packet} (hstate : peer.state = .connected)
    (h : runEndpoint (.receive env packet :: actions) peer = some r) :
    exists o sack, handlePacket env packet peer = .ok o ∧
      DataEffect packet peer o.peer sack ∧ o.peer.state = .connected ∧
      runEndpoint actions o.peer = some r := by
  rw [runEndpoint] at h
  split at h
  · rename_i htype
    split at h
    · rename_i o ho
      have hdata : handleData env packet peer = .ok o := by
        rw [← ho]
        simp only [handlePacket, hstate, htype]
      rcases handleData_eq_ok hdata with ⟨sack, reply, haccept, -, -⟩
      have heffect := acceptData_eq_ok haccept
      exact ⟨o, sack, ho, heffect, heffect.state.trans hstate, h⟩
    · cases h
  · cases h

theorem Write.state_apply {w : Write} {peer : UtpSocketState}
    (h : peer.state = .connected) : (w.apply peer).state = .connected := by
  rw [w.apply_eq (by rw [h]; decide)]
  exact h

theorem writesFirst_receive {env : Env} {packet : Packet}
    {actions : List EndpointAction} {peer : UtpSocketState} {o : Outcome}
    (ho : handlePacket env packet peer = .ok o) :
    WritesFirst (.receive env packet :: actions) peer <->
      (packet.seqNr.toNat = peer.lastAcked.toNat + 1 -> WritesNothing actions) ∧
        WritesFirst actions o.peer := by
  rw [WritesFirst]
  refine and_congr_right fun _ => ?_
  constructor
  · intro hall
    exact hall o ho
  · intro hrest o' ho'
    cases ho.symm.trans ho'
    exact hrest

theorem sub_ofNat_eq_self_iff {n : UInt16} {offset : Nat} (h : offset < 65536) :
    n - UInt16.ofNat offset = n <-> offset = 0 := by
  constructor
  · intro heq
    have hzero : UInt16.ofNat offset = 0 := by grind
    have hnat := congrArg UInt16.toNat hzero
    rw [UInt16.toNat_ofNat', UInt16.toNat_zero] at hnat
    omega
  · intro hzero
    rw [hzero]
    exact UInt16.sub_zero n

theorem numberedFrom_write_iff {w : Write} {peer : UtpSocketState} {rest : List Packet}
    {offset : Nat} (hopen : peer.state ≠ .closed) (hoffset : offset < 65536) :
    NumberedFrom (peer.seqNr - UInt16.ofNat offset) (w.created peer ++ rest) <->
      (w.buf = [] ∨ offset = 0) ∧
        NumberedFrom ((w.apply peer).seqNr - UInt16.ofNat offset) rest := by
  have hseq : (w.apply peer).seqNr =
      peer.seqNr + UInt16.ofNat (w.created peer).length := by
    rw [w.apply_eq hopen]
  have hshift : peer.seqNr - UInt16.ofNat offset + UInt16.ofNat (w.created peer).length =
      (w.apply peer).seqNr - UInt16.ofNat offset := by
    rw [hseq]
    grind
  rw [numberedFrom_append, hshift, (w.numberedFrom peer).start_unique,
    Write.created_eq_nil, sub_ofNat_eq_self_iff hoffset]

theorem numberedFrom_behind_iff {actions : List EndpointAction} {peer : UtpSocketState}
    {r : UtpSocketState × List Packet} {offset : Nat}
    (hstate : peer.state = .connected) (hoffset : offset <= peer.lastAcked.toNat)
    (h : runEndpoint actions peer = some r) :
    NumberedFrom (peer.seqNr - UInt16.ofNat offset) r.2 <->
      (offset ≠ 0 -> WritesNothing actions) ∧ WritesFirst actions peer := by
  induction actions generalizing peer r offset with
  | nil =>
      cases h
      exact iff_of_true (numberedFrom_nil _) ⟨fun _ => trivial, trivial⟩
  | cons action actions ih =>
      cases action with
      | write w =>
          have hopen : peer.state ≠ .closed := by
            rw [hstate]
            decide
          rcases Option.map_eq_some_iff.mp h with ⟨r', hrest, rfl⟩
          have hlast : (w.apply peer).lastAcked = peer.lastAcked := by
            rw [w.apply_eq hopen]
          have htail := @ih (w.apply peer) r' offset (Write.state_apply hstate)
            (by rw [hlast]; exact hoffset) hrest
          have hbound : offset < 65536 :=
            Nat.lt_of_le_of_lt hoffset peer.lastAcked.toNat_lt
          show NumberedFrom _ (w.created peer ++ r'.2) <->
            (offset ≠ 0 -> w.buf = [] ∧ WritesNothing actions) ∧
              WritesFirst actions (w.apply peer)
          rw [numberedFrom_write_iff hopen hbound, htail]
          by_cases hzero : offset = 0
          · simp [hzero]
          · simp [hzero, and_assoc]
      | receive env packet =>
          rcases runEndpoint_receive hstate h with ⟨o, sack, ho, heffect, hconn, hrest⟩
          rw [writesFirst_receive ho]
          show _ <-> (offset ≠ 0 -> WritesNothing actions) ∧ _
          rcases heffect.counters with ⟨hnext, hseq, hlast⟩ | ⟨hnot, hseq, hlast⟩
          · have htail := @ih o.peer r (offset + 1) hconn (by omega) hrest
            have hshift : o.peer.seqNr - UInt16.ofNat (offset + 1) =
                peer.seqNr - UInt16.ofNat offset := by
              rw [hseq, UInt16.ofNat_add]
              grind
            rw [hshift] at htail
            rw [htail]
            simp only [hnext]
            constructor
            · intro hboth
              have hnothing := hboth.1 (Nat.succ_ne_zero _)
              exact ⟨fun _ => hnothing, fun _ => hnothing, hboth.2⟩
            · intro hboth
              exact ⟨fun _ => hboth.2.1 trivial, hboth.2.2⟩
          · have htail := @ih o.peer r offset hconn (by rw [hlast]; exact hoffset)
              hrest
            rw [hseq] at htail
            rw [htail]
            simp [hnot]

/-- Outgoing data is numbered without a gap exactly when nothing is written
after an in-order `Data` packet has been received. -/
theorem numberedFrom_iff_writesFirst {actions : List EndpointAction}
    {peer last : UtpSocketState} {created : List Packet}
    (hstate : peer.state = .connected)
    (hrun : runEndpoint actions peer = some (last, created)) :
    NumberedFrom peer.seqNr created <-> WritesFirst actions peer := by
  have h : NumberedFrom (peer.seqNr - UInt16.ofNat 0) created <-> _ :=
    numberedFrom_behind_iff hstate (Nat.zero_le _) hrun
  rw [show UInt16.ofNat 0 = 0 from rfl, UInt16.sub_zero] at h
  rw [h]
  simp

def threeBytes : Write where
  env := healthyEnv 7
  buf := [1, 2, 3]
  addr := loopback 2

theorem numbered_before_receiving :
    exists last created,
      runEndpoint [.write threeBytes, .write threeBytes,
        .receive (healthyEnv 7) (barePacket .data 2 0)] (openPeer (loopback 2)) =
          some (last, created) ∧
      created.length = 2 ∧ NumberedFrom 2 created := by
  have hrun : (runEndpoint [.write threeBytes, .write threeBytes,
      .receive (healthyEnv 7) (barePacket .data 2 0)]
        (openPeer (loopback 2))).map (fun r => r.2.length) = some 2 := by
    decide +kernel
  rcases Option.map_eq_some_iff.mp hrun with ⟨⟨last, created⟩, hrun, hlength⟩
  refine ⟨last, created, hrun, hlength, ?_⟩
  exact (numberedFrom_iff_writesFirst rfl hrun).mpr
    ⟨fun _ => trivial, fun _ _ => trivial⟩

/-- A packet received in order before the first write: the packet written next
skips the number two. -/
theorem number_skipped_after_receiving :
    exists last p,
      runEndpoint [.receive (healthyEnv 7) (barePacket .data 2 0),
        .write threeBytes] (openPeer (loopback 2)) = some (last, [p]) ∧
      p.seqNr = 3 ∧ ¬ NumberedFrom (openPeer (loopback 2)).seqNr [p] := by
  have hrun : (runEndpoint [.receive (healthyEnv 7) (barePacket .data 2 0),
      .write threeBytes] (openPeer (loopback 2))).map
        (fun r => r.2.map Packet.seqNr) = some [3] := by
    decide +kernel
  rcases Option.map_eq_some_iff.mp hrun with ⟨⟨last, created⟩, hrun, hnumbers⟩
  rcases List.map_eq_singleton_iff.mp hnumbers with ⟨p, hcreated, hseq⟩
  simp only at hcreated
  rw [hcreated] at hrun
  refine ⟨last, p, hrun, hseq, ?_⟩
  intro hnumbered
  have hfirst := hnumbered 0 p rfl
  rw [hseq] at hfirst
  exact absurd hfirst (by decide)

end Utp
