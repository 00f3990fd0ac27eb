import Utp.Socket.Receive
import Utp.Socket.Reassembly

/-!
# Closing a connection

A `Fin` closes the connection at once.  What that loses follows from the numbers
received before it: data in front of the `Fin` may still be on its way, and
packets behind a gap stay in the store.
-/

namespace Utp

open Foundation

/-!
## What has been received
-/

section Received

variable {b : UInt16} {received : Set Packet} {peer last : UtpSocketState}
  {inputs : List (Env × Packet)} {outcomes : List Outcome}

theorem Fresh.toReceived (h : Fresh b peer) : Received b ∅ peer :=
  h.receiving.toReassembled.toReceived

theorem Received.run (h : Received b received peer) (hstate : peer.state = .connected)
    (hdata : DataOnly inputs) (hrun : runPackets inputs peer = .ok (last, outcomes)) :
    Received b (received ∪ packetsOf inputs) last := by
  induction inputs generalizing received peer outcomes with
  | nil =>
      cases hrun
      rw [packetsOf_nil, Set.union_empty]
      exact h
  | cons input inputs ih =>
      rcases runPackets_data_cons hstate hdata hrun with
        ⟨o, sack, rest, heffect, hnext, hrest⟩
      rw [packetsOf_cons, Set.union_insert, ← Set.insert_union]
      exact ih (h.step heffect) hnext hdata.tail hrest

theorem Received.mem_pushed (h : Received b received peer) {n : Nat} :
    n ∈ peer.incomingBuffer.map (fun p => p.seqNr.toNat) <->
      b.toNat < n ∧ n <= peer.lastAcked.toNat := by
  have hle := h.frontier.le
  rw [h.delivered, List.mem_range'_1]
  omega

theorem Received.pushed_iff (h : Received b received peer) (f : UInt16) :
    (forall n, b.toNat < n -> n < f.toNat ->
        n ∈ peer.incomingBuffer.map (fun p => p.seqNr.toNat)) <->
      forall n, b.toNat < n -> n < f.toNat -> n ∈ numbers received := by
  constructor
  · intro hpushed n hlow hhigh
    have hreached := h.mem_pushed.mp (hpushed n hlow hhigh)
    exact h.frontier.filled n hlow hreached.2
  · intro hfilled n hlow hhigh
    have hreach : n <= peer.lastAcked.toNat :=
      h.frontier.le_of_filled fun m hm hle => hfilled m hm (by omega)
    exact h.mem_pushed.mpr ⟨hlow, hreach⟩

theorem Received.outOfOrder_eq_empty (h : Received b received peer) :
    peer.outOfOrder = ∅ <->
      forall m, m ∈ numbers received -> forall n, b.toNat < n -> n < m ->
        n ∈ numbers received := by
  have hle := h.frontier.le
  constructor
  · intro hempty m hm n hlow hhigh
    rcases hm with ⟨q, hq, hnumber⟩
    have hreached : m <= peer.lastAcked.toNat := by
      by_contra hbehind
      change q.seqNr.toNat = m at hnumber
      have hkey := (h.keys q.seqNr).mpr ⟨⟨q, hq, rfl⟩, by omega⟩
      rw [hempty] at hkey
      exact Std.ExtTreeMap.not_mem_empty hkey
    exact h.frontier.filled n hlow (by omega)
  · intro hnoGap
    by_contra hstored
    rcases ne_empty_iff.mp hstored with ⟨key, hkey⟩
    have hgap := h.gap hkey
    have hmem := ((h.keys key).mp hkey).1
    exact h.frontier.missing (hnoGap _ hmem _ (by omega) hgap)

end Received

/-!
## The `Fin`
-/

/-- A peer that started behind `s` and has handled a `Fin` with number `f` is
closed only when everything between the two is pushed and nothing is stored;
while something is missing it goes on accepting data. -/
structure LosesNothing (s f : UInt16) (peer : UtpSocketState) : Prop where
  closed : peer.state = .closed ->
    (forall n, s.toNat < n -> n < f.toNat ->
      n ∈ peer.incomingBuffer.map fun p => p.seqNr.toNat) ∧
    peer.outOfOrder = ∅
  accepts : ¬ (forall n, s.toNat < n -> n < f.toNat ->
      n ∈ peer.incomingBuffer.map fun p => p.seqNr.toNat) ->
    peer.state = .connected ∨ peer.state = .finSent

theorem losesNothing_of_closed {s f : UInt16} {peer : UtpSocketState}
    (hclosed : peer.state = .closed) :
    LosesNothing s f peer <->
      (forall n, s.toNat < n -> n < f.toNat ->
        n ∈ peer.incomingBuffer.map fun p => p.seqNr.toNat) ∧
      peer.outOfOrder = ∅ := by
  constructor
  · intro h
    exact h.closed hclosed
  · intro h
    exact ⟨fun _ => h, fun hmissing => absurd h.1 hmissing⟩

theorem handlePacket_newPeer (env : Env) (addr : SocketAddr)
    (first : Packet) {syn : Packet}
    (hsyn : syn.getType = .syn) :
    handlePacket env syn (newPeer addr first) =
      .ok (handleNewSyn env syn (newPeer addr first)) := by
  have hnew : (newPeer addr first).state = .new := rfl
  simp only [handlePacket, hnew, hsyn]

theorem fresh_of_newSyn (env : Env) (addr : SocketAddr) (first syn : Packet) :
    Fresh syn.seqNr (handleNewSyn env syn (newPeer addr first)).peer :=
  ⟨rfl, rfl, rfl, rfl, rfl⟩

/-- Behind a `Syn` and any `Data` packets, a `Fin` loses nothing exactly when all
numbers between the `Syn` and the `Fin` were received and none was received
behind a gap. -/
theorem fin_loses_nothing_iff {env₀ : Env} {addr : SocketAddr} {first syn fin : Packet}
    {inputs : List (Env × Packet)} {last : UtpSocketState} {outcomes : List Outcome}
    (hsyn : syn.getType = .syn) (hdata : DataOnly inputs)
    (hrun : runPackets ((env₀, syn) :: inputs) (newPeer addr first) =
      .ok (last, outcomes))
    (hfin : fin.getType = .fin) (env : Env) :
    exists o, handlePacket env fin last = .ok o ∧
      (LosesNothing syn.seqNr fin.seqNr o.peer <->
        (forall n, syn.seqNr.toNat < n -> n < fin.seqNr.toNat ->
          n ∈ numbers (packetsOf inputs)) ∧
        forall m, m ∈ numbers (packetsOf inputs) ->
          forall n, syn.seqNr.toNat < n -> n < m -> n ∈ numbers (packetsOf inputs)) := by
  rcases runPackets_cons_eq_ok.mp hrun with ⟨opened, rest, hopened, hrest, -⟩
  rw [handlePacket_newPeer env₀ addr first hsyn] at hopened
  cases hopened
  have hfresh := fresh_of_newSyn env₀ addr first syn
  have hreceived := hfresh.toReceived.run hfresh.state hdata hrest
  rw [Set.empty_union] at hreceived
  have hconnected := runPackets_connected hfresh.state hdata hrest
  refine ⟨handleFin env fin last, by simp only [handlePacket, hconnected, hfin], ?_⟩
  have hclosed : (handleFin env fin last).peer.state = .closed := rfl
  rw [losesNothing_of_closed hclosed, ← hreceived.pushed_iff,
    ← hreceived.outOfOrder_eq_empty]
  rfl

theorem runPackets_sample_syn (seqNrs : List UInt16)
    (hbound : forall n, n ∈ seqNrs -> n.toNat < 65535) :
    exists last outcomes, runPackets (incoming .syn 1 0 :: dataInputs seqNrs)
      (newPeer (loopback 1) (barePacket .syn 1 0)) = .ok (last, outcomes) := by
  have hfresh := fresh_of_newSyn (healthyEnv 7) (loopback 1) (barePacket .syn 1 0)
    (barePacket .syn 1 0)
  rw [seqNr_barePacket] at hfresh
  rcases hfresh.run (receivable_dataInputs (by decide) hbound) with
    ⟨last, outcomes, hrun, -⟩
  have hopened := handlePacket_newPeer (healthyEnv 7) (loopback 1) (barePacket .syn 1 0)
    (getType_barePacket .syn 1 0)
  exact ⟨last, _, runPackets_cons_eq_ok.mpr ⟨_, outcomes, hopened, hrun, rfl⟩⟩

theorem numbers_dataInputs (seqNrs : List UInt16) (n : Nat) :
    n ∈ numbers (packetsOf (dataInputs seqNrs)) <-> n ∈ seqNrs.map UInt16.toNat := by
  rw [List.mem_map]
  constructor
  · rintro ⟨p, hp, rfl⟩
    rcases mem_packetsOf_dataInputs hp with ⟨m, hm, rfl⟩
    exact ⟨m, hm, congrArg UInt16.toNat (seqNr_barePacket .data m 0).symm⟩
  · rintro ⟨m, hm, rfl⟩
    exact ⟨barePacket .data m 0, ⟨_, List.mem_map_of_mem hm⟩,
      congrArg UInt16.toNat (seqNr_barePacket .data m 0)⟩

/-- A `Fin` behind all its data. -/
theorem fin_after_data :
    exists last outcomes, runPackets (incoming .syn 1 0 :: dataInputs [2])
        (newPeer (loopback 1) (barePacket .syn 1 0)) = .ok (last, outcomes) ∧
      exists o, handlePacket (healthyEnv 7) (barePacket .fin 3 0) last = .ok o ∧
        LosesNothing 1 3 o.peer := by
  rcases runPackets_sample_syn [2] (by simp) with ⟨last, outcomes, hrun⟩
  have hdata : DataOnly (dataInputs [2]) :=
    (receivable_dataInputs (b := 1) (by decide) (by simp)).data
  rcases fin_loses_nothing_iff (getType_barePacket .syn 1 0) hdata hrun
    (getType_barePacket .fin 3 0) (healthyEnv 7) with ⟨o, ho, hiff⟩
  rw [seqNr_barePacket, seqNr_barePacket] at hiff
  refine ⟨last, outcomes, hrun, o, ho, hiff.mpr ⟨?_, ?_⟩⟩
  · intro n hlow hhigh
    change 1 < n at hlow
    change n < 3 at hhigh
    rw [numbers_dataInputs, show n = 2 by omega]
    exact List.mem_cons_self ..
  · intro m hm n hlow hhigh
    rw [numbers_dataInputs] at hm
    have htwo : m = 2 := List.mem_singleton.mp hm
    change 1 < n at hlow
    omega

/-- A `Fin` that overtakes the packet in front of it closes the connection, and
that packet is lost. -/
theorem fin_overtakes_data :
    exists last outcomes o, runPackets (incoming .syn 1 0 :: dataInputs [])
        (newPeer (loopback 1) (barePacket .syn 1 0)) = .ok (last, outcomes) ∧
      handlePacket (healthyEnv 7) (barePacket .fin 3 0) last = .ok o ∧
      o.peer.state = .closed ∧ o.peer.incomingBuffer = [] ∧
      ¬ LosesNothing 1 3 o.peer := by
  have hopened := handlePacket_newPeer (healthyEnv 7) (loopback 1) (barePacket .syn 1 0)
    (getType_barePacket .syn 1 0)
  have hconnected : (handleNewSyn (healthyEnv 7) (barePacket .syn 1 0)
      (newPeer (loopback 1) (barePacket .syn 1 0))).peer.state = .connected := rfl
  refine ⟨_, _, _, runPackets_cons_eq_ok.mpr ⟨_, _, hopened, rfl, rfl⟩,
    by simp only [handlePacket, hconnected, getType_barePacket]; rfl, rfl, rfl, ?_⟩
  intro h
  have hpushed := (h.closed rfl).1 2 (by decide) (by decide)
  cases hpushed

end Utp
