import Utp.Socket.SendPackets

/-!
# Room in the sent window

The sent window is a map with 16-bit keys, and `send_packets` puts as many
packets into it as the buffer has chunks.  Nothing limits their number: the one
with the number of a packet that is still unacknowledged replaces it.
-/

namespace Utp

open Foundation
open Std (ExtTreeMap)

/-- The numbers in the window are the ones just below `seq_nr`. -/
def BelowSeqNr (peer : UtpSocketState) : Prop :=
  forall k : UInt16, k ∈ peer.sentWindow <->
    (peer.seqNr - 1 - k).toNat < peer.sentWindow.size

/-- All earlier entries are kept, and there are new ones, from the old `seq_nr`
to the new one, with the buffer as their payload. -/
structure Enqueued (buf : List UInt8) (before after : UtpSocketState) : Prop where
  kept : forall (k : UInt16) p, before.sentWindow[k]? = some p ->
    after.sentWindow[k]? = some p
  added : exists (packets : List Packet) (payloads : List (List UInt8)),
    packets.length <= 65536 ∧
    after.seqNr = before.seqNr + UInt16.ofNat packets.length ∧
    (forall i p, packets[i]? = some p ->
      before.sentWindow[before.seqNr + UInt16.ofNat i]? = none ∧
      after.sentWindow[before.seqNr + UInt16.ofNat i]? = some p) ∧
    packets.mapM Packet.payload = .ok payloads ∧ payloads.flatten = buf

/-- The call is refused: whatever the UDP socket does, it sends nothing, leaves
the peer as it is and returns an error. -/
def Refuses (env : Env) (buf : List UInt8) (addr : SocketAddr) (peer : UtpSocketState) :
    Prop :=
  exists e, forall udp, sendPackets { env with udp := udp } buf addr peer =
    { peer := peer, sent := [], result := .error e }

/-!
## Refusing
-/

theorem transmit_ok {env : Env} {addr : SocketAddr} (hudp : forall i, env.udp i = .ok ())
    (packets : List Packet) (sent : List Datagram) :
    (transmit env addr packets sent).2 = .ok () := by
  induction packets generalizing sent with
  | nil => rfl
  | cons packet packets ih =>
      rw [transmit, hudp]
      exact ih _

theorem sendPackets_ok {env : Env} {buf : List UInt8} {addr : SocketAddr}
    {peer : UtpSocketState} (hudp : forall i, env.udp i = .ok ())
    (h : peer.state ≠ .closed) : (sendPackets env buf addr peer).result = .ok () := by
  rw [sendPackets, if_neg h]
  exact transmit_ok hudp _ _

theorem refuses_iff {env : Env} {buf : List UInt8} {addr : SocketAddr}
    {peer : UtpSocketState} : Refuses env buf addr peer <-> peer.state = .closed := by
  constructor
  · intro h
    by_contra hopen
    rcases h with ⟨e, he⟩
    have hok : (sendPackets { env with udp := fun _ => .ok () } buf addr peer).result =
        .ok () :=
      sendPackets_ok (fun _ => rfl) hopen
    rw [he] at hok
    cases hok
  · intro hclosed
    refine ⟨SocketError.connectionClosed.toIoError, fun udp => ?_⟩
    rw [sendPackets, if_pos hclosed]

/-!
## Enqueuing
-/

section Enqueue

variable {id : UInt16} {buf : List UInt8} {peer : UtpSocketState}

theorem toNat_sub_created (seqNr : UInt16) {i : Nat} (hi : i < 65536) :
    (seqNr - 1 - (seqNr + UInt16.ofNat i)).toNat = 65535 - i := by
  have hlt := seqNr.toNat_lt
  rw [UInt16.toNat_sub, UInt16.toNat_sub, UInt16.toNat_add, UInt16.toNat_ofNat',
    UInt16.toNat_one]
  omega

theorem BelowSeqNr.unused (h : BelowSeqNr peer) {i : Nat} (hi : i < 65536) :
    peer.sentWindow[peer.seqNr + UInt16.ofNat i]? = none <->
      peer.sentWindow.size + i < 65536 := by
  rw [getElem?_eq_none_iff, h, toNat_sub_created peer.seqNr hi]
  omega

theorem BelowSeqNr.enqueued (h : BelowSeqNr peer)
    (hroom : peer.sentWindow.size + (chunksOf buf).length <= 65536) :
    Enqueued buf peer (enqueue id buf peer) where
  kept k p hp := by
    have hunused : forall i, i < (chunksOf buf).length ->
        k ≠ peer.seqNr + UInt16.ofNat i := by
      intro i hi heq
      have hnone := (h.unused (i := i) (by omega)).mpr (by omega)
      rw [← heq, hp] at hnone
      cases hnone
    exact (sentWindow_foldl_of_ne hunused).trans hp
  added := by
    refine ⟨createdPackets id peer (chunksOf buf), chunksOf buf, ?_, ?_, ?_,
      payloads_createdPackets peer (chunksOf buf), chunks_flatten bufSize _ buf⟩
    · rw [length_createdPackets]
      omega
    · rw [length_createdPackets]
      exact congrArg UtpSocketState.seqNr (foldl_enqueueChunk id peer (chunksOf buf))
    · intro i p hp
      have hi := (List.getElem?_eq_some_iff.mp hp).1
      rw [length_createdPackets] at hi
      exact ⟨(h.unused (by omega)).mpr (by omega),
        sentWindow_foldl_created (by omega) hp⟩

theorem length_flatten_payloads {packets : List Packet} {payloads : List (List UInt8)}
    (hpayloads : packets.mapM Packet.payload = .ok payloads)
    (hshort : forall p, p ∈ packets -> forall data, p.payload = .ok data ->
      data.length <= bufSize) :
    payloads.flatten.length <= packets.length * bufSize := by
  induction packets generalizing payloads with
  | nil =>
      cases hpayloads
      exact Nat.zero_le _
  | cons p packets ih =>
      rw [List.mapM_cons] at hpayloads
      rcases bind_eq_ok.mp hpayloads with ⟨data, hdata, hlater⟩
      rcases bind_eq_ok.mp hlater with ⟨rest, hrest, heq⟩
      cases heq
      have hfirst := hshort p (List.mem_cons_self ..) data hdata
      have hbytes := ih hrest fun q hq => hshort q (List.mem_cons_of_mem _ hq)
      rw [List.flatten_cons, List.length_append, List.length_cons, Nat.succ_mul]
      omega

theorem enqueue_overrun (hmany : 65536 <= (chunksOf buf).length) {k : UInt16} {p : Packet}
    (h : (enqueue id buf peer).sentWindow[k]? = some p) :
    exists data, p.payload = .ok data ∧ data.length <= bufSize := by
  rcases sentWindow_foldl_origin h with ⟨i, hcreated, -⟩ | ⟨-, hunused⟩
  · rcases (createdPackets_spec hcreated).2.2 with ⟨chunk, hchunk, hchain⟩
    exact ⟨chunk, hchain.payload, length_le_of_mem_chunks (List.mem_of_getElem? hchunk)⟩
  · have hlt := (k - peer.seqNr).toNat_lt
    refine absurd ?_ (hunused (k - peer.seqNr).toNat (by omega))
    rw [UInt16.ofNat_toNat, UInt16.add_comm, UInt16.sub_add_cancel]

theorem Enqueued.chunks_le (h : Enqueued buf peer (enqueue id buf peer)) :
    (chunksOf buf).length <= 65536 := by
  by_contra hmany
  rcases h.added with ⟨packets, payloads, hcount, -, hentries, hpayloads, hflat⟩
  have hbytes := length_flatten_payloads hpayloads fun p hp data hdata => by
    rcases List.mem_iff_getElem?.mp hp with ⟨i, hi⟩
    rcases enqueue_overrun (by omega) (hentries i p hi).2 with ⟨data', hdata', hshort⟩
    rw [hdata] at hdata'
    cases hdata'
    exact hshort
  have hfull := length_chunksOf buf
  rw [hflat] at hbytes
  change buf.length <= packets.length * 6 at hbytes
  omega

theorem Enqueued.unused (h : Enqueued buf peer (enqueue id buf peer)) {i : Nat}
    (hi : i < (chunksOf buf).length) :
    peer.sentWindow[peer.seqNr + UInt16.ofNat i]? = none := by
  have hle := h.chunks_le
  rcases h.added with ⟨packets, payloads, hcount, hseqNr, hentries, hpayloads, hflat⟩
  have hsame : UInt16.ofNat (chunksOf buf).length = UInt16.ofNat packets.length := by
    have hlen : (enqueue id buf peer).seqNr = peer.seqNr +
        UInt16.ofNat (chunksOf buf).length :=
      congrArg UtpSocketState.seqNr (foldl_enqueueChunk id peer (chunksOf buf))
    exact (UInt16.add_right_inj _).mp (hlen.symm.trans hseqNr)
  have hmod := congrArg UInt16.toNat hsame
  rw [UInt16.toNat_ofNat', UInt16.toNat_ofNat'] at hmod
  have hsome : packets ≠ [] := by
    intro hnil
    rw [hnil] at hpayloads
    cases hpayloads
    rw [← hflat] at hi
    change i < (chunks bufSize _ []).length at hi
    rw [chunks_nil] at hi
    exact Nat.not_lt_zero i hi
  have hpos := List.length_pos_iff.mpr hsome
  have hlt : i < packets.length := by omega
  exact (hentries i _ (List.getElem?_eq_getElem hlt)).1

theorem BelowSeqNr.enqueued_iff (h : BelowSeqNr peer) :
    Enqueued buf peer (enqueue id buf peer) <->
      peer.sentWindow.size + (chunksOf buf).length <= 65536 := by
  constructor
  · intro henqueued
    by_contra hfull
    have hle := henqueued.chunks_le
    have hsize := size_le peer.sentWindow
    have hi : 65536 - peer.sentWindow.size < (chunksOf buf).length := by omega
    by_cases hzero : peer.sentWindow.size = 0
    · omega
    · have hroom := (h.unused (by omega)).mp (henqueued.unused hi)
      omega
  · exact h.enqueued

end Enqueue

/-- A call either refuses, or keeps the unacknowledged packets and enqueues the
whole buffer, exactly when the peer is closed, or its window and the chunks of
six bytes together need no more numbers than there are. -/
theorem write_keeps_window_iff {peer : UtpSocketState} (h : BelowSeqNr peer) (env : Env)
    (buf : List UInt8) (addr : SocketAddr) :
    (Refuses env buf addr peer ∨
        Enqueued buf peer (sendPackets env buf addr peer).peer) <->
      peer.state = .closed ∨
        peer.sentWindow.size + (buf.length + 5) / 6 <= 65536 := by
  rw [refuses_iff]
  by_cases hclosed : peer.state = .closed
  · exact iff_of_true (Or.inl hclosed) (Or.inl hclosed)
  · rw [sendPackets_peer hclosed, h.enqueued_iff, length_chunksOf]

def pendingPeer (seqNr : UInt16) : UtpSocketState :=
  { openPeer (loopback 1) with
    seqNr := seqNr
    sentWindow := (∅ : PacketMap).insert (seqNr - 1) (barePacket .data (seqNr - 1) 0) }

theorem size_pendingPeer (seqNr : UInt16) : (pendingPeer seqNr).sentWindow.size = 1 := by
  simp [pendingPeer, ExtTreeMap.size_insert]

theorem belowSeqNr_pendingPeer (seqNr : UInt16) : BelowSeqNr (pendingPeer seqNr) := by
  intro k
  rw [size_pendingPeer]
  have hmem : k ∈ (pendingPeer seqNr).sentWindow <-> seqNr - 1 = k := by
    simp [pendingPeer]
  have hnumber : (pendingPeer seqNr).seqNr = seqNr := rfl
  rw [hmem, hnumber, Nat.lt_one_iff, ← UInt16.toNat_zero, UInt16.toNat_inj]
  exact sub_eq_zero.symm

/-- A write whose numbers wrap around behind an unacknowledged packet. -/
theorem write_keeps_pending :
    Enqueued [1, 2, 3, 4, 5, 6, 7, 8] (pendingPeer 0)
      (sendPackets (healthyEnv 7) [1, 2, 3, 4, 5, 6, 7, 8] (loopback 1)
        (pendingPeer 0)).peer := by
  have hroom : (pendingPeer 0).sentWindow.size +
      ([1, 2, 3, 4, 5, 6, 7, 8].length + 5) / 6 <= 65536 := by
    rw [size_pendingPeer]
    decide
  rcases (write_keeps_window_iff (belowSeqNr_pendingPeer 0) (healthyEnv 7)
    [1, 2, 3, 4, 5, 6, 7, 8] (loopback 1)).mpr (Or.inr hroom) with hrefused | henqueued
  · cases refuses_iff.mp hrefused
  · exact henqueued

/-- A buffer of `65536` chunks behind one unacknowledged packet: the write reports
success and replaces that packet. -/
theorem write_overruns_window :
    BelowSeqNr (pendingPeer 2) ∧
      (sendPackets (healthyEnv 7) (List.replicate 393216 0) (loopback 1)
        (pendingPeer 2)).result = .ok () ∧
      ¬ (Refuses (healthyEnv 7) (List.replicate 393216 0) (loopback 1) (pendingPeer 2) ∨
        Enqueued (List.replicate 393216 0) (pendingPeer 2)
          (sendPackets (healthyEnv 7) (List.replicate 393216 0) (loopback 1)
            (pendingPeer 2)).peer) := by
  have hopen : (pendingPeer 2).state ≠ .closed := nofun
  refine ⟨belowSeqNr_pendingPeer 2, sendPackets_ok (fun _ => rfl) hopen, ?_⟩
  rw [refuses_iff, sendPackets_peer hopen, (belowSeqNr_pendingPeer 2).enqueued_iff,
    size_pendingPeer, length_chunksOf, List.length_replicate]
  intro h
  rcases h with hclosed | hroom
  · exact hopen hclosed
  · omega

end Utp
