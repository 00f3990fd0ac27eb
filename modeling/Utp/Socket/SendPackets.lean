import Utp.Foundation.Bytes
import Utp.Socket.State

/-!
# Connecting and sending

`UtpSocket::connect` and `UtpSocket::send_packets` on the state of one peer.
Sending first puts every chunk of the buffer into the window and then sends the
whole window, oldest number first, stopping at the first failed send.
-/

namespace Utp

open Foundation

def bufSize : Nat := 6

def synPacket (id : UInt16) (peer : UtpSocketState) : Packet :=
  let packet := Packet.new.setType .syn
  let packet := packet.setConnectionId id
  packet.setSeqNr peer.seqNr

/-- What `connect` does to the peer state it has locked. -/
def connectLocked (id : UInt16) (addr : SocketAddr) (peer : UtpSocketState) :
    UtpSocketState :=
  let packet := synPacket id peer
  { peer with
    state := .synSent
    connectedTo := some addr
    sentWindow := peer.sentWindow.insert packet.seqNr packet }

def connectPeer (id senderId : UInt16) (addr : SocketAddr) : UtpSocketState :=
  connectLocked id addr (UtpSocketState.new senderId)

def dataPacket (id : UInt16) (peer : UtpSocketState) (chunk : List UInt8) : Packet :=
  let packet := Packet.withPayload chunk
  let packet := packet.setSeqNr peer.seqNr
  let packet := packet.setAckNr peer.ackNr
  packet.setConnectionId id

def enqueueChunk (id : UInt16) (peer : UtpSocketState) (chunk : List UInt8) :
    UtpSocketState :=
  let packet := dataPacket id peer chunk
  { peer with
    sentWindow := peer.sentWindow.insert packet.seqNr packet
    seqNr := peer.seqNr + 1 }

def chunksOf (buf : List UInt8) : List (List UInt8) :=
  chunks bufSize (by decide) buf

theorem chunksOf_nil : chunksOf [] = [] := by
  rw [chunksOf, chunks_nil]

theorem length_chunksOf (buf : List UInt8) :
    (chunksOf buf).length = (buf.length + 5) / 6 :=
  length_chunks bufSize (by decide) buf

def enqueue (id : UInt16) (buf : List UInt8) (peer : UtpSocketState) :
    UtpSocketState :=
  (chunksOf buf).foldl (enqueueChunk id) peer

def transmit (env : Env) (addr : SocketAddr) :
    List Packet -> List Datagram -> List Datagram × Except IoError Unit
  | [], sent => (sent, .ok ())
  | packet :: packets, sent =>
      match env.udp sent.length with
      | .error e => (sent, .error ⟨.networkUnreachable, e.text⟩)
      | .ok () => transmit env addr packets (sent ++ [(packet, addr)])

structure SendOutcome where
  peer : UtpSocketState
  sent : List Datagram
  result : Except IoError Unit

/-- `send_packets` once the peer at `addr` is found and locked. -/
def sendPackets (env : Env) (buf : List UInt8) (addr : SocketAddr)
    (peer : UtpSocketState) : SendOutcome :=
  if peer.state = .closed then
    { peer := peer, sent := [],
      result := .error SocketError.connectionClosed.toIoError }
  else
    let peer := enqueue env.id buf peer
    let (sent, result) :=
      transmit env addr (peer.sentWindow.toList.map Prod.snd) []
    { peer := peer, sent := sent, result := result }

/-!
## The packets created
-/

@[simp] theorem getType_synPacket (id : UInt16) (peer : UtpSocketState) :
    (synPacket id peer).getType = .syn := by
  simp [synPacket, Packet.setSeqNr, Packet.setConnectionId, Packet.getType_setType]

@[simp] theorem seqNr_synPacket (id : UInt16) (peer : UtpSocketState) :
    (synPacket id peer).seqNr = peer.seqNr :=
  Packet.seqNr_setSeqNr _ peer.seqNr

section DataPacket

variable (id : UInt16) (peer : UtpSocketState) (chunk : List UInt8)

@[simp] theorem seqNr_dataPacket : (dataPacket id peer chunk).seqNr = peer.seqNr := by
  simp only [dataPacket, Packet.setConnectionId, Packet.setAckNr]
  rw [Packet.seqNr_setField_of_ne _ (by decide),
    Packet.seqNr_setField_of_ne _ (by decide), Packet.seqNr_setSeqNr]

@[simp] theorem getType_dataPacket : (dataPacket id peer chunk).getType = .data := by
  simp [dataPacket, Packet.setConnectionId, Packet.setAckNr, Packet.setSeqNr,
    Packet.getType_withPayload]

theorem hasChain_dataPacket : (dataPacket id peer chunk).HasChain [] chunk := by
  simp only [dataPacket, Packet.setConnectionId, Packet.setAckNr,
    Packet.setSeqNr, Packet.hasChain_setField]
  exact Packet.hasChain_withPayload chunk

end DataPacket

/-- The packets the chunk loop creates, in order. -/
def createdPackets (id : UInt16) : UtpSocketState -> List (List UInt8) -> List Packet
  | _, [] => []
  | peer, chunk :: chunks =>
      dataPacket id peer chunk :: createdPackets id (enqueueChunk id peer chunk) chunks

section Created

variable {id : UInt16}

@[simp] theorem length_createdPackets (peer : UtpSocketState)
    (chunks : List (List UInt8)) :
    (createdPackets id peer chunks).length = chunks.length := by
  induction chunks generalizing peer with
  | nil => rfl
  | cons chunk chunks ih =>
      rw [createdPackets, List.length_cons, ih, List.length_cons]

theorem ofNat_succ_add (n : UInt16) (i : Nat) :
    n + 1 + UInt16.ofNat i = n + UInt16.ofNat (i + 1) := by
  rw [UInt16.ofNat_add, UInt16.add_assoc, UInt16.add_comm 1]
  rfl

theorem createdPackets_spec {peer : UtpSocketState} {chunks : List (List UInt8)}
    {i : Nat} {p : Packet} (h : (createdPackets id peer chunks)[i]? = some p) :
    p.getType = .data ∧ p.seqNr = peer.seqNr + UInt16.ofNat i ∧
      exists chunk, chunks[i]? = some chunk ∧ p.HasChain [] chunk := by
  induction chunks generalizing peer i with
  | nil => cases h
  | cons chunk chunks ih =>
      cases i with
      | zero =>
          cases h
          exact ⟨getType_dataPacket .., by simp, chunk, rfl, hasChain_dataPacket ..⟩
      | succ i =>
          have htail : (createdPackets id (enqueueChunk id peer chunk) chunks)[i]? =
            some p := h
          rcases ih htail with ⟨htype, hseq, hchunk⟩
          refine ⟨htype, ?_, hchunk⟩
          rw [hseq]
          exact ofNat_succ_add peer.seqNr i

theorem mapM_payload {packets : List Packet} {chunks : List (List UInt8)}
    (h : List.Forall₂ (fun (p : Packet) chunk => p.HasChain [] chunk) packets chunks) :
    packets.mapM Packet.payload = .ok chunks := by
  induction h with
  | nil => rfl
  | cons hp _ ih =>
      rw [List.mapM_cons, hp.payload, ih]
      rfl

theorem forall₂_createdPackets (id : UInt16) (peer : UtpSocketState)
    (chunks : List (List UInt8)) :
    List.Forall₂ (fun (p : Packet) chunk => p.HasChain [] chunk)
      (createdPackets id peer chunks) chunks := by
  induction chunks generalizing peer with
  | nil => exact List.Forall₂.nil
  | cons chunk chunks ih =>
      exact List.Forall₂.cons (hasChain_dataPacket id peer chunk) (ih _)

theorem payloads_createdPackets (peer : UtpSocketState) (chunks : List (List UInt8)) :
    (createdPackets id peer chunks).mapM Packet.payload = .ok chunks :=
  mapM_payload (forall₂_createdPackets id peer chunks)

theorem foldl_enqueueChunk (id : UInt16) (peer : UtpSocketState)
    (chunks : List (List UInt8)) :
    chunks.foldl (enqueueChunk id) peer =
      { peer with
        seqNr := peer.seqNr + UInt16.ofNat chunks.length
        sentWindow := (chunks.foldl (enqueueChunk id) peer).sentWindow } := by
  induction chunks generalizing peer with
  | nil => simp
  | cons chunk chunks ih =>
      rw [List.foldl_cons, ih]
      simp only [enqueueChunk, ofNat_succ_add, List.length_cons]

theorem sentWindow_foldl_of_ne {peer : UtpSocketState} {chunks : List (List UInt8)}
    {k : UInt16} (h : forall i, i < chunks.length -> k ≠ peer.seqNr + UInt16.ofNat i) :
    (chunks.foldl (enqueueChunk id) peer).sentWindow[k]? = peer.sentWindow[k]? := by
  induction chunks generalizing peer with
  | nil => rfl
  | cons chunk chunks ih =>
      rw [List.foldl_cons, ih]
      · have hne : k ≠ peer.seqNr := by
          simpa using h 0 (Nat.zero_lt_succ _)
        simp only [enqueueChunk, seqNr_dataPacket, getElem?_insert_eq]
        exact if_neg hne.symm
      · intro i hi
        have hne := h (i + 1) (Nat.succ_lt_succ hi)
        rw [← ofNat_succ_add] at hne
        exact hne

theorem sentWindow_foldl_origin {peer : UtpSocketState} {chunks : List (List UInt8)}
    {k : UInt16} {p : Packet}
    (h : (chunks.foldl (enqueueChunk id) peer).sentWindow[k]? = some p) :
    (exists i, (createdPackets id peer chunks)[i]? = some p ∧
      k = peer.seqNr + UInt16.ofNat i) ∨
    (peer.sentWindow[k]? = some p ∧
      forall i, i < chunks.length -> k ≠ peer.seqNr + UInt16.ofNat i) := by
  induction chunks generalizing peer with
  | nil => exact Or.inr ⟨h, fun i hi => absurd hi (Nat.not_lt_zero i)⟩
  | cons chunk chunks ih =>
      rcases ih h with ⟨i, hcreated, hk⟩ | ⟨hearlier, hunused⟩
      · exact Or.inl ⟨i + 1, hcreated, hk.trans (ofNat_succ_add peer.seqNr i)⟩
      · simp only [enqueueChunk, getElem?_insert_eq] at hearlier
        split at hearlier
        · rename_i heq
          cases hearlier
          refine Or.inl ⟨0, rfl, ?_⟩
          rw [← heq, seqNr_dataPacket]
          exact (UInt16.add_zero _).symm
        · rename_i hne
          refine Or.inr ⟨hearlier, ?_⟩
          intro i hi
          cases i with
          | zero =>
              intro hk
              rw [seqNr_dataPacket] at hne
              exact hne (hk.trans (UInt16.add_zero _)).symm
          | succ i =>
              rw [← ofNat_succ_add]
              exact hunused i (Nat.lt_of_succ_lt_succ hi)

theorem sentWindow_foldl_mem {peer : UtpSocketState} {chunks : List (List UInt8)}
    {k : UInt16} {p : Packet}
    (h : (chunks.foldl (enqueueChunk id) peer).sentWindow[k]? = some p) :
    peer.sentWindow[k]? = some p ∨ p.getType = .data := by
  rcases sentWindow_foldl_origin h with ⟨i, hcreated, -⟩ | ⟨hearlier, -⟩
  · exact Or.inr (createdPackets_spec hcreated).1
  · exact Or.inl hearlier

theorem sentWindow_foldl_created {peer : UtpSocketState}
    {chunks : List (List UInt8)} {i : Nat} {p : Packet}
    (hfit : chunks.length <= i + 65536)
    (h : (createdPackets id peer chunks)[i]? = some p) :
    (chunks.foldl (enqueueChunk id) peer).sentWindow[
      peer.seqNr + UInt16.ofNat i]? = some p := by
  induction chunks generalizing peer i with
  | nil => cases h
  | cons chunk chunks ih =>
      rw [List.length_cons] at hfit
      rw [List.foldl_cons]
      cases i with
      | zero =>
          cases h
          rw [sentWindow_foldl_of_ne]
          · simp [enqueueChunk]
          · intro i hi heq
            have hzero : UInt16.ofNat (i + 1) = 0 := by
              have hsum : peer.seqNr + 0 = peer.seqNr + UInt16.ofNat (i + 1) := by
                rw [← ofNat_succ_add]
                simpa [enqueueChunk] using heq
              exact (UInt16.add_right_inj _ |>.mp hsum).symm
            have hnat := congrArg UInt16.toNat hzero
            rw [UInt16.toNat_ofNat'] at hnat
            simp only [UInt16.toNat_zero] at hnat
            omega
      | succ i =>
          have htail : (createdPackets id (enqueueChunk id peer chunk) chunks)[i]? =
            some p := h
          rw [← ofNat_succ_add]
          exact ih (by omega) htail

theorem sentWindow_foldl_iff {peer : UtpSocketState} {chunks : List (List UInt8)}
    (hfit : chunks.length <= 65536) {k : UInt16} {p : Packet} :
    (chunks.foldl (enqueueChunk id) peer).sentWindow[k]? = some p <->
      (exists i, (createdPackets id peer chunks)[i]? = some p ∧
        k = peer.seqNr + UInt16.ofNat i) ∨
      (peer.sentWindow[k]? = some p ∧
        forall i, i < chunks.length -> k ≠ peer.seqNr + UInt16.ofNat i) := by
  constructor
  · exact sentWindow_foldl_origin
  · intro hcase
    rcases hcase with ⟨i, hcreated, rfl⟩ | ⟨hearlier, hunused⟩
    · exact sentWindow_foldl_created (by omega) hcreated
    · exact (sentWindow_foldl_of_ne hunused).trans hearlier

end Created

/-!
## What is sent
-/

theorem transmit_mem {env : Env} {addr : SocketAddr} {packets : List Packet}
    {sent : List Datagram} {d : Datagram}
    (h : d ∈ (transmit env addr packets sent).1) : d ∈ sent ∨ d.1 ∈ packets := by
  induction packets generalizing sent with
  | nil => exact Or.inl h
  | cons packet packets ih =>
      rw [transmit] at h
      split at h
      · exact Or.inl h
      · rcases ih h with hsent | hlater
        · rcases List.mem_append.mp hsent with hsent | hnew
          · exact Or.inl hsent
          · cases List.mem_singleton.mp hnew
            exact Or.inr (List.mem_cons_self ..)
        · exact Or.inr (List.mem_cons_of_mem _ hlater)

theorem transmit_healthy {env : Env} (hudp : forall n, env.udp n = .ok ())
    (addr : SocketAddr) (packets : List Packet) (sent : List Datagram) :
    transmit env addr packets sent =
      (sent ++ packets.map fun p => (p, addr), .ok ()) := by
  induction packets generalizing sent with
  | nil => simp [transmit]
  | cons packet packets ih =>
      rw [transmit, hudp]
      simp only [ih, List.map_cons, List.append_assoc, List.singleton_append]

theorem sendPackets_mem {env : Env} {buf : List UInt8} {addr : SocketAddr}
    {peer : UtpSocketState} {d : Datagram}
    (h : d ∈ (sendPackets env buf addr peer).sent) :
    exists s : UInt16, (sendPackets env buf addr
      peer).peer.sentWindow[s]? = some d.1 := by
  unfold sendPackets at h ⊢
  split
  · rename_i hclosed
    rw [if_pos hclosed] at h
    cases h
  · rename_i hopen
    rw [if_neg hopen] at h
    rcases transmit_mem h with hnil | hmem
    · cases hnil
    · rcases List.mem_map.mp hmem with ⟨⟨s, p⟩, hentry, hp⟩
      refine ⟨s, ?_⟩
      rw [← hp]
      exact Std.ExtTreeMap.mem_toList_iff_getElem?_eq_some.mp hentry

theorem sendPackets_window {env : Env} {buf : List UInt8} {addr : SocketAddr}
    {peer : UtpSocketState} {k : UInt16} {p : Packet}
    (h : (sendPackets env buf addr peer).peer.sentWindow[k]? = some p) :
    peer.sentWindow[k]? = some p ∨ p.getType = .data := by
  unfold sendPackets at h
  split at h
  · exact Or.inl h
  · exact sentWindow_foldl_mem h

theorem sendPackets_peer {env : Env} {buf : List UInt8} {addr : SocketAddr}
    {peer : UtpSocketState} (h : peer.state ≠ .closed) :
    (sendPackets env buf addr peer).peer = enqueue env.id buf peer := by
  rw [sendPackets, if_neg h]

end Utp
