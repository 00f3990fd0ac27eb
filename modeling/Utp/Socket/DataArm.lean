import Utp.Socket.SelectiveAck

/-!
# What the data arm does

Every completed call that handles a `Data` packet has one of three effects: the
packet is next in sequence and is delivered with the stored packets that follow
it, it is early and stored, or it is old and dropped.  Later modules use these
cases and never unfold the arm.
-/

namespace Utp

open Foundation

/-!
## Replies
-/

section PrepareReply

variable (env : Env) (packet : Packet) (t : PacketType) (seqNr ackNr : UInt16)

@[simp] theorem getType_prepareReply :
    (prepareReply env packet t seqNr ackNr).getType = t := by
  simp [prepareReply, Packet.setAckNr, Packet.setSeqNr, Packet.setConnectionId,
    Packet.setTimestampDifference, Packet.setTimestamp, Packet.getType_setType]

@[simp] theorem seqNr_prepareReply :
    (prepareReply env packet t seqNr ackNr).seqNr = seqNr := by
  show (Packet.setField _ .ackNr _).seqNr = seqNr
  rw [Packet.seqNr_setField_of_ne _ (by decide)]
  exact Packet.seqNr_setSeqNr _ seqNr

@[simp] theorem ackNr_prepareReply :
    (prepareReply env packet t seqNr ackNr).ackNr = ackNr :=
  Packet.ackNr_setAckNr _ ackNr

theorem hasChain_prepareReply :
    (prepareReply env packet t seqNr ackNr).HasChain [] [] := by
  simp only [prepareReply, Packet.setAckNr, Packet.setSeqNr,
    Packet.setConnectionId, Packet.setTimestampDifference, Packet.setTimestamp,
    Packet.hasChain_setField, Packet.hasChain_setType]
  exact Packet.hasChain_new

end PrepareReply

/-!
## Draining
-/

/-- The keys of the entries follow `start` without a gap. -/
def Continues : UInt16 -> List (UInt16 × Packet) -> Prop
  | _, [] => True
  | start, (seq, _) :: entries =>
      seq.toNat = start.toNat + 1 ∧ Continues seq entries

def lastKey : UInt16 -> List (UInt16 × Packet) -> UInt16
  | start, [] => start
  | _, (seq, _) :: entries => lastKey seq entries

theorem Continues.toNat_lastKey {start : UInt16} {entries : List (UInt16 × Packet)}
    (h : Continues start entries) :
    (lastKey start entries).toNat = start.toNat + entries.length := by
  induction entries generalizing start with
  | nil => rfl
  | cons entry entries ih =>
      rw [lastKey, ih h.2, h.1, List.length_cons]
      omega

theorem Continues.toNat_getElem {start seq : UInt16} {p : Packet} {i : Nat}
    {entries : List (UInt16 × Packet)} (h : Continues start entries)
    (hi : entries[i]? = some (seq, p)) : seq.toNat = start.toNat + 1 + i := by
  induction entries generalizing start i with
  | nil => cases hi
  | cons entry entries ih =>
      cases i with
      | zero =>
          cases hi
          exact h.1
      | succ i =>
          have hrest := ih h.2 hi
          have hfirst := h.1
          omega

theorem Continues.mem_keys {start : UInt16} {entries : List (UInt16 × Packet)}
    (h : Continues start entries) (k : UInt16) :
    k ∈ entries.map Prod.fst <->
      start.toNat < k.toNat ∧ k.toNat <= start.toNat + entries.length := by
  constructor
  · intro hk
    rcases List.mem_map.mp hk with ⟨⟨seq, p⟩, hmem, rfl⟩
    rcases List.mem_iff_getElem?.mp hmem with ⟨i, hi⟩
    have hnumber := h.toNat_getElem hi
    have hlt := (List.getElem?_eq_some_iff.mp hi).1
    show start.toNat < seq.toNat ∧ seq.toNat <= start.toNat + entries.length
    omega
  · intro hcase
    rcases hcase with ⟨hlow, hhigh⟩
    have hlt : k.toNat - start.toNat - 1 < entries.length := by omega
    have hget := List.getElem?_eq_getElem hlt
    rcases hentry : entries[k.toNat - start.toNat - 1] with ⟨seq, p⟩
    rw [hentry] at hget
    have hnumber := h.toNat_getElem hget
    have hsame : seq = k := UInt16.toNat_inj.mp (by omega)
    rw [← hsame]
    exact List.mem_map_of_mem (List.mem_of_getElem? hget)

/-- The longest front of the entries that continues `start`. -/
def continuing : UInt16 -> List (UInt16 × Packet) -> List (UInt16 × Packet)
  | _, [] => []
  | start, (seq, p) :: entries =>
      if seq.toNat = start.toNat + 1 then (seq, p) :: continuing seq entries else []

theorem continues_continuing (start : UInt16) (entries : List (UInt16 × Packet)) :
    Continues start (continuing start entries) := by
  induction entries generalizing start with
  | nil => exact trivial
  | cons entry entries ih =>
      rw [continuing]
      split
      · rename_i hseq
        exact ⟨hseq, ih entry.1⟩
      · exact trivial

theorem continuing_front (start : UInt16) (entries : List (UInt16 × Packet)) :
    continuing start entries <+: entries := by
  induction entries generalizing start with
  | nil => exact List.prefix_refl []
  | cons entry entries ih =>
      rw [continuing]
      split
      · exact List.cons_prefix_cons.mpr ⟨rfl, ih entry.1⟩
      · exact List.nil_prefix

theorem drain_eq_ok {entries : List (UInt16 × Packet)}
    {peer peer' : UtpSocketState} {removed removed' : List UInt16}
    (h : drain entries peer removed = .ok (peer', removed')) :
    peer' = { peer with
        incomingBuffer := peer.incomingBuffer ++
          (continuing peer.lastAcked entries).map Prod.snd
        lastAcked := lastKey peer.lastAcked (continuing peer.lastAcked entries) } ∧
      removed' = removed ++ (continuing peer.lastAcked entries).map Prod.fst := by
  induction entries generalizing peer removed with
  | nil =>
      cases h
      simp [continuing, lastKey]
  | cons entry entries ih =>
      rcases entry with ⟨seq, p⟩
      rcases bind_eq_ok.mp h with ⟨next, hnext, h⟩
      have hnumber := addOne_eq_ok.mp hnext
      split at h
      · rename_i hseq
        rcases ih h with ⟨hpeer, hremoved⟩
        rw [continuing, if_pos (by rw [hseq, hnumber]), hpeer, hremoved]
        simp [lastKey]
      · rename_i hseq
        cases h
        rw [continuing, if_neg]
        · simp [lastKey]
        · intro heq
          exact hseq (UInt16.toNat_inj.mp (by omega))

/-- On entries with increasing keys the loop only aborts when there is no
sequence number left for the first one. -/
theorem drain_isOk {entries : List (UInt16 × Packet)} (peer : UtpSocketState)
    (removed : List UInt16)
    (hsorted : entries.Pairwise fun a b => a.1.toNat < b.1.toNat) :
    (exists out, drain entries peer removed = .ok out) <->
      (peer.lastAcked.toNat = 65535 -> entries = []) := by
  induction entries generalizing peer removed with
  | nil =>
      simp [drain]
  | cons entry entries ih =>
      rcases entry with ⟨seq, p⟩
      have hbound := peer.lastAcked.toNat_lt
      rcases List.pairwise_cons.mp hsorted with ⟨hfirst, hrest⟩
      by_cases hfull : peer.lastAcked.toNat = 65535
      · have hnext : forall c, addU16 peer.lastAcked 1 ≠ .ok c := by
          intro c hc
          have := addOne_isOk.mp ⟨c, hc⟩
          omega
        constructor
        · intro hcase
          rcases hcase with ⟨out, hout⟩
          rcases bind_eq_ok.mp hout with ⟨next, hok, -⟩
          exact absurd hok (hnext next)
        · intro h
          cases h hfull
      · rcases addOne_isOk.mpr (show peer.lastAcked.toNat < 65535 by omega)
          with ⟨next, hnext⟩
        refine ⟨fun _ hlast => absurd hlast hfull, fun _ => ?_⟩
        rw [drain, hnext]
        show exists out, (if seq = next then _ else _) = Except.ok out
        split
        · refine (ih _ _ hrest).mpr ?_
          intro hseq
          -- behind the greatest number there is no further entry
          apply List.eq_nil_iff_forall_not_mem.mpr
          intro entry hentry
          have hlt : seq.toNat < entry.1.toNat := hfirst entry hentry
          have hbound := entry.1.toNat_lt
          simp only at hseq
          omega
        · exact ⟨_, rfl⟩

/-!
## The three cases
-/

/-- The stored packets an in-order packet delivers with itself. -/
def following (packet : Packet) (peer : UtpSocketState) : List (UInt16 × Packet) :=
  continuing packet.seqNr peer.outOfOrder.toList

/-- What `acceptData` makes of the peer state, with the SACK for the reply. -/
inductive DataEffect (packet : Packet) (peer : UtpSocketState) :
    UtpSocketState -> List UInt8 -> Prop where
  | inOrder :
      packet.seqNr.toNat = peer.lastAcked.toNat + 1 ->
      peer.seqNr.toNat + 1 < 65536 ->
      DataEffect packet peer
        { peer with
          lastAcked := lastKey packet.seqNr (following packet peer)
          seqNr := peer.seqNr + 1
          incomingBuffer :=
            peer.incomingBuffer ++ packet :: (following packet peer).map Prod.snd
          outOfOrder :=
            eraseAll peer.outOfOrder ((following packet peer).map Prod.fst) } []
  | early :
      peer.lastAcked.toNat + 1 < packet.seqNr.toNat ->
      DataEffect packet peer
        { peer with outOfOrder := peer.outOfOrder.insert packet.seqNr packet }
        (buildSelectiveAck
          { peer with outOfOrder := peer.outOfOrder.insert packet.seqNr packet })
  | old :
      packet.seqNr.toNat <= peer.lastAcked.toNat ->
      peer.lastAcked.toNat + 1 < 65536 ->
      DataEffect packet peer peer []

theorem acceptData_eq_ok {packet : Packet} {peer peer' : UtpSocketState}
    {sack : List UInt8} (h : acceptData packet peer = .ok (peer', sack)) :
    DataEffect packet peer peer' sack := by
  rcases bind_eq_ok.mp h with ⟨next, hadd, h⟩
  have hnext := addOne_eq_ok.mp hadd
  have hbound := next.toNat_lt
  split at h
  · rename_i hseq
    rcases bind_eq_ok.mp h with ⟨delivered, hin, h⟩
    cases h
    rcases bind_eq_ok.mp hin with ⟨seqNr, hcount, hin⟩
    rcases bind_eq_ok.mp hin with ⟨⟨drained, removed⟩, hdrain, hin⟩
    rcases drain_eq_ok hdrain with ⟨hpeer, hremoved⟩
    have hseqNr := addOne_isOk.mp ⟨seqNr, hcount⟩
    have hsum := addOne_eq hcount
    cases hin
    have hnumber : packet.seqNr.toNat = peer.lastAcked.toNat + 1 := by
      rw [hseq]
      omega
    have heffect := DataEffect.inOrder hnumber (show _ < 65536 by omega)
    rw [hpeer, hremoved, hsum]
    simpa [following] using heffect
  · rename_i hseq
    have hne : packet.seqNr.toNat ≠ next.toNat := fun heq =>
      hseq (UInt16.toNat_inj.mp heq)
    split at h
    · rename_i hlt
      cases h
      have hlt := UInt16.lt_iff_toNat_lt.mp hlt
      exact DataEffect.early (by omega)
    · rename_i hle
      cases h
      have hle := mt UInt16.lt_iff_toNat_lt.mpr hle
      exact DataEffect.old (by omega) (by omega)

theorem DataEffect.counters {packet : Packet} {peer peer' : UtpSocketState}
    {sack : List UInt8} (h : DataEffect packet peer peer' sack) :
    (packet.seqNr.toNat = peer.lastAcked.toNat + 1 ∧
      peer'.seqNr = peer.seqNr + 1 ∧
      peer.lastAcked.toNat + 1 <= peer'.lastAcked.toNat) ∨
    (packet.seqNr.toNat ≠ peer.lastAcked.toNat + 1 ∧
      peer'.seqNr = peer.seqNr ∧ peer'.lastAcked = peer.lastAcked) := by
  cases h with
  | inOrder hseq hcount =>
      refine Or.inl ⟨hseq, rfl, ?_⟩
      simp only [following, (continues_continuing _ _).toNat_lastKey]
      omega
  | early hlt => exact Or.inr ⟨by omega, rfl, rfl⟩
  | old hle hlast => exact Or.inr ⟨by omega, rfl, rfl⟩

theorem DataEffect.state {packet : Packet} {peer peer' : UtpSocketState}
    {sack : List UInt8} (h : DataEffect packet peer peer' sack) :
    peer'.state = peer.state := by
  cases h <;> rfl

theorem sackLength_of_acceptData {packet : Packet} {peer peer' : UtpSocketState}
    {sack : List UInt8} (h : acceptData packet peer = .ok (peer', sack))
    (hsack : sack.length ≠ 0) : Packet.SackLength sack := by
  cases acceptData_eq_ok h with
  | inOrder => exact absurd rfl hsack
  | early => exact sackLength_buildSelectiveAck hsack
  | old => exact absurd rfl hsack

/-!
## The reply
-/

/-- The SACK part of a reply: as much of the list as its length byte can
announce. -/
def announcedSack (sack : List UInt8) : List Extension :=
  if sack.length = 0 then []
  else [⟨.selectiveAck, sack.take (sack.length % 256)⟩]

theorem withSack_plain {reply : Packet} {sack payload : List UInt8}
    (hplain : reply.HasChain [] payload)
    (hlength : sack.length ≠ 0 -> Packet.SackLength sack) :
    exists q, withSack reply sack = .ok q ∧ q.getType = reply.getType ∧
      (forall f, q.getField f = reply.getField f) ∧
      exists payload, q.HasChain (announcedSack sack) payload := by
  unfold withSack announcedSack
  by_cases hsack : sack.length = 0
  · rw [if_neg (not_not.mpr hsack), if_pos hsack]
    exact ⟨reply, rfl, rfl, fun _ => rfl, payload, hplain⟩
  · rw [if_pos hsack, if_neg hsack]
    rcases Packet.setSack_chain (hlength hsack) hplain with
      ⟨q, hq, htype, hfield, hchain⟩
    exact ⟨q, hq, htype, hfield, _, hchain⟩

structure DataReply (peer : UtpSocketState) (sack : List UInt8) (reply : Packet) :
    Prop where
  getType_eq : reply.getType = .ack
  seqNr_eq : reply.seqNr = peer.seqNr
  ackNr_eq : reply.ackNr = peer.lastAcked
  hasChain : exists payload, reply.HasChain (announcedSack sack) payload

theorem handleData_of_acceptData {packet : Packet} {peer peer' : UtpSocketState}
    {sack : List UInt8} (env : Env)
    (haccept : acceptData packet peer = .ok (peer', sack)) :
    exists reply,
      handleData env packet peer =
        .ok (Outcome.quiet peer' (.ok (some reply))) ∧
      DataReply peer' sack reply := by
  rcases withSack_plain
    (hasChain_prepareReply env packet .ack peer'.seqNr peer'.lastAcked)
    (sackLength_of_acceptData haccept) with ⟨reply, hreply, htype, hfield, hchain⟩
  refine ⟨reply, ?_, ?_⟩
  · rw [handleData, haccept]
    show (withSack _ sack >>= _) = _
    rw [hreply]
    rfl
  · exact
      { getType_eq := by rw [htype, getType_prepareReply]
        seqNr_eq := by
          rw [Packet.seqNr, hfield]
          exact seqNr_prepareReply env packet .ack peer'.seqNr peer'.lastAcked
        ackNr_eq := by
          rw [Packet.ackNr, hfield]
          exact ackNr_prepareReply env packet .ack peer'.seqNr peer'.lastAcked
        hasChain := hchain }

theorem handleData_eq_ok {env : Env} {packet : Packet} {peer : UtpSocketState}
    {o : Outcome} (h : handleData env packet peer = .ok o) :
    exists sack reply, acceptData packet peer = .ok (o.peer, sack) ∧
      o = Outcome.quiet o.peer (.ok (some reply)) ∧
      DataReply o.peer sack reply := by
  rcases bind_eq_ok.mp h with ⟨⟨peer', sack⟩, haccept, -⟩
  rcases handleData_of_acceptData env haccept with ⟨reply, hreply, hspec⟩
  cases hreply.symm.trans h
  exact ⟨sack, reply, haccept, rfl, hspec⟩

/-!
## When the arm returns
-/

theorem acceptData_isOk {packet : Packet} {peer : UtpSocketState} :
    (exists out, acceptData packet peer = .ok out) <->
      peer.lastAcked.toNat < 65535 ∧
        (packet.seqNr.toNat = peer.lastAcked.toNat + 1 ->
          peer.seqNr.toNat < 65535 ∧
            (packet.seqNr.toNat = 65535 -> peer.outOfOrder = ∅)) := by
  have hdrain := drain_isOk
    { peer with
      lastAcked := packet.seqNr
      seqNr := peer.seqNr + 1
      incomingBuffer := peer.incomingBuffer ++ [packet] }
    [] (pairwise_toList peer.outOfOrder)
  rw [Std.ExtTreeMap.toList_eq_nil_iff] at hdrain
  constructor
  · intro hcase
    rcases hcase with ⟨out, haccept⟩
    rcases bind_eq_ok.mp haccept with ⟨next, hadd, h⟩
    have hnext := addOne_eq_ok.mp hadd
    have hbound := next.toNat_lt
    refine ⟨by omega, fun hseq => ?_⟩
    rw [if_pos (UInt16.toNat_inj.mp (by omega))] at h
    rcases bind_eq_ok.mp h with ⟨delivered, hin, -⟩
    rcases bind_eq_ok.mp hin with ⟨seqNr, hcount, hin⟩
    rcases bind_eq_ok.mp hin with ⟨out, hout, -⟩
    have hseqNr := addOne_isOk.mp ⟨seqNr, hcount⟩
    cases addOne_eq hcount
    exact ⟨by omega, hdrain.mp ⟨out, hout⟩⟩
  · intro hcase
    rcases hcase with ⟨hlast, hin⟩
    rcases addOne_isOk.mpr hlast with ⟨next, hadd⟩
    have hnext := addOne_eq_ok.mp hadd
    rw [acceptData, hadd]
    show exists out, (if packet.seqNr = next then _ else _) = Except.ok out
    split
    · rename_i hseq
      rcases hin (by rw [hseq]; omega) with ⟨hseqNr, hempty⟩
      rcases hdrain.mpr hempty with ⟨⟨drained, removed⟩, hout⟩
      rcases addOne_isOk.mpr hseqNr with ⟨seqNr, hcount⟩
      cases addOne_eq hcount
      refine ⟨({ drained with
        outOfOrder := eraseAll drained.outOfOrder removed }, []), ?_⟩
      simp only [acceptInOrder, hcount, bind, Except.bind, hout, pure,
        Except.pure]
    · split <;> exact ⟨_, rfl⟩

theorem handleData_isOk_iff (env : Env) {packet : Packet} {peer : UtpSocketState} :
    (exists o, handleData env packet peer = .ok o) <->
      exists out, acceptData packet peer = .ok out := by
  constructor
  · intro hcase
    rcases hcase with ⟨o, h⟩
    rcases handleData_eq_ok h with ⟨sack, -, haccept, -⟩
    exact ⟨_, haccept⟩
  · intro hcase
    rcases hcase with ⟨⟨peer', sack⟩, haccept⟩
    rcases handleData_of_acceptData env haccept with ⟨reply, hreply, -⟩
    exact ⟨_, hreply⟩

end Utp
