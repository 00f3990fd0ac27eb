import Utp.Foundation.Rekey
import Utp.Foundation.Shift
import Utp.Socket.PacketRun

/-!
# Renumbering

Adding one constant to every sequence and acknowledgement number of a peer and
of the packets it handles.  As long as the numbers involved wrap around all
together or not at all, the two arms of a transfer commute with it.
-/

namespace Utp

open Foundation

/-!
## Renumbered packets
-/

def Packet.renumber (d : UInt16) (p : Packet) : Packet :=
  (p.setSeqNr (shift d p.seqNr)).setAckNr (shift d p.ackNr)

section Packet

variable (d : UInt16)

@[simp] theorem seqNr_renumber (p : Packet) : (p.renumber d).seqNr = shift d p.seqNr := by
  rw [Packet.renumber, Packet.setAckNr, Packet.seqNr_setField_of_ne _ (by decide),
    Packet.seqNr_setSeqNr]

@[simp] theorem ackNr_renumber (p : Packet) : (p.renumber d).ackNr = shift d p.ackNr :=
  Packet.ackNr_setAckNr ..

@[simp] theorem getType_renumber (p : Packet) : (p.renumber d).getType = p.getType := by
  simp [Packet.renumber, Packet.setAckNr, Packet.setSeqNr]

@[simp] theorem timestamp_renumber (p : Packet) :
    (p.renumber d).timestamp = p.timestamp := by
  simp [Packet.renumber, Packet.setAckNr, Packet.setSeqNr, Packet.timestamp,
    Packet.getField_setField]

@[simp] theorem extensions_renumber (p : Packet) :
    (p.renumber d).extensions = p.extensions := by
  simp only [Packet.renumber, Packet.setAckNr, Packet.setSeqNr,
    Packet.extensions_setField]

theorem renumber_setNumbers (p : Packet) (seqNr ackNr : UInt16) :
    ((p.setSeqNr seqNr).setAckNr ackNr).renumber d =
      (p.setSeqNr (shift d seqNr)).setAckNr (shift d ackNr) := by
  have hseq : ((p.setSeqNr seqNr).setAckNr ackNr).seqNr = seqNr := by
    rw [Packet.setAckNr, Packet.seqNr_setField_of_ne _ (by decide),
      Packet.seqNr_setSeqNr]
  rw [Packet.renumber, hseq, Packet.ackNr_setAckNr]
  simp only [Packet.setAckNr, Packet.setSeqNr]
  rw [Packet.setField_comm _ (show Packet.HeaderField.seqNr ≠ .ackNr by decide),
    Packet.setField_setField_self, Packet.setField_setField_self]

theorem renumber_prepareReply (env : Env) (packet : Packet) (t : PacketType)
    (seqNr ackNr : UInt16) :
    prepareReply env (packet.renumber d) t (shift d seqNr) (shift d ackNr) =
      (prepareReply env packet t seqNr ackNr).renumber d := by
  simp only [prepareReply, timestamp_renumber, renumber_setNumbers]

theorem withSack_renumber {reply : Packet} {sack : List UInt8}
    (hplain : reply.HasChain [] [])
    (hlength : sack.length ≠ 0 -> Packet.SackLength sack) :
    withSack (reply.renumber d) sack =
      (withSack reply sack).map (Packet.renumber d) := by
  unfold withSack
  split
  · rename_i hsack
    rcases Packet.setSack_chain (hlength hsack) hplain with ⟨q, hq, -, hfield, -⟩
    have hseq : q.seqNr = reply.seqNr := by rw [Packet.seqNr, hfield, Packet.seqNr]
    have hack : q.ackNr = reply.ackNr := by rw [Packet.ackNr, hfield, Packet.ackNr]
    rw [hq, Packet.renumber, Packet.setAckNr, Packet.setSeqNr,
      Packet.setSack_setField (hlength hsack) (Packet.hasChain_setField.mpr hplain),
      Packet.setSack_setField (hlength hsack) hplain, hq]
    simp only [Except.map, Packet.renumber, hseq, hack]
    rfl
  · rfl

end Packet

/-!
## Renumbered peers
-/

def renumberMap (d : UInt16) (m : PacketMap) : PacketMap :=
  rekey (shift d) (Packet.renumber d) m

def UtpSocketState.renumber (d : UInt16) (peer : UtpSocketState) : UtpSocketState :=
  { peer with
    seqNr := shift d peer.seqNr
    lastAcked := shift d peer.lastAcked
    incomingBuffer := peer.incomingBuffer.map (Packet.renumber d)
    sentWindow := renumberMap d peer.sentWindow
    outOfOrder := renumberMap d peer.outOfOrder }

def Outcome.renumber (d : UInt16) (o : Outcome) : Outcome where
  peer := o.peer.renumber d
  sent := o.sent.map fun datagram => (datagram.1.renumber d, datagram.2)
  result := o.result.map (Option.map (Packet.renumber d))

/-- The numbers of the peer that the arms compare. -/
structure NumbersInside (lo hi : Nat) (peer : UtpSocketState) : Prop where
  lastAcked : Inside lo hi peer.lastAcked
  outOfOrder : forall k, k ∈ peer.outOfOrder -> Inside lo hi k
  sentWindow : forall k, k ∈ peer.sentWindow -> Inside lo hi k

section Arms

variable {d : UInt16} {lo hi : Nat}

theorem toList_renumberMap (hd : Unsplit d lo hi) {m : PacketMap}
    (hkeys : forall k, k ∈ m -> Inside lo hi k) :
    (renumberMap d m).toList =
      m.toList.map fun e => (shift d e.1, e.2.renumber d) :=
  toList_rekey _ _ _ fun a b ha hb => hd.compare_eq (hkeys a ha) (hkeys b hb)

theorem getElem?_renumberMap (d : UInt16) (m : PacketMap) (k : UInt16) :
    (renumberMap d m)[shift d k]? = m[k]?.map (Packet.renumber d) := by
  rw [renumberMap, getElem?_rekey, Equiv.symm_apply_apply]

theorem addU16_one (hd : Unsplit d lo hi) {n : UInt16} (hn : Inside lo hi n) :
    addU16 (shift d n) 1 = (addU16 n 1).map (shift d) :=
  hd.addU16_eq hn.1 hn.2

/-!
## The data arm
-/

theorem foldl_markReceived_shift (hd : Unsplit d lo hi) {lastAcked : UInt16}
    (hlast : Inside lo hi lastAcked) {keys : List UInt16}
    (hkeys : forall k, k ∈ keys -> Inside lo hi k) (sack : List UInt8) :
    (keys.map (shift d)).foldl (markReceived (shift d lastAcked)) sack =
      keys.foldl (markReceived lastAcked) sack := by
  induction keys generalizing sack with
  | nil => rfl
  | cons k keys ih =>
      have hmark : markReceived (shift d lastAcked) sack (shift d k) =
          markReceived lastAcked sack k := by
        simp only [markReceived, shift_sub_shift,
          hd.lt_iff hlast (hkeys k (List.mem_cons_self ..))]
      rw [List.map_cons, List.foldl_cons, List.foldl_cons, hmark]
      exact ih (fun k hk => hkeys k (List.mem_cons_of_mem _ hk)) _

theorem buildSelectiveAck_renumber (hd : Unsplit d lo hi) {peer : UtpSocketState}
    (hpeer : NumbersInside lo hi peer) :
    buildSelectiveAck (peer.renumber d) = buildSelectiveAck peer := by
  have hkeys : (renumberMap d peer.outOfOrder).toList.map Prod.fst =
      (peer.outOfOrder.toList.map Prod.fst).map (shift d) := by
    rw [toList_renumberMap hd hpeer.outOfOrder, List.map_map, List.map_map]
    rfl
  show padToFour (((renumberMap d peer.outOfOrder).toList.map Prod.fst).foldl
    (markReceived (shift d peer.lastAcked)) []) = _
  rw [hkeys, foldl_markReceived_shift hd hpeer.lastAcked]
  · rfl
  · intro k hk
    rcases List.mem_map.mp hk with ⟨e, he, rfl⟩
    exact hpeer.outOfOrder e.1 (mem_of_mem_toList he)

theorem drain_renumber (hd : Unsplit d lo hi) {entries : List (UInt16 × Packet)}
    {peer : UtpSocketState} {removed : List UInt16}
    (hlast : Inside lo hi peer.lastAcked)
    (hkeys : forall e, e ∈ entries -> Inside lo hi e.1) :
    drain (entries.map fun e => (shift d e.1, e.2.renumber d)) (peer.renumber d)
        (removed.map (shift d)) =
      (drain entries peer removed).map fun r =>
        (r.1.renumber d, r.2.map (shift d)) := by
  induction entries generalizing peer removed with
  | nil => rfl
  | cons entry entries ih =>
      rcases entry with ⟨seq, p⟩
      refine bind_renamed (addU16_one hd hlast) ?_
      intro next _
      by_cases hseq : seq = next
      · rw [if_pos (congrArg (shift d) hseq), if_pos hseq]
        have hrest := @ih
          { peer with
            incomingBuffer := peer.incomingBuffer ++ [p]
            lastAcked := seq } (removed ++ [seq])
          (hkeys _ (List.mem_cons_self ..))
          (fun e he => hkeys e (List.mem_cons_of_mem _ he))
        simpa [UtpSocketState.renumber] using hrest
      · rw [if_neg (fun h => hseq ((shift d).injective h)), if_neg hseq]
        rfl

theorem acceptInOrder_renumber (hd : Unsplit d lo hi) {packet : Packet}
    {peer : UtpSocketState} (hpeer : NumbersInside lo hi peer)
    (hseq : Inside lo hi peer.seqNr) (hpacket : Inside lo hi packet.seqNr) :
    acceptInOrder (packet.renumber d) (peer.renumber d) =
      (acceptInOrder packet peer).map (UtpSocketState.renumber d) := by
  refine bind_renamed (addU16_one hd hseq) ?_
  intro seqNr _
  have hdrain := @drain_renumber d lo hi hd peer.outOfOrder.toList
    { peer with
      lastAcked := packet.seqNr
      seqNr := seqNr
      incomingBuffer := peer.incomingBuffer ++ [packet] } []
    hpacket (fun e he => hpeer.outOfOrder e.1 (mem_of_mem_toList he))
  rw [← toList_renumberMap hd hpeer.outOfOrder] at hdrain
  refine bind_renamed
    (f := fun r => (r.1.renumber d, r.2.map (shift d))) ?_ ?_
  · simpa [UtpSocketState.renumber] using hdrain
  · intro r _
    simp [UtpSocketState.renumber, renumberMap, rekey_eraseAll, pure,
      Except.pure, Except.map]

theorem NumbersInside.insert {packet : Packet} {peer : UtpSocketState}
    (hpeer : NumbersInside lo hi peer) (hpacket : Inside lo hi packet.seqNr) :
    NumbersInside lo hi
      { peer with outOfOrder := peer.outOfOrder.insert packet.seqNr packet } :=
  { hpeer with
    outOfOrder := by
      intro k hk
      rcases Std.ExtTreeMap.mem_insert.mp hk with heq | hold
      · rw [← Std.LawfulEqOrd.eq_of_compare heq]
        exact hpacket
      · exact hpeer.outOfOrder k hold }

theorem acceptData_renumber (hd : Unsplit d lo hi) {packet : Packet}
    {peer : UtpSocketState} (hpeer : NumbersInside lo hi peer)
    (hseq : Inside lo hi peer.seqNr) (hpacket : Inside lo hi packet.seqNr) :
    acceptData (packet.renumber d) (peer.renumber d) =
      (acceptData packet peer).map fun r => (r.1.renumber d, r.2) := by
  refine bind_renamed (addU16_one hd hpeer.lastAcked) ?_
  intro next _
  rw [seqNr_renumber]
  by_cases hnext : packet.seqNr = next
  · rw [if_pos (congrArg (shift d) hnext), if_pos hnext]
    exact bind_renamed (acceptInOrder_renumber hd hpeer hseq hpacket) fun _ _ => rfl
  · rw [if_neg (fun h => hnext ((shift d).injective h)), if_neg hnext]
    have hahead : (peer.renumber d).lastAcked < shift d packet.seqNr <->
        peer.lastAcked < packet.seqNr := hd.lt_iff hpeer.lastAcked hpacket
    by_cases hlt : peer.lastAcked < packet.seqNr
    · rw [if_pos (hahead.mpr hlt), if_pos hlt]
      have hsame : { peer.renumber d with
          outOfOrder := (peer.renumber d).outOfOrder.insert (shift d packet.seqNr)
            (packet.renumber d) } =
          UtpSocketState.renumber d { peer with
            outOfOrder := peer.outOfOrder.insert packet.seqNr packet } := by
        simp [UtpSocketState.renumber, renumberMap, rekey_insert]
      have hsack := buildSelectiveAck_renumber hd (hpeer.insert hpacket)
      simp only [hsame, hsack]
      rfl
    · rw [if_neg (fun h => hlt (hahead.mp h)), if_neg hlt]
      rfl

theorem handleData_renumber (hd : Unsplit d lo hi) {env : Env} {packet : Packet}
    {peer : UtpSocketState} (hpeer : NumbersInside lo hi peer)
    (hseq : Inside lo hi peer.seqNr) (hpacket : Inside lo hi packet.seqNr) :
    handleData env (packet.renumber d) (peer.renumber d) =
      (handleData env packet peer).map (Outcome.renumber d) := by
  refine bind_renamed (acceptData_renumber hd hpeer hseq hpacket) ?_
  intro r haccept
  rcases r with ⟨peer', sack⟩
  have hreply := withSack_renumber d
    (hasChain_prepareReply env packet .ack peer'.seqNr peer'.lastAcked)
    (sackLength_of_acceptData haccept)
  rw [← renumber_prepareReply] at hreply
  exact bind_renamed hreply fun _ _ => rfl

/-!
## The ack arm
-/

theorem countAck_renumber (hd : Unsplit d lo hi) {env : Env} {packet : Packet}
    {peer : UtpSocketState} (hpeer : NumbersInside lo hi peer) :
    countAck env (packet.renumber d) (peer.renumber d) =
      (countAck env packet peer).map (UtpSocketState.renumber d) := by
  have hlast : (peer.renumber d).lastAcked = shift d peer.lastAcked := rfl
  unfold countAck
  rw [ackNr_renumber, hlast]
  by_cases hrepeated : packet.ackNr = peer.lastAcked
  · rw [if_pos (congrArg (shift d) hrepeated), if_pos hrepeated]
    exact bind_renamed (congrFun Except.map_id _).symm fun _ _ => rfl
  · rw [if_neg (fun h => hrepeated ((shift d).injective h)), if_neg hrepeated]
    refine bind_renamed (addU16_one hd hpeer.lastAcked) ?_
    intro next _
    by_cases hnext : packet.ackNr = next
    · rw [if_pos (congrArg (shift d) hnext), if_pos hnext]
      simp [UtpSocketState.renumber, renumberMap, rekey_erase, pure, Except.pure,
        Except.map]
    · rw [if_neg (fun h => hnext ((shift d).injective h)), if_neg hnext]
      rfl

theorem fastRetransmit_renumber (hd : Unsplit d lo hi) {packet : Packet}
    {peer : UtpSocketState} (hpacket : Inside lo hi packet.ackNr) :
    fastRetransmit (packet.renumber d) (peer.renumber d) =
      (fastRetransmit packet peer).map (Option.map (Packet.renumber d)) := by
  unfold fastRetransmit
  show (if 3 <= peer.duplicateAckCount then _ else _) = _
  split
  · rw [ackNr_renumber]
    refine bind_renamed (addU16_one hd hpacket) ?_
    intro lost _
    exact congrArg Except.ok (getElem?_renumberMap d peer.sentWindow lost)
  · rfl

def Found.renumber (d : UInt16) (found : Found) : Found where
  ackPackets := found.ackPackets.map (shift d)
  result := found.result.map (shift d)

theorem Found.note_renumber (hd : Unsplit d lo hi) {found : Found}
    {last seqNr : UInt16} {received : Bool} (hlast : Inside lo hi last)
    (hseq : Inside lo hi seqNr) :
    (found.renumber d).note (shift d last) (shift d seqNr) received =
      (found.note last seqNr received).renumber d := by
  unfold Found.note
  by_cases hlt : seqNr < last
  · rw [if_pos ((hd.lt_iff hseq hlast).mpr hlt), if_pos hlt]
    cases received <;> simp [Found.renumber]
  · rw [if_neg (fun h => hlt ((hd.lt_iff hseq hlast).mp h)), if_neg hlt]

theorem scanBits_renumber (hd : Unsplit d lo hi) {ackNr last : UInt16}
    {bits : List Bool} {idx : Nat} {found : Found} (hlast : Inside lo hi last)
    (hlow : lo <= ackNr.toNat) (hfit : ackNr.toNat + idx + bits.length < hi) :
    scanBits (shift d ackNr) (shift d last) bits idx (found.renumber d) =
      (scanBits ackNr last bits idx found).map (Found.renumber d) := by
  induction bits generalizing idx found with
  | nil => rfl
  | cons received bits ih =>
      rw [List.length_cons] at hfit
      have htop := hd.top
      have hofNat : (UInt16.ofNat idx).toNat = idx := by
        rw [UInt16.toNat_ofNat']
        omega
      refine bind_renamed (addU16_one hd ⟨hlow, by omega⟩) ?_
      intro next hnext
      have hnext := addOne_eq_ok.mp hnext
      refine bind_renamed (hd.addU16_eq (by omega) (by omega)) ?_
      intro seqNr hseq
      have hseq := addU16_eq_ok.mp hseq
      rw [Found.note_renumber hd hlast ⟨by omega, by omega⟩]
      exact ih (by omega)

/-- The numbers a SACK of the packet can report. -/
def SackInside (lo hi : Nat) (packet : Packet) (exts : List Extension) : Prop :=
  lo <= packet.ackNr.toNat ∧
    forall e, e ∈ exts -> e.ty = .selectiveAck ->
      packet.ackNr.toNat + e.data.length * 8 < hi

theorem scanExtensions_renumber (hd : Unsplit d lo hi) {packet : Packet}
    {peer : UtpSocketState} {exts : List Extension} {found : Found}
    (hpeer : NumbersInside lo hi peer) (hexts : SackInside lo hi packet exts) :
    scanExtensions (packet.renumber d) (peer.renumber d) exts (found.renumber d) =
      (scanExtensions packet peer exts found).map (Found.renumber d) := by
  induction exts generalizing found with
  | nil => rfl
  | cons e exts ih =>
      have hrest : SackInside lo hi packet exts :=
        ⟨hexts.1, fun e he => hexts.2 e (List.mem_cons_of_mem _ he)⟩
      have hentry : lastEntry (peer.renumber d).sentWindow =
          (lastEntry peer.sentWindow).map fun e => (shift d e.1, e.2.renumber d) :=
        lastEntry_rekey _ _ _ fun a b ha hb =>
          hd.compare_eq (hpeer.sentWindow a ha) (hpeer.sentWindow b hb)
      rw [scanExtensions, scanExtensions]
      split
      · rename_i hsack
        rw [hentry]
        cases hlast : lastEntry peer.sentWindow with
        | none => exact ih hrest
        | some entry =>
            have hmem : Inside lo hi entry.1 :=
              hpeer.sentWindow _ (mem_of_lastEntry hlast)
            refine bind_renamed (congrFun Except.map_id _).symm ?_
            intro received hreceived
            rw [Extension.iter_eq] at hreceived
            cases hreceived
            have hfit := hexts.2 e (List.mem_cons_self ..) hsack
            rw [ackNr_renumber]
            refine bind_renamed (scanBits_renumber hd hmem hexts.1 ?_) ?_
            · rw [id, length_bits]
              omega
            · intro found' _
              exact ih hrest
      · exact ih hrest

theorem getLostSeqNr_renumber (hd : Unsplit d lo hi) {packet : Packet}
    {peer : UtpSocketState} (hpeer : NumbersInside lo hi peer)
    (hexts : forall exts, packet.extensions = .ok exts -> SackInside lo hi packet exts) :
    getLostSeqNr (packet.renumber d) (peer.renumber d) =
      (getLostSeqNr packet peer).map fun r =>
        (r.1.map (shift d), r.2.renumber d) := by
  unfold getLostSeqNr
  rw [extensions_renumber]
  refine bind_renamed (congrFun Except.map_id _).symm ?_
  intro exts hok
  refine bind_renamed
    (@scanExtensions_renumber d lo hi hd packet peer exts ⟨[], []⟩ hpeer
      (hexts exts hok)) ?_
  intro found _
  simp [UtpSocketState.renumber, renumberMap, rekey_eraseAll, Found.renumber, pure,
    Except.pure, Except.map]

theorem resendLost_renumber (d : UInt16) {env : Env} {peer : UtpSocketState}
    {lost : List UInt16} {sent : List Datagram} :
    resendLost env (peer.renumber d) (lost.map (shift d))
        (sent.map fun datagram => (datagram.1.renumber d, datagram.2)) =
      (resendLost env peer lost sent).map fun r =>
        (r.1.map fun datagram => (datagram.1.renumber d, datagram.2), r.2) := by
  induction lost generalizing sent with
  | nil => rfl
  | cons seqNr lost ih =>
      have hentry := getElem?_renumberMap d peer.sentWindow seqNr
      have hwindow : (peer.renumber d).sentWindow = renumberMap d peer.sentWindow := rfl
      have haddr : (peer.renumber d).connectedTo = peer.connectedTo := rfl
      rw [List.map_cons, resendLost, resendLost, hwindow, hentry, haddr, List.length_map]
      cases peer.sentWindow[seqNr]? with
      | none => exact ih
      | some packet =>
          cases peer.connectedTo with
          | none => rfl
          | some addr =>
              cases env.udp sent.length with
              | error e => rfl
              | ok =>
                  have hrest := @ih (sent ++ [(packet, addr)])
                  rw [List.map_append] at hrest
                  exact hrest

theorem AckEffect.numbersInside {env : Env} {packet : Packet}
    {peer counted : UtpSocketState} (h : AckEffect env packet peer counted)
    (hpeer : NumbersInside lo hi peer) (hpacket : Inside lo hi packet.ackNr) :
    NumbersInside lo hi counted := by
  cases h with
  | repeated => exact { hpeer with }
  | ignored => exact hpeer
  | next =>
      exact
        { hpeer with
          lastAcked := hpacket
          sentWindow := fun k hk =>
            hpeer.sentWindow k (Std.ExtTreeMap.mem_of_mem_erase hk) }

theorem handleAck_renumber (hd : Unsplit d lo hi) {env : Env} {packet : Packet}
    {peer : UtpSocketState} (hpeer : NumbersInside lo hi peer)
    (hpacket : Inside lo hi packet.ackNr)
    (hexts : forall exts, packet.extensions = .ok exts -> SackInside lo hi packet exts) :
    handleAck env (packet.renumber d) (peer.renumber d) =
      (handleAck env packet peer).map (Outcome.renumber d) := by
  refine bind_renamed (countAck_renumber hd hpeer) ?_
  intro counted hcount
  have hcounted := (countAck_eq_ok.mp hcount).numbersInside hpeer hpacket
  refine bind_renamed (fastRetransmit_renumber hd hpacket) ?_
  intro reply _
  refine bind_renamed (getLostSeqNr_renumber hd hcounted hexts) ?_
  intro r _
  refine bind_renamed (@resendLost_renumber d env r.2 r.1 []) ?_
  intro out _
  rcases out with ⟨sent, e | _⟩ <;> rfl

end Arms

end Utp
