import Utp.Foundation.Climb
import Utp.Socket.FastRetransmit
import Utp.Transport.OneWay

/-!
# One side sends, and the order is kept

Two connected peers, one of which sends `Data` while the other only answers, over a
queue in each direction that loses nothing.  The receiver stores nothing, so what it
has follows from the number it has reached, and the sender finds everything behind its
mark in the window.
-/

namespace Utp

open Foundation

/-!
## What is handed over in order
-/

section Packet

variable {env : Env} {packet : Packet} {peer peer' : UtpSocketState} {o : Outcome}

structure Takes (taken : List Packet) (before after : UtpSocketState) : Prop where
  state : after.state = before.state
  lastAcked : after.lastAcked.toNat = before.lastAcked.toNat + taken.length
  seqNr : after.seqNr.toNat = before.seqNr.toNat + taken.length
  incomingBuffer : after.incomingBuffer = before.incomingBuffer ++ taken
  sentWindow : after.sentWindow = before.sentWindow
  outOfOrder : after.outOfOrder = before.outOfOrder

theorem DataEffect.takes {sack : List UInt8} (h : DataEffect packet peer peer' sack)
    (hstored : peer.outOfOrder = ∅)
    (hle : packet.seqNr.toNat <= peer.lastAcked.toNat + 1) :
    sack = [] ∧ exists taken, Takes taken peer peer' ∧
      (taken = [packet] ∧ packet.seqNr.toNat = peer.lastAcked.toNat + 1 ∨
        taken = [] ∧ packet.seqNr.toNat <= peer.lastAcked.toNat) := by
  cases h with
  | inOrder hseq hroom =>
      have hnone : following packet peer = [] := by
        rw [following, hstored]
        rfl
      refine ⟨rfl, [packet], ?_, Or.inl ⟨rfl, hseq⟩⟩
      rw [hnone]
      refine
        { state := rfl
          lastAcked := hseq
          seqNr := ?_
          incomingBuffer := rfl
          sentWindow := rfl
          outOfOrder := rfl }
      show (peer.seqNr + 1).toNat = peer.seqNr.toNat + 1
      rw [UInt16.toNat_add, UInt16.toNat_one]
      omega
  | early hlt => omega
  | old hold =>
      have hnothing : Takes [] peer peer :=
        ⟨rfl, rfl, rfl, (List.append_nil _).symm, rfl, rfl⟩
      exact ⟨rfl, [], hnothing, Or.inr ⟨rfl, hold⟩⟩

theorem handleAck_plain {payload : List UInt8} (hchain : packet.HasChain [] payload)
    (h : handleAck env packet peer = .ok o) :
    AckEffect env packet peer o.peer ∧
      exists reply, fastRetransmit packet o.peer = .ok reply ∧
        o.emitted = reply.toList := by
  rcases handleAck_eq_ok h with
    ⟨counted, reply, lost, status, hcount, hreply, hlost, hsent, hresult⟩
  have hnone : forall value k, ¬ Reports packet.ackNr [] value k := by
    intro value k hreports
    rcases hreports with ⟨e, he, -⟩
    cases he
  have heffect := getLostSeqNr_eq_ok hchain hlost
  rcases heffect.window with ⟨acked, hpeer, hacked⟩
  have hacked : acked = [] :=
    List.eq_nil_iff_forall_not_mem.mpr fun k hk => hnone _ k ((hacked k).mp hk).2
  have hlost : lost = [] :=
    List.eq_nil_iff_forall_not_mem.mpr fun k hk =>
      hnone _ k ((heffect.lost_iff k).mp hk).2
  have hsame : o.peer = counted := by
    rw [hpeer, hacked]
    rfl
  rw [hlost] at hsent
  rcases Prod.mk.inj (Except.ok.inj hsent) with ⟨hnothing, hstatus⟩
  rw [hsame]
  refine ⟨hcount, reply, hreply, ?_⟩
  rw [Outcome.emitted, ← hnothing, hresult, ← hstatus]
  cases reply <;> rfl

/-- A socket whose sends all succeed. -/
def Env.reliable (env : Env) : Env :=
  { env with udp := fun _ => .ok () }

theorem sent_reliable (env : Env) (hopen : peer.state ≠ .closed) (buf : List UInt8)
    (addr : SocketAddr) :
    (sendPackets env.reliable buf addr peer).sent.map Prod.fst =
      (enqueue env.id buf peer).sentWindow.toList.map Prod.snd := by
  have hudp : forall n, env.reliable.udp n = .ok () := fun _ => rfl
  rw [sendPackets, if_neg hopen]
  show (transmit env.reliable addr _ []).1.map Prod.fst = _
  rw [transmit_healthy hudp, List.nil_append, List.map_map]
  exact List.map_id' _

theorem getElem?_enqueue {id : UInt16} {buf : List UInt8}
    (hfit : peer.seqNr.toNat + (chunksOf buf).length <= 65535)
    (hbelow : forall (k : UInt16) p, peer.sentWindow[k]? = some p ->
      k.toNat < peer.seqNr.toNat) {k : UInt16} {p : Packet} :
    (enqueue id buf peer).sentWindow[k]? = some p <->
      peer.sentWindow[k]? = some p ∨
        exists i, (createdPackets id peer (chunksOf buf))[i]? = some p ∧
          k.toNat = peer.seqNr.toNat + i := by
  have hnumber : forall i, i < (chunksOf buf).length ->
      (peer.seqNr + UInt16.ofNat i).toNat = peer.seqNr.toNat + i := by
    intro i hi
    rw [UInt16.toNat_add, UInt16.toNat_ofNat']
    omega
  have hlength := @length_createdPackets id peer (chunksOf buf)
  rw [enqueue, sentWindow_foldl_iff (by omega)]
  constructor
  · intro hcase
    rcases hcase with ⟨i, hcreated, rfl⟩ | ⟨hearlier, -⟩
    · have hi := (List.getElem?_eq_some_iff.mp hcreated).1
      exact Or.inr ⟨i, hcreated, hnumber i (by omega)⟩
    · exact Or.inl hearlier
  · intro hcase
    rcases hcase with hearlier | ⟨i, hcreated, hk⟩
    · refine Or.inr ⟨hearlier, fun i hi heq => ?_⟩
      have hlt := hbelow k p hearlier
      rw [heq, hnumber i hi] at hlt
      omega
    · have hi := (List.getElem?_eq_some_iff.mp hcreated).1
      exact Or.inl ⟨i, hcreated, UInt16.toNat_inj.mp (by rw [hk, hnumber i (by omega)])⟩

end Packet

/-!
## The transfer
-/

def dataNumbers (data : List Packet) : List Nat := data.map fun p => p.seqNr.toNat

def ackNumbers (acks : List Packet) : List Nat := acks.map fun q => q.ackNr.toNat

/-- A `Data` packet that the receiver has had, or that is pending under its number. -/
def Pends (reached : Nat) (pending : List Packet) (p : Packet) : Prop :=
  p.getType = .data ∧
    (reached < p.seqNr.toNat -> pending[p.seqNr.toNat - reached - 1]? = some p)

/-- The data on its way climbs from what the receiver has reached to the last number in
use, the acknowledgements from the mark of the sender to what the receiver has reached.
The numbers of the sender are `lag` behind what the receiver waits for, and the packets
it has lost by that (`skipped`) are never acknowledged. -/
structure Transfer (lag : Nat) (skipped pending : List Packet)
    (sender receiver : UtpSocketState) (data acks : List Packet) : Prop where
  sender_state : sender.state = .connected
  receiver_state : receiver.state = .connected
  stored : receiver.outOfOrder = ∅
  count : sender.seqNr.toNat + lag = receiver.lastAcked.toNat + pending.length + 1
  lagging : 0 < lag -> pending = [] ∧ sender.lastAcked = receiver.lastAcked
  entries : forall (k : UInt16) p, sender.sentWindow[k]? = some p ->
    p.seqNr = k ∧ k.toNat < sender.seqNr.toNat ∧ Pends receiver.lastAcked.toNat pending p
  window : forall n, sender.lastAcked.toNat < n ->
    n <= receiver.lastAcked.toNat + pending.length ->
      exists k, k ∈ sender.sentWindow ∧ k.toNat = n
  kept : forall p, p ∈ skipped <->
    exists k : UInt16, sender.sentWindow[k]? = some p ∧ k.toNat <= sender.lastAcked.toNat
  packets : forall p, p ∈ data -> Pends receiver.lastAcked.toNat pending p
  dataClimbs : Climbs receiver.lastAcked.toNat (dataNumbers data)
    (receiver.lastAcked.toNat + pending.length)
  acksClimb : Climbs sender.lastAcked.toNat (ackNumbers acks) receiver.lastAcked.toNat
  sorted : (sender.lastAcked.toNat :: ackNumbers acks).Pairwise (· <= ·)
  plain : forall q, q ∈ acks -> q.getType = .ack ∧ exists payload, q.HasChain [] payload

section Pends

variable {reached : Nat} {pending new : List Packet} {p : Packet}

theorem Pends.le (h : Pends reached pending p) :
    p.seqNr.toNat <= reached + pending.length := by
  by_cases hlt : reached < p.seqNr.toNat
  · have hindex := (List.getElem?_eq_some_iff.mp (h.2 hlt)).1
    omega
  · omega

theorem Pends.append (h : Pends reached pending p) :
    Pends reached (pending ++ new) p := by
  refine ⟨h.1, fun hlt => ?_⟩
  have hpending := h.2 hlt
  rwa [List.getElem?_append_left (List.getElem?_eq_some_iff.mp hpending).1]

theorem Pends.drop {taken : List Packet} (h : Pends reached (taken ++ pending) p) :
    Pends (reached + taken.length) pending p := by
  refine ⟨h.1, fun hlt => ?_⟩
  have hpending := h.2 (by omega)
  rw [List.getElem?_append_right (by omega)] at hpending
  rwa [show p.seqNr.toNat - (reached + taken.length) - 1 =
    p.seqNr.toNat - reached - 1 - taken.length by omega]

end Pends

section Transfer

variable {lag : Nat} {skipped pending data acks rest : List Packet} {p q : Packet}
  {sender receiver : UtpSocketState} {env : Env} {o : Outcome}

theorem Transfer.acks_snoc
    (h : Transfer lag skipped pending sender receiver data acks) {reply : Packet}
    {reached : UInt16} (hackNr : reply.ackNr = reached)
    (hlow : receiver.lastAcked.toNat <= reached.toNat)
    (hhigh : reached.toNat <= receiver.lastAcked.toNat + 1) :
    Climbs sender.lastAcked.toNat (ackNumbers (acks ++ [reply])) reached.toNat ∧
      (sender.lastAcked.toNat :: ackNumbers (acks ++ [reply])).Pairwise (· <= ·) := by
  have hnumbers : ackNumbers (acks ++ [reply]) = ackNumbers acks ++ [reached.toNat] := by
    rw [ackNumbers, List.map_append, List.map_singleton, hackNr]
    rfl
  rw [hnumbers]
  constructor
  · have hclimbs := h.acksClimb.snoc hhigh
    rwa [Nat.max_eq_right hlow] at hclimbs
  · exact h.acksClimb.pairwise_snoc h.sorted hlow

theorem Transfer.takes
    (h : Transfer lag skipped pending sender receiver (p :: rest) acks)
    (ho : handlePacket env p receiver = .ok o) :
    exists taken pending' reply, pending = taken ++ pending' ∧
      Takes taken receiver o.peer ∧ o.emitted = [reply] ∧
      reply.ackNr = o.peer.lastAcked ∧
      o.peer.lastAcked.toNat = max receiver.lastAcked.toNat p.seqNr.toNat ∧
      Transfer lag skipped pending' sender o.peer rest (acks ++ [reply]) := by
  have hp := h.packets p (List.mem_cons_self ..)
  have hhead : p.seqNr.toNat <= receiver.lastAcked.toNat + 1 := h.dataClimbs.head_le
  rw [handlePacket_data h.receiver_state hp.1] at ho
  rcases handleData_eq_ok ho with ⟨sack, reply, haccept, hquiet, hreply⟩
  rcases (acceptData_eq_ok haccept).takes h.stored hhead with ⟨rfl, taken, htakes, hcase⟩
  have hlast : o.peer.lastAcked.toNat = max receiver.lastAcked.toNat p.seqNr.toNat := by
    rw [htakes.lastAcked]
    rcases hcase with ⟨rfl, hseq⟩ | ⟨rfl, hold⟩
    · rw [List.length_singleton]
      omega
    · rw [List.length_nil]
      omega
  have hpending : exists pending', pending = taken ++ pending' := by
    rcases hcase with ⟨rfl, hseq⟩ | ⟨rfl, -⟩
    · have hfirst := hp.2 (by omega)
      rw [show p.seqNr.toNat - receiver.lastAcked.toNat - 1 = 0 by omega] at hfirst
      exact ⟨pending.tail, (List.cons_head?_tail (by rwa [List.head?_eq_getElem?])).symm⟩
    · exact ⟨pending, rfl⟩
  rcases hpending with ⟨pending', rfl⟩
  have hreached := htakes.lastAcked
  have hlength : (taken ++ pending').length = taken.length + pending'.length :=
    List.length_append
  rcases hreply.hasChain with ⟨payload, hchain⟩
  rcases h.acks_snoc hreply.ackNr_eq (by omega) (by omega) with ⟨hclimb, hsorted⟩
  refine ⟨taken, pending', reply, rfl, htakes, by rw [hquiet]; rfl,
    hreply.ackNr_eq, hlast, ?_⟩
  have hcount := h.count
  have hdata := h.dataClimbs
  refine
    { sender_state := h.sender_state
      receiver_state := htakes.state.trans h.receiver_state
      stored := htakes.outOfOrder.trans h.stored
      count := by omega
      lagging := ?_
      entries := ?_
      window := ?_
      kept := h.kept
      packets := ?_
      dataClimbs := ?_
      acksClimb := hclimb
      sorted := hsorted
      plain := ?_ }
  · intro hlag
    rcases h.lagging hlag with ⟨hnil, hlevel⟩
    rcases List.append_eq_nil_iff.mp hnil with ⟨rfl, rfl⟩
    refine ⟨rfl, hlevel.trans (UInt16.toNat_inj.mp ?_)⟩
    rw [hreached, List.length_nil, Nat.add_zero]
  · intro k p hk
    rcases h.entries k p hk with ⟨hseq, hlt, hpends⟩
    rw [hreached]
    exact ⟨hseq, hlt, hpends.drop⟩
  · intro n hlow hhigh
    exact h.window n hlow (by omega)
  · intro p hin
    rw [hreached]
    exact (h.packets p (List.mem_cons_of_mem _ hin)).drop
  · rw [hlast]
    have htail := hdata.tail
    rwa [show receiver.lastAcked.toNat + (taken ++ pending').length =
      max receiver.lastAcked.toNat p.seqNr.toNat + pending'.length by omega] at htail
  · intro q hq
    rcases List.mem_append.mp hq with hold | hnew
    · exact h.plain q hold
    · cases List.mem_singleton.mp hnew
      exact ⟨hreply.getType_eq, payload, hchain⟩

theorem Transfer.head_ack
    (h : Transfer lag skipped pending sender receiver data (q :: rest)) :
    sender.lastAcked.toNat <= q.ackNr.toNat ∧
      q.ackNr.toNat <= sender.lastAcked.toNat + 1 ∧
      q.ackNr.toNat <= receiver.lastAcked.toNat :=
  ⟨(List.pairwise_cons.mp h.sorted).1 _ (List.mem_cons_self ..), h.acksClimb.head_le,
    h.acksClimb.mem_le (List.mem_cons_self ..)⟩

theorem Transfer.acked
    (h : Transfer lag skipped pending sender receiver data (q :: rest))
    {sender' : UtpSocketState} (heffect : AckEffect env q sender sender') :
    SameReceiving sender' sender ∧ sender'.lastAcked = q.ackNr ∧
      forall (k : UInt16) p, sender'.sentWindow[k]? = some p <->
        sender.sentWindow[k]? = some p ∧
          (sender.lastAcked.toNat < k.toNat -> q.ackNr.toNat < k.toNat) := by
  rcases h.head_ack with ⟨hlow, hhigh, -⟩
  refine ⟨heffect.sameReceiving, ?_⟩
  cases heffect with
  | repeated heq =>
      refine ⟨heq.symm, fun k p => ⟨fun hk => ⟨hk, ?_⟩, And.left⟩⟩
      rw [heq]
      exact id
  | next hnext =>
      refine ⟨rfl, fun k p => ?_⟩
      show (sender.sentWindow.erase q.ackNr)[k]? = some p <-> _
      rw [getElem?_erase_eq]
      by_cases hk : q.ackNr = k
      · rw [if_pos hk, hk]
        simp [show sender.lastAcked.toNat < k.toNat by rw [← hk]; omega]
      · have hne : q.ackNr.toNat ≠ k.toNat := fun heq => hk (UInt16.toNat_inj.mp heq)
        rw [if_neg hk]
        refine ⟨fun hkept => ⟨hkept, fun hlt => ?_⟩, And.left⟩
        omega
  | ignored hne hnot => exact absurd (UInt16.toNat_inj.mp (by omega)) hne

theorem Transfer.data_resent (h : Transfer lag skipped pending sender receiver data acks)
    {reply : Option Packet}
    (hreply : forall p, p ∈ reply -> Pends receiver.lastAcked.toNat pending p) :
    Climbs receiver.lastAcked.toNat (dataNumbers (data ++ reply.toList))
      (receiver.lastAcked.toNat + pending.length) := by
  rw [dataNumbers, List.map_append]
  cases hcase : reply with
  | none =>
      rw [Option.toList_none, List.map_nil, List.append_nil]
      exact h.dataClimbs
  | some p =>
      have hlast := (hreply p hcase).le
      have hclimbs := h.dataClimbs.snoc (x := p.seqNr.toNat) (by omega)
      rwa [Nat.max_eq_left hlast] at hclimbs

theorem Transfer.kept_acked
    (h : Transfer lag skipped pending sender receiver data (q :: rest))
    {sender' : UtpSocketState} (hmark : sender'.lastAcked = q.ackNr)
    (hwindow : forall (k : UInt16) p, sender'.sentWindow[k]? = some p <->
      sender.sentWindow[k]? = some p ∧
        (sender.lastAcked.toNat < k.toNat -> q.ackNr.toNat < k.toNat)) (p : Packet) :
    p ∈ skipped <-> exists k : UInt16, sender'.sentWindow[k]? = some p ∧
      k.toNat <= sender'.lastAcked.toNat := by
  have hlow := h.head_ack.1
  rw [h.kept p, hmark]
  constructor
  · intro hkept
    rcases hkept with ⟨k, hk, hkle⟩
    exact ⟨k, (hwindow k p).mpr ⟨hk, fun hlt => by omega⟩, by omega⟩
  · intro hkept
    rcases hkept with ⟨k, hk, hkle⟩
    rcases (hwindow k p).mp hk with ⟨hin, hcut⟩
    refine ⟨k, hin, Nat.not_lt.mp fun hlt => ?_⟩
    have hgone := hcut hlt
    omega

theorem Transfer.hears
    (h : Transfer lag skipped pending sender receiver data (q :: rest))
    (ho : handlePacket env q sender = .ok o) :
    exists reply : Option Packet, SameReceiving o.peer sender ∧
      o.peer.lastAcked = q.ackNr ∧ o.emitted = reply.toList ∧
      (forall p, p ∈ reply -> q.ackNr.toNat < p.seqNr.toNat) ∧
      Transfer lag skipped pending o.peer receiver (data ++ reply.toList) rest := by
  rcases h.head_ack with ⟨hlow, hhigh, hle⟩
  rcases h.plain q (List.mem_cons_self ..) with ⟨htype, payload, hchain⟩
  rw [handlePacket_ack h.sender_state htype] at ho
  rcases handleAck_plain hchain ho with ⟨heffect, reply, hreply, hemitted⟩
  rcases h.acked heffect with ⟨hsame, hmark, hwindow⟩
  have hbehind : forall p, p ∈ reply ->
      q.ackNr.toNat < p.seqNr.toNat ∧ Pends receiver.lastAcked.toNat pending p := by
    intro p hp
    rcases fastRetransmit_eq_some.mp (hreply.trans (congrArg _ hp)) with ⟨-, k, hk, hin⟩
    rcases h.entries k p ((hwindow k p).mp hin).1 with ⟨rfl, -, hpends⟩
    exact ⟨by omega, hpends⟩
  refine ⟨reply, hsame, hmark, hemitted, fun p hp => (hbehind p hp).1, ?_⟩
  refine
    { sender_state := hsame.state.trans h.sender_state
      receiver_state := h.receiver_state
      stored := h.stored
      count := by rw [hsame.seqNr]; exact h.count
      lagging := ?_
      entries := ?_
      window := ?_
      kept := h.kept_acked hmark hwindow
      packets := ?_
      dataClimbs := h.data_resent fun p hp => (hbehind p hp).2
      acksClimb := ?_
      sorted := ?_
      plain := fun r hr => h.plain r (List.mem_cons_of_mem _ hr) }
  · intro hlag
    rcases h.lagging hlag with ⟨hnil, hlevel⟩
    refine ⟨hnil, UInt16.toNat_inj.mp ?_⟩
    rw [hlevel] at hlow
    rw [hmark]
    omega
  · intro k p hk
    rw [hsame.seqNr]
    exact h.entries k p ((hwindow k p).mp hk).1
  · intro n hn hlast
    rw [hmark] at hn
    rcases h.window n (by omega) hlast with ⟨k, hk, rfl⟩
    rcases mem_iff_getElem?.mp hk with ⟨p, hp⟩
    exact ⟨k, mem_iff_getElem?.mpr ⟨p, (hwindow k p).mpr ⟨hp, fun _ => hn⟩⟩, rfl⟩
  · intro p hp
    rcases List.mem_append.mp hp with hold | hnew
    · exact h.packets p hold
    · exact (hbehind p (Option.mem_toList.mp hnew)).2
  · have htail : Climbs (max sender.lastAcked.toNat q.ackNr.toNat) (ackNumbers rest) _ :=
      h.acksClimb.tail
    rwa [Nat.max_eq_right hlow, ← hmark] at htail
  · rw [hmark]
    exact (List.pairwise_cons.mp h.sorted).2

theorem Transfer.pends_created
    (h : Transfer lag skipped pending sender receiver data acks)
    {id : UInt16} {chunks : List (List UInt8)}
    (hfit : sender.seqNr.toNat + chunks.length <= 65535) {i : Nat}
    (hp : (createdPackets id sender chunks)[i]? = some p) :
    p.seqNr.toNat = sender.seqNr.toNat + i ∧
      Pends receiver.lastAcked.toNat
        (pending ++ (createdPackets id sender chunks).drop lag) p := by
  rcases createdPackets_spec hp with ⟨htype, hseq, -⟩
  have hi := (List.getElem?_eq_some_iff.mp hp).1
  rw [length_createdPackets] at hi
  have hnumber : p.seqNr.toNat = sender.seqNr.toNat + i := by
    rw [hseq, UInt16.toNat_add, UInt16.toNat_ofNat']
    omega
  have hcount := h.count
  refine ⟨hnumber, htype, fun hlt => ?_⟩
  have hnew : lag <= i := by
    by_contra hlow
    rcases h.lagging (by omega) with ⟨hnil, -⟩
    rw [hnil, List.length_nil] at hcount
    omega
  rw [List.getElem?_append_right (by omega), List.getElem?_drop]
  rwa [show lag + (p.seqNr.toNat - receiver.lastAcked.toNat - 1 -
    pending.length) = i by omega]

theorem Transfer.window_write (h : Transfer lag skipped pending sender receiver data acks)
    {id : UInt16} {buf : List UInt8}
    (hfit : sender.seqNr.toNat + (chunksOf buf).length <= 65535)
    {k : UInt16} {p : Packet} :
    (enqueue id buf sender).sentWindow[k]? = some p <->
      sender.sentWindow[k]? = some p ∨
        exists i, (createdPackets id sender (chunksOf buf))[i]? = some p ∧
          k.toNat = sender.seqNr.toNat + i :=
  getElem?_enqueue hfit fun k p hk => (h.entries k p hk).2.1

section Write

variable {id : UInt16} {buf : List UInt8}

theorem Transfer.entries_write
    (h : Transfer lag skipped pending sender receiver data acks)
    (hfit : sender.seqNr.toNat + (chunksOf buf).length <= 65535) {k : UInt16}
    (hk : (enqueue id buf sender).sentWindow[k]? = some p) :
    p.seqNr = k ∧ k.toNat < sender.seqNr.toNat + (chunksOf buf).length ∧
      Pends receiver.lastAcked.toNat
        (pending ++ (createdPackets id sender (chunksOf buf)).drop lag) p := by
  rcases (h.window_write hfit).mp hk with hold | ⟨i, hi, hnumber⟩
  · rcases h.entries k p hold with ⟨hseq, hlt, hpends⟩
    exact ⟨hseq, by omega, hpends.append⟩
  · rcases h.pends_created hfit hi with ⟨hseq, hpends⟩
    have hindex := (List.getElem?_eq_some_iff.mp hi).1
    rw [length_createdPackets] at hindex
    exact ⟨UInt16.toNat_inj.mp (by omega), by omega, hpends⟩

theorem Transfer.window_full
    (h : Transfer lag skipped pending sender receiver data acks) (id : UInt16)
    (hfit : sender.seqNr.toNat + (chunksOf buf).length <= 65535) {n : Nat}
    (hlow : sender.lastAcked.toNat < n)
    (hhigh : n <= receiver.lastAcked.toNat + pending.length +
      ((chunksOf buf).length - lag)) :
    exists k, k ∈ (enqueue id buf sender).sentWindow ∧ k.toNat = n := by
  have hcount := h.count
  have hlength := @length_createdPackets id sender (chunksOf buf)
  by_cases hold : n <= receiver.lastAcked.toNat + pending.length
  · rcases h.window n hlow hold with ⟨k, hk, hnumber⟩
    rcases mem_iff_getElem?.mp hk with ⟨p, hp⟩
    exact ⟨k, mem_iff_getElem?.mpr ⟨p, (h.window_write hfit).mpr (Or.inl hp)⟩, hnumber⟩
  · have hi : n - sender.seqNr.toNat <
      (createdPackets id sender (chunksOf buf)).length := by omega
    have hcreated := List.getElem?_eq_getElem hi
    rcases h.pends_created hfit hcreated with ⟨hseq, -⟩
    refine ⟨_, mem_iff_getElem?.mpr ⟨_, (h.window_write hfit).mpr
      (Or.inr ⟨_, hcreated, hseq⟩)⟩, ?_⟩
    omega

theorem Transfer.kept_write
    (h : Transfer lag skipped pending sender receiver data acks)
    (hfit : sender.seqNr.toNat + (chunksOf buf).length <= 65535) (p : Packet) :
    p ∈ skipped ++ (createdPackets id sender (chunksOf buf)).take lag <->
      exists k : UInt16, (enqueue id buf sender).sentWindow[k]? = some p ∧
        k.toNat <= sender.lastAcked.toNat := by
  have hcount := h.count
  have hmark := h.acksClimb.le
  rw [List.mem_append, h.kept p]
  constructor
  · intro hcase
    rcases hcase with ⟨k, hk, hle⟩ | hnew
    · exact ⟨k, (h.window_write hfit).mpr (Or.inl hk), hle⟩
    · rcases List.mem_iff_getElem?.mp hnew with ⟨i, hi⟩
      have hlag := (List.getElem?_eq_some_iff.mp hi).1
      rw [List.length_take] at hlag
      rw [List.getElem?_take_of_lt (by omega)] at hi
      rcases h.pends_created hfit hi with ⟨hseq, -⟩
      rcases h.lagging (by omega) with ⟨hnil, hlevel⟩
      rw [hnil, List.length_nil] at hcount
      refine ⟨p.seqNr, (h.window_write hfit).mpr (Or.inr ⟨i, hi, hseq⟩), ?_⟩
      rw [hlevel]
      omega
  · intro hcase
    rcases hcase with ⟨k, hk, hle⟩
    rcases (h.window_write hfit).mp hk with hold | ⟨i, hi, hnumber⟩
    · exact Or.inl ⟨k, hold, hle⟩
    · refine Or.inr (List.mem_of_getElem? (i := i) ?_)
      rwa [List.getElem?_take_of_lt (by omega)]

theorem Transfer.data_write
    (h : Transfer lag skipped pending sender receiver data acks) (id : UInt16)
    (hfit : sender.seqNr.toNat + (chunksOf buf).length <= 65535) :
    Climbs receiver.lastAcked.toNat
      (dataNumbers (data ++ (enqueue id buf sender).sentWindow.toList.map Prod.snd))
      (receiver.lastAcked.toNat + pending.length + ((chunksOf buf).length - lag)) := by
  have hnumbers : dataNumbers ((enqueue id buf sender).sentWindow.toList.map Prod.snd) =
      (enqueue id buf sender).sentWindow.toList.map (fun e => e.1.toNat) := by
    rw [dataNumbers, List.map_map]
    refine List.map_congr_left fun e he => ?_
    have hentry := Std.ExtTreeMap.mem_toList_iff_getElem?_eq_some.mp he
    exact congrArg UInt16.toNat (h.entries_write hfit hentry).1
  have hmark := h.acksClimb.le
  rw [dataNumbers, List.map_append]
  refine h.dataClimbs.append ?_
  show Climbs _ (dataNumbers _) _
  rw [hnumbers]
  refine Climbs.of_sorted (List.pairwise_map.mpr (pairwise_toList _)) ?_ ?_ (by omega)
  · intro v hlow hhigh
    rcases h.window_full id hfit (by omega) hhigh with ⟨k, hk, hv⟩
    rcases mem_iff_getElem?.mp hk with ⟨p, hp⟩
    exact List.mem_map.mpr
      ⟨(k, p), Std.ExtTreeMap.mem_toList_iff_getElem?_eq_some.mpr hp, hv⟩
  · intro v hv
    rcases List.mem_map.mp hv with ⟨e, he, rfl⟩
    have hentry := Std.ExtTreeMap.mem_toList_iff_getElem?_eq_some.mp he
    rcases h.entries_write hfit hentry with ⟨hseq, -, hpends⟩
    have hle := hpends.le
    rw [hseq, List.length_append, List.length_drop, length_createdPackets] at hle
    omega

theorem Transfer.write (h : Transfer lag skipped pending sender receiver data acks)
    (id : UInt16) (hfit : sender.seqNr.toNat + (chunksOf buf).length <= 65535) :
    Transfer (lag - (chunksOf buf).length)
      (skipped ++ (createdPackets id sender (chunksOf buf)).take lag)
      (pending ++ (createdPackets id sender (chunksOf buf)).drop lag)
      (enqueue id buf sender) receiver
      (data ++ (enqueue id buf sender).sentWindow.toList.map Prod.snd) acks := by
  have hcount := h.count
  have hpeer := foldl_enqueueChunk id sender (chunksOf buf)
  have hseqNr : (enqueue id buf sender).seqNr.toNat =
      sender.seqNr.toNat + (chunksOf buf).length := by
    rw [enqueue, hpeer]
    show (sender.seqNr + UInt16.ofNat (chunksOf buf).length).toNat = _
    rw [UInt16.toNat_add, UInt16.toNat_ofNat']
    omega
  have hlast : (enqueue id buf sender).lastAcked = sender.lastAcked := by
    rw [enqueue, hpeer]
  have hlength : (pending ++ (createdPackets id sender (chunksOf buf)).drop lag).length =
      pending.length + ((chunksOf buf).length - lag) := by
    rw [List.length_append, List.length_drop, length_createdPackets]
  refine
    { sender_state := by rw [enqueue, hpeer]; exact h.sender_state
      receiver_state := h.receiver_state
      stored := h.stored
      count := by omega
      lagging := ?_
      entries := ?_
      window := ?_
      kept := by rw [hlast]; exact h.kept_write hfit
      packets := ?_
      dataClimbs := ?_
      acksClimb := by rw [hlast]; exact h.acksClimb
      sorted := by rw [hlast]; exact h.sorted
      plain := h.plain }
  · intro hlag
    rcases h.lagging (by omega) with ⟨hnil, hlevel⟩
    rw [hlast, hnil]
    exact ⟨List.drop_eq_nil_of_le (by rw [length_createdPackets]; omega), hlevel⟩
  · intro k p hk
    rw [hseqNr]
    exact h.entries_write hfit hk
  · intro n hlow hhigh
    rw [hlast] at hlow
    exact h.window_full id hfit hlow (by omega)
  · intro p hp
    rcases List.mem_append.mp hp with hold | hnew
    · exact (h.packets p hold).append
    · rcases List.mem_map.mp hnew with ⟨e, he, rfl⟩
      have hentry := Std.ExtTreeMap.mem_toList_iff_getElem?_eq_some.mp he
      exact (h.entries_write hfit hentry).2.2
  · rw [hlength, ← Nat.add_assoc]
    exact h.data_write id hfit

end Write

/-!
## When the queues are empty
-/

theorem Transfer.pending_nil (h : Transfer lag skipped pending sender receiver [] acks) :
    pending = [] := by
  have hlevel := h.dataClimbs.eq_of_nil
  exact List.length_eq_zero_iff.mp (by omega)

theorem Transfer.mark_reached (h : Transfer lag skipped pending sender receiver data []) :
    sender.lastAcked = receiver.lastAcked :=
  UInt16.toNat_inj.mp h.acksClimb.eq_of_nil

/-- A sender with nothing on its way: the window holds what the lag has cost, and
nothing else. -/
structure Resting (lag : Nat) (skipped : List Packet) (peer : UtpSocketState) : Prop where
  count : peer.seqNr.toNat + lag = peer.lastAcked.toNat + 1
  entries : forall (k : UInt16) p, peer.sentWindow[k]? = some p ->
    p.getType = .data ∧ p.seqNr = k ∧ k.toNat < peer.seqNr.toNat ∧
      k.toNat <= peer.lastAcked.toNat
  kept : forall p, p ∈ skipped <-> exists k : UInt16, peer.sentWindow[k]? = some p

theorem Resting.takes {taken : List Packet} {peer peer' : UtpSocketState}
    (h : Resting lag skipped peer) (htakes : Takes taken peer peer') :
    Resting lag skipped peer' := by
  have hcount := h.count
  have hseqNr := htakes.seqNr
  have hlast := htakes.lastAcked
  refine { count := by omega, entries := ?_, kept := ?_ }
  · intro k p hk
    rw [htakes.sentWindow] at hk
    rcases h.entries k p hk with ⟨htype, hseq, hlt, hle⟩
    exact ⟨htype, hseq, by omega, by omega⟩
  · rw [htakes.sentWindow]
    exact h.kept

theorem Transfer.rests (h : Transfer lag skipped pending sender receiver [] []) :
    Resting lag skipped sender := by
  have hnil := h.pending_nil
  have hlevel := h.mark_reached
  have hentries : forall (k : UInt16) p, sender.sentWindow[k]? = some p ->
      p.getType = .data ∧ p.seqNr = k ∧ k.toNat < sender.seqNr.toNat ∧
        k.toNat <= sender.lastAcked.toNat := by
    intro k p hk
    rcases h.entries k p hk with ⟨rfl, hlt, hpends⟩
    have hle := hpends.le
    rw [hnil, List.length_nil] at hle
    rw [hlevel]
    exact ⟨hpends.1, rfl, hlt, hle⟩
  have hcount := h.count
  rw [hnil, List.length_nil, ← hlevel] at hcount
  refine { count := hcount, entries := hentries, kept := fun p => (h.kept p).trans ?_ }
  constructor
  · intro hkept
    rcases hkept with ⟨k, hk, -⟩
    exact ⟨k, hk⟩
  · intro hkept
    rcases hkept with ⟨k, hk⟩
    exact ⟨k, hk, (hentries k p hk).2.2.2⟩

theorem resting_of_empty (hcount : sender.seqNr.toNat + lag = sender.lastAcked.toNat + 1)
    (hwindow : forall (k : UInt16) p, sender.sentWindow[k]? ≠ some p) :
    Resting lag [] sender where
  count := hcount
  entries := fun k p hk => absurd hk (hwindow k p)
  kept := fun p => by
    refine iff_of_false (fun hp => by cases hp) fun hkept => ?_
    rcases hkept with ⟨k, hk⟩
    exact hwindow k p hk

theorem Resting.transfer (hrests : Resting lag skipped sender)
    (hsender : sender.state = .connected) (hreceiver : receiver.state = .connected)
    (hstored : receiver.outOfOrder = ∅) (hlevel : receiver.lastAcked = sender.lastAcked) :
    Transfer lag skipped [] sender receiver [] [] := by
  refine
    { sender_state := hsender
      receiver_state := hreceiver
      stored := hstored
      count := by rw [hlevel]; exact hrests.count
      lagging := fun _ => ⟨rfl, hlevel.symm⟩
      entries := ?_
      window := ?_
      kept := ?_
      packets := fun p hp => by cases hp
      dataClimbs := .nil _
      acksClimb := by rw [hlevel]; exact .nil _
      sorted := List.pairwise_singleton ..
      plain := fun q hq => by cases hq }
  · intro k p hk
    rcases hrests.entries k p hk with ⟨htype, rfl, hlt, hle⟩
    rw [hlevel]
    exact ⟨rfl, hlt, htype, fun hbehind => absurd hbehind (Nat.not_lt.mpr hle)⟩
  · intro n hlow hhigh
    rw [hlevel, List.length_nil] at hhigh
    omega
  · intro p
    rw [hrests.kept p]
    constructor
    · intro hkept
      rcases hkept with ⟨k, hk⟩
      exact ⟨k, hk, (hrests.entries k p hk).2.2.2⟩
    · intro hkept
      rcases hkept with ⟨k, hk, -⟩
      exact ⟨k, hk⟩

/-!
## Coming to rest
-/

def remaining (sender receiver : UtpSocketState) (data acks : List Packet) : Nat :=
  exchange sender.lastAcked.toNat receiver.lastAcked.toNat
    (max receiver.lastAcked.toNat (sender.seqNr.toNat - 1)) (dataNumbers data)
    (ackNumbers acks)

theorem Transfer.last_eq (h : Transfer lag skipped pending sender receiver data acks) :
    max receiver.lastAcked.toNat (sender.seqNr.toNat - 1) =
      receiver.lastAcked.toNat + pending.length := by
  have hcount := h.count
  by_cases hlag : 0 < lag
  · have hnil := congrArg List.length (h.lagging hlag).1
    rw [List.length_nil] at hnil
    omega
  · omega

theorem Transfer.takes_lt {reply : Packet} {receiver' : UtpSocketState}
    (h : Transfer lag skipped pending sender receiver (p :: rest) acks)
    (hackNr : reply.ackNr = receiver'.lastAcked)
    (hlast : receiver'.lastAcked.toNat = max receiver.lastAcked.toNat p.seqNr.toNat)
    (hle : receiver'.lastAcked.toNat <= receiver.lastAcked.toNat + pending.length) :
    remaining sender receiver' rest (acks ++ [reply]) <
      remaining sender receiver (p :: rest) acks := by
  have hsame : max receiver'.lastAcked.toNat (sender.seqNr.toNat - 1) =
      max receiver.lastAcked.toNat (sender.seqNr.toNat - 1) := by
    have hend := h.last_eq
    omega
  rw [remaining, hsame, hlast, ackNumbers, List.map_append,
    List.map_singleton, hackNr, hlast]
  exact exchange_data_lt h.acksClimb.le

theorem Transfer.hears_lt {reply : Option Packet} {sender' : UtpSocketState}
    (h : Transfer lag skipped pending sender receiver data (q :: rest))
    (hsame : SameReceiving sender' sender) (hmark : sender'.lastAcked = q.ackNr)
    (hreply : forall p, p ∈ reply -> q.ackNr.toNat < p.seqNr.toNat) :
    remaining sender' receiver (data ++ reply.toList) rest <
      remaining sender receiver data (q :: rest) := by
  rcases h.head_ack with ⟨hlow, hhigh, hle⟩
  rw [remaining, hmark, hsame.seqNr, dataNumbers, List.map_append]
  refine exchange_ack_lt hlow hhigh hle (Nat.le_max_left ..) ?_ ?_
  · rw [List.length_map]
    exact reply.length_toList_le
  · intro y hy
    rcases List.mem_map.mp hy with ⟨p, hp, rfl⟩
    exact hreply p (Option.mem_toList.mp hp)

theorem Transfer.data_handled
    (h : Transfer lag skipped pending sender receiver (p :: rest) acks)
    (hbound : receiver.lastAcked.toNat + pending.length < 65535)
    (hseqNr : receiver.seqNr.toNat <= receiver.lastAcked.toNat + 1) (env : Env) :
    exists o, handlePacket env p receiver = .ok o := by
  have hp := h.packets p (List.mem_cons_self ..)
  have hle := hp.le
  rw [handlePacket_data h.receiver_state hp.1]
  refine (handleData_isOk_iff env).mpr (acceptData_isOk.mpr ⟨by omega, fun hseq => ?_⟩)
  exact ⟨by omega, fun _ => h.stored⟩

theorem Transfer.ack_handled_iff
    (h : Transfer lag skipped pending sender receiver data (q :: rest))
    (hbound : receiver.lastAcked.toNat + pending.length < 65535) (env : Env) :
    (exists o, handlePacket env q sender = .ok o) <->
      ¬ (q.ackNr = sender.lastAcked ∧ sender.duplicateAckCount.toNat = 65535) := by
  rcases h.plain q (List.mem_cons_self ..) with ⟨htype, payload, hchain⟩
  rcases h.head_ack with ⟨hlow, hhigh, hle⟩
  have hcounter := sender.duplicateAckCount.toNat_lt
  rw [handlePacket_ack h.sender_state htype,
    handleAck_isOk_iff env sender hchain (fun e he => by cases he)]
  constructor
  · intro hsafe hjammed
    have hroom := hsafe.counter hjammed.1
    omega
  · intro hroom
    exact
      { counter := fun heq => by
          have hne : ¬ sender.duplicateAckCount.toNat = 65535 :=
            fun hfull => hroom ⟨heq, hfull⟩
          omega
        mark := fun _ => by omega
        retransmit := fun _ => by omega
        sack := fun _ _ e he => by cases he
        address := fun _ s k _ _ _ hlost => by
          rcases hlost with ⟨e, he, -⟩
          cases he }

end Transfer

end Utp
