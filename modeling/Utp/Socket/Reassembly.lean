import Utp.Foundation.Frontier
import Utp.Socket.PacketRun

/-!
# In-order reassembly

A connected receiver gets `Data` packets in any order, some of them more than
once.  What it has delivered and what it keeps depends on the set of packets
alone: the longest run behind the start is delivered in order, and everything
behind the first gap is stored.
-/

namespace Utp

open Foundation

/-!
## The continuing front
-/

theorem continuing_maximal {start : UInt16} {entries : List (UInt16 × Packet)}
    (hsorted : entries.Pairwise fun a b => a.1.toNat < b.1.toNat)
    (hlow : forall e, e ∈ entries -> start.toNat < e.1.toNat) :
    forall e, e ∈ entries ->
      e.1.toNat ≠ (lastKey start (continuing start entries)).toNat + 1 := by
  induction entries generalizing start with
  | nil =>
      intro e he
      cases he
  | cons entry entries ih =>
      rcases List.pairwise_cons.mp hsorted with ⟨hfirst, hrest⟩
      have hentry := hlow entry (List.mem_cons_self ..)
      intro e he
      rw [continuing]
      split
      · rename_i hseq
        change _ ≠ (lastKey entry.1 (continuing entry.1 entries)).toNat + 1
        rcases List.mem_cons.mp he with rfl | he
        · rw [(continues_continuing _ _).toNat_lastKey]
          omega
        · exact ih hrest hfirst e he
      · rename_i hseq
        rcases List.mem_cons.mp he with rfl | he
        · exact hseq
        · have hlater := hfirst e he
          change e.1.toNat ≠ start.toNat + 1
          change ¬ entry.1.toNat = _ at hseq
          omega

theorem Continues.map_toNat {start : UInt16} {entries : List (UInt16 × Packet)}
    (h : Continues start entries) :
    entries.map (fun e => e.1.toNat) = List.range' (start.toNat + 1) entries.length := by
  induction entries generalizing start with
  | nil => rfl
  | cons entry entries ih =>
      rw [List.map_cons, ih h.2, h.1, List.length_cons, List.range'_succ]

/-!
## Sets of packets
-/

/-- Packets with one number are one packet. -/
def Agree (received : Set Packet) : Prop :=
  forall p q, p ∈ received -> q ∈ received -> p.seqNr = q.seqNr -> p = q

def numbers (received : Set Packet) : Set Nat :=
  (fun p => p.seqNr.toNat) '' received

theorem numbers_insert (packet : Packet) (received : Set Packet) :
    numbers (insert packet received) = insert packet.seqNr.toNat (numbers received) :=
  Set.image_insert_eq

/-- What a receiver that started behind `b` makes of the numbers of a set of
packets, whatever else is in them. -/
structure Received (b : UInt16) (received : Set Packet) (peer : UtpSocketState) :
    Prop where
  frontier : IsFrontier (numbers received) b.toNat peer.lastAcked.toNat
  delivered : peer.incomingBuffer.map (fun p => p.seqNr.toNat) =
    List.range' (b.toNat + 1) (peer.lastAcked.toNat - b.toNat)
  keys : forall key, key ∈ peer.outOfOrder <->
    key.toNat ∈ numbers received ∧ peer.lastAcked.toNat < key.toNat
  keyed : forall (key : UInt16) q, peer.outOfOrder[key]? = some q -> q.seqNr = key

/-- What it makes of a set of packets. -/
structure Reassembled (b : UInt16) (received : Set Packet) (peer : UtpSocketState) :
    Prop where
  frontier : IsFrontier (numbers received) b.toNat peer.lastAcked.toNat
  delivered : peer.incomingBuffer.map (fun p => p.seqNr.toNat) =
    List.range' (b.toNat + 1) (peer.lastAcked.toNat - b.toNat)
  origin : forall p, p ∈ peer.incomingBuffer -> p ∈ received
  stored : forall (key : UInt16) q, peer.outOfOrder[key]? = some q <->
    q ∈ received ∧ q.seqNr = key ∧ peer.lastAcked.toNat < key.toNat

section Step

variable {b : UInt16} {received : Set Packet} {packet : Packet}
  {peer peer' other : UtpSocketState} {sack : List UInt8}

theorem mem_numbers {key : UInt16} :
    key.toNat ∈ numbers received <-> exists q, q ∈ received ∧ q.seqNr = key := by
  constructor
  · intro hmem
    rcases hmem with ⟨q, hq, hnumber⟩
    exact ⟨q, hq, UInt16.toNat_inj.mp hnumber⟩
  · intro hcase
    rcases hcase with ⟨q, hq, rfl⟩
    exact ⟨q, hq, rfl⟩

theorem Received.gap (h : Received b received peer) {key : UInt16}
    (hkey : key ∈ peer.outOfOrder) : peer.lastAcked.toNat + 1 < key.toNat := by
  rcases (h.keys key).mp hkey with ⟨hmem, hlt⟩
  have hne : key.toNat ≠ peer.lastAcked.toNat + 1 := by
    intro heq
    rw [heq] at hmem
    exact h.frontier.missing hmem
  omega

theorem Received.old (h : Received b received peer)
    (hle : packet.seqNr.toNat <= peer.lastAcked.toNat) :
    Received b (insert packet received) peer where
  frontier := by
    rw [numbers_insert]
    exact h.frontier.insert_of_ne (by omega)
  delivered := h.delivered
  keys key := by
    rw [h.keys, numbers_insert, Set.mem_insert_iff]
    constructor
    · intro hkey
      exact ⟨Or.inr hkey.1, hkey.2⟩
    · intro hkey
      rcases hkey with ⟨heq | hmem, hlt⟩
      · omega
      · exact ⟨hmem, hlt⟩
  keyed := h.keyed

theorem Received.early (h : Received b received peer)
    (hlt : peer.lastAcked.toNat + 1 < packet.seqNr.toNat) :
    Received b (insert packet received)
      { peer with outOfOrder := peer.outOfOrder.insert packet.seqNr packet } where
  frontier := by
    rw [numbers_insert]
    exact h.frontier.insert_of_ne (by omega)
  delivered := h.delivered
  keys key := by
    rw [Std.ExtTreeMap.mem_insert, Std.compare_eq_iff_eq, h.keys, numbers_insert,
      Set.mem_insert_iff, UInt16.toNat_inj, eq_comm]
    constructor
    · intro hkey
      rcases hkey with rfl | ⟨hmem, hlow⟩
      · refine ⟨Or.inl rfl, ?_⟩
        change peer.lastAcked.toNat < _
        omega
      · exact ⟨Or.inr hmem, hlow⟩
    · intro hkey
      rcases hkey with ⟨heq | hmem, hlow⟩
      · exact Or.inl heq
      · exact Or.inr ⟨hmem, hlow⟩
  keyed key q hq := by
    rw [getElem?_insert_eq] at hq
    split at hq
    · rename_i hkey
      cases hq
      exact hkey
    · exact h.keyed key q hq

theorem Received.following_stored (h : Received b received peer)
    {e : UInt16 × Packet} (he : e ∈ following packet peer) :
    peer.outOfOrder[e.1]? = some e.2 ∧ e.1 ∈ peer.outOfOrder ∧ e.2.seqNr = e.1 := by
  have hmem := (continuing_front _ _).subset he
  have hget := Std.ExtTreeMap.mem_toList_iff_getElem?_eq_some.mp hmem
  exact ⟨hget, mem_of_mem_toList hmem, h.keyed e.1 e.2 hget⟩

theorem Received.following_maximal (h : Received b received peer)
    (hseq : packet.seqNr.toNat = peer.lastAcked.toNat + 1) :
    (lastKey packet.seqNr (following packet peer)).toNat + 1 ∉ numbers received := by
  intro hmem
  rcases hmem with ⟨q, hq, hnumber⟩
  have hlast := (continues_continuing packet.seqNr peer.outOfOrder.toList).toNat_lastKey
  change (lastKey packet.seqNr (following packet peer)).toNat = _ at hlast
  change q.seqNr.toNat = _ at hnumber
  have hkey := (h.keys q.seqNr).mpr ⟨⟨q, hq, rfl⟩, by omega⟩
  rcases mem_iff_getElem?.mp hkey with ⟨stored, hget⟩
  refine continuing_maximal (pairwise_toList peer.outOfOrder) ?_ (q.seqNr, stored)
    (Std.ExtTreeMap.mem_toList_iff_getElem?_eq_some.mpr hget) hnumber
  intro e he
  have hgap := h.gap (mem_of_mem_toList he)
  omega

theorem Received.inOrder_frontier (h : Received b received peer)
    (hseq : packet.seqNr.toNat = peer.lastAcked.toNat + 1) :
    IsFrontier (numbers (insert packet received)) b.toNat
      (lastKey packet.seqNr (following packet peer)).toNat := by
  have hcont : Continues packet.seqNr (following packet peer) := continues_continuing _ _
  have hlast := hcont.toNat_lastKey
  rw [numbers_insert, hseq]
  refine h.frontier.insert_next (by omega) ?_ (h.following_maximal hseq)
  intro n hlow hhigh
  have hbound := (lastKey packet.seqNr (following packet peer)).toNat_lt
  have hkey : (UInt16.ofNat n).toNat = n := by
    rw [UInt16.toNat_ofNat']
    omega
  rcases List.mem_map.mp ((hcont.mem_keys (UInt16.ofNat n)).mpr (by omega)) with
    ⟨e, he, hfst⟩
  have hmem := ((h.keys e.1).mp (h.following_stored he).2.1).1
  rwa [hfst, hkey] at hmem

theorem Received.inOrder_delivered (h : Received b received peer)
    (hseq : packet.seqNr.toNat = peer.lastAcked.toNat + 1) :
    (peer.incomingBuffer ++ packet :: (following packet peer).map Prod.snd).map
        (fun p => p.seqNr.toNat) =
      List.range' (b.toNat + 1)
        ((lastKey packet.seqNr (following packet peer)).toNat - b.toNat) := by
  have hcont : Continues packet.seqNr (following packet peer) := continues_continuing _ _
  have hle := h.frontier.le
  have hentries : (following packet peer).map (fun e => e.2.seqNr.toNat) =
      (following packet peer).map fun e => e.1.toNat := by
    refine List.map_congr_left ?_
    intro e he
    rw [(h.following_stored he).2.2]
  have hsplit := @List.range'_append_1 (b.toNat + 1)
    (peer.lastAcked.toNat - b.toNat) ((following packet peer).length + 1)
  rw [show b.toNat + 1 + (peer.lastAcked.toNat - b.toNat) =
    peer.lastAcked.toNat + 1 by omega] at hsplit
  rw [List.map_append, h.delivered, List.map_cons, List.map_map]
  change _ ++ packet.seqNr.toNat :: (following packet peer).map
    (fun e => e.2.seqNr.toNat) = _
  rw [hentries, hcont.map_toNat, ← List.range'_succ, hcont.toNat_lastKey, hseq, hsplit]
  congr 1
  omega

theorem Received.inOrder_erased (h : Received b received peer)
    (hseq : packet.seqNr.toNat = peer.lastAcked.toNat + 1) {key : UInt16} {q : Packet} :
    (eraseAll peer.outOfOrder ((following packet peer).map Prod.fst))[key]? = some q <->
      peer.outOfOrder[key]? = some q ∧
        (lastKey packet.seqNr (following packet peer)).toNat < key.toNat := by
  have hcont : Continues packet.seqNr (following packet peer) := continues_continuing _ _
  have hlast := hcont.toNat_lastKey
  have hkeys := hcont.mem_keys key
  rw [getElem?_eraseAll]
  split
  · rename_i herased
    have hbound := hkeys.mp herased
    refine iff_of_false (by simp) ?_
    intro hcase
    omega
  · rename_i hkept
    refine (and_iff_left_of_imp ?_).symm
    intro hq
    have hgap := h.gap (mem_iff_getElem?.mpr ⟨q, hq⟩)
    by_contra hnot
    exact hkept (hkeys.mpr (by omega))

theorem Received.inOrder (h : Received b received peer)
    (hseq : packet.seqNr.toNat = peer.lastAcked.toNat + 1) (seqNr : UInt16) :
    Received b (insert packet received)
      { peer with
        lastAcked := lastKey packet.seqNr (following packet peer)
        seqNr := seqNr
        incomingBuffer :=
          peer.incomingBuffer ++ packet :: (following packet peer).map Prod.snd
        outOfOrder :=
          eraseAll peer.outOfOrder ((following packet peer).map Prod.fst) } where
  frontier := h.inOrder_frontier hseq
  delivered := h.inOrder_delivered hseq
  keys key := by
    have hlast := (continues_continuing packet.seqNr peer.outOfOrder.toList).toNat_lastKey
    change (lastKey packet.seqNr (following packet peer)).toNat = _ at hlast
    have hold := h.keys key
    rw [mem_iff_getElem?] at hold ⊢
    rw [numbers_insert, Set.mem_insert_iff]
    simp only [h.inOrder_erased hseq, exists_and_right, hold]
    constructor
    · intro hkey
      exact ⟨Or.inr hkey.1.1, hkey.2⟩
    · intro hkey
      rcases hkey with ⟨heq | hmem, hlow⟩
      · omega
      · exact ⟨⟨hmem, by omega⟩, hlow⟩
  keyed key q hq := h.keyed key q ((h.inOrder_erased hseq).mp hq).1

theorem Received.step (h : Received b received peer)
    (heffect : DataEffect packet peer peer' sack) :
    Received b (insert packet received) peer' := by
  cases heffect with
  | inOrder hseq => exact h.inOrder hseq _
  | early hlt => exact h.early hlt
  | old hle => exact h.old hle

theorem Reassembled.toReceived (h : Reassembled b received peer) :
    Received b received peer where
  frontier := h.frontier
  delivered := h.delivered
  keys key := by
    rw [mem_iff_getElem?, mem_numbers]
    simp only [h.stored]
    constructor
    · intro hcase
      rcases hcase with ⟨q, hq, hnumber, hlt⟩
      exact ⟨⟨q, hq, hnumber⟩, hlt⟩
    · intro hcase
      rcases hcase with ⟨⟨q, hq, hnumber⟩, hlt⟩
      exact ⟨q, hq, hnumber, hlt⟩
  keyed key q hq := ((h.stored key q).mp hq).2.1

theorem Reassembled.early_stored (h : Reassembled b received peer)
    (hagree : Agree (insert packet received))
    (hlt : peer.lastAcked.toNat + 1 < packet.seqNr.toNat) (key : UInt16) (q : Packet) :
    (peer.outOfOrder.insert packet.seqNr packet)[key]? = some q <->
      q ∈ insert packet received ∧ q.seqNr = key ∧ peer.lastAcked.toNat < key.toNat := by
  rw [getElem?_insert_eq]
  by_cases hkey : packet.seqNr = key
  · rw [if_pos hkey]
    constructor
    · intro hq
      cases hq
      exact ⟨Set.mem_insert _ _, hkey, by rw [← hkey]; omega⟩
    · intro hq
      rcases hq with ⟨hmem, hnumber, -⟩
      rw [hagree packet q (Set.mem_insert _ _) hmem (hkey.trans hnumber.symm)]
  · rw [if_neg hkey, h.stored]
    constructor
    · intro hq
      exact ⟨Set.mem_insert_of_mem packet hq.1, hq.2⟩
    · intro hq
      rcases hq with ⟨rfl | hmem, hnumber, hlow⟩
      · exact absurd hnumber hkey
      · exact ⟨hmem, hnumber, hlow⟩

theorem Reassembled.inOrder_stored (h : Reassembled b received peer)
    (hseq : packet.seqNr.toNat = peer.lastAcked.toNat + 1) (key : UInt16) (q : Packet) :
    (eraseAll peer.outOfOrder ((following packet peer).map Prod.fst))[key]? = some q <->
      q ∈ insert packet received ∧ q.seqNr = key ∧
        (lastKey packet.seqNr (following packet peer)).toNat < key.toNat := by
  have hlast := (continues_continuing packet.seqNr peer.outOfOrder.toList).toNat_lastKey
  change (lastKey packet.seqNr (following packet peer)).toNat = _ at hlast
  rw [h.toReceived.inOrder_erased hseq, h.stored]
  constructor
  · intro hq
    exact ⟨Set.mem_insert_of_mem packet hq.1.1, hq.1.2.1, hq.2⟩
  · intro hq
    rcases hq with ⟨rfl | hmem, rfl, hlow⟩
    · omega
    · exact ⟨⟨hmem, rfl, by omega⟩, hlow⟩

theorem Reassembled.step (h : Reassembled b received peer)
    (hagree : Agree (insert packet received))
    (heffect : DataEffect packet peer peer' sack) :
    Reassembled b (insert packet received) peer' := by
  have hnumbers := h.toReceived.step heffect
  have hkept : forall p, p ∈ peer.incomingBuffer -> p ∈ insert packet received :=
    fun p hp => Set.mem_insert_of_mem packet (h.origin p hp)
  cases heffect with
  | inOrder hseq =>
      refine ⟨hnumbers.frontier, hnumbers.delivered, ?_, h.inOrder_stored hseq⟩
      intro p hp
      rcases List.mem_append.mp hp with hp | hp
      · exact hkept p hp
      · rcases List.mem_cons.mp hp with rfl | hp
        · exact Set.mem_insert _ _
        · rcases List.mem_map.mp hp with ⟨e, he, rfl⟩
          have hget := (h.toReceived.following_stored he).1
          exact Set.mem_insert_of_mem packet ((h.stored e.1 e.2).mp hget).1
  | early hlt =>
      exact ⟨hnumbers.frontier, hnumbers.delivered, hkept, h.early_stored hagree hlt⟩
  | old hle =>
      refine ⟨hnumbers.frontier, hnumbers.delivered, hkept, ?_⟩
      intro key q
      rw [h.stored]
      constructor
      · intro hq
        exact ⟨Set.mem_insert_of_mem packet hq.1, hq.2⟩
      · intro hq
        rcases hq with ⟨rfl | hmem, rfl, hlt⟩
        · omega
        · exact ⟨hmem, rfl, hlt⟩

end Step

theorem eq_of_map_eq {α β : Type} {f : α -> β} {l l' : List α}
    (hinj : forall a b, a ∈ l -> b ∈ l' -> f a = f b -> a = b)
    (h : l.map f = l'.map f) : l = l' := by
  induction l generalizing l' with
  | nil => exact (List.map_eq_nil_iff.mp h.symm).symm
  | cons a l ih =>
      cases l' with
      | nil => cases h
      | cons b l' =>
          rcases List.cons.inj h with ⟨hhead, htail⟩
          rw [hinj a b (List.mem_cons_self ..) (List.mem_cons_self ..) hhead,
            ih (fun c d hc hd => hinj c d (List.mem_cons_of_mem _ hc)
              (List.mem_cons_of_mem _ hd)) htail]

theorem Reassembled.unique {b : UInt16} {received : Set Packet}
    {peer other : UtpSocketState} (hagree : Agree received)
    (h : Reassembled b received peer) (h' : Reassembled b received other) :
    other.lastAcked = peer.lastAcked ∧ other.incomingBuffer = peer.incomingBuffer ∧
      other.outOfOrder = peer.outOfOrder := by
  have hlast : other.lastAcked.toNat = peer.lastAcked.toNat :=
    h'.frontier.unique h.frontier
  refine ⟨UInt16.toNat_inj.mp hlast, ?_, ?_⟩
  · refine eq_of_map_eq (f := fun p => p.seqNr.toNat) ?_ ?_
    · intro p q hp hq hnumber
      exact hagree p q (h'.origin p hp) (h.origin q hq) (UInt16.toNat_inj.mp hnumber)
    · rw [h'.delivered, h.delivered, hlast]
  · apply Std.ExtTreeMap.ext_getElem?
    intro key
    apply Option.ext
    intro q
    rw [h'.stored, h.stored, hlast]

/-!
## Runs
-/

/-- A connected receiver that starts behind `b`. -/
structure Fresh (b : UInt16) (peer : UtpSocketState) : Prop where
  state : peer.state = .connected
  lastAcked : peer.lastAcked = b
  seqNr : peer.seqNr = 1
  incomingBuffer : peer.incomingBuffer = []
  outOfOrder : peer.outOfOrder = ∅

def packetsOf (inputs : List (Env × Packet)) : Set Packet :=
  {p | exists env, (env, p) ∈ inputs}

theorem packetsOf_nil : packetsOf [] = ∅ := by
  apply Set.eq_empty_of_forall_notMem
  intro p hp
  rcases hp with ⟨env, hmem⟩
  cases hmem

theorem packetsOf_cons (env : Env) (packet : Packet) (inputs : List (Env × Packet)) :
    packetsOf ((env, packet) :: inputs) = insert packet (packetsOf inputs) := by
  ext p
  constructor
  · intro hp
    rcases hp with ⟨env', hmem⟩
    rcases List.mem_cons.mp hmem with heq | hmem
    · cases heq
      exact Set.mem_insert _ _
    · exact Set.mem_insert_of_mem _ ⟨env', hmem⟩
  · intro hp
    rcases hp with rfl | ⟨env', hmem⟩
    · exact ⟨env, List.mem_cons_self ..⟩
    · exact ⟨env', List.mem_cons_of_mem _ hmem⟩

/-- The list of packets: `Data` packets in any order, equal ones under equal
numbers, and no number at the end of the number space. -/
structure Receivable (b : UInt16) (inputs : List (Env × Packet)) : Prop where
  data : DataOnly inputs
  agree : Agree (packetsOf inputs)
  start : b.toNat < 65535
  bound : forall p, p ∈ packetsOf inputs -> p.seqNr.toNat < 65535

/-- The invariant of a run. -/
structure Receiving (b : UInt16) (received : Set Packet) (peer : UtpSocketState) :
    Prop extends Reassembled b received peer where
  state : peer.state = .connected
  /-- `seq_nr` counts the packets that came in order. -/
  counter : peer.seqNr.toNat <= 1 + (peer.lastAcked.toNat - b.toNat)

theorem Fresh.receiving {b : UInt16} {peer : UtpSocketState} (h : Fresh b peer) :
    Receiving b ∅ peer where
  frontier := by
    rw [h.lastAcked, numbers, Set.image_empty]
    exact IsFrontier.empty b.toNat
  delivered := by
    rw [h.incomingBuffer, h.lastAcked, Nat.sub_self]
    rfl
  origin p hp := by
    rw [h.incomingBuffer] at hp
    cases hp
  stored key q := by
    rw [h.outOfOrder]
    simp
  state := h.state
  counter := by
    rw [h.seqNr, UInt16.toNat_one]
    omega

section Receiving

variable {b : UInt16} {received : Set Packet} {packet : Packet} {peer : UtpSocketState}

theorem Receiving.lastAcked_lt (h : Receiving b received peer) (hstart : b.toNat < 65535)
    (hbound : forall p, p ∈ received -> p.seqNr.toNat < 65535) :
    peer.lastAcked.toNat < 65535 := by
  have hle := h.frontier.le
  by_cases hnone : peer.lastAcked.toNat = b.toNat
  · omega
  · rcases h.frontier.filled peer.lastAcked.toNat (by omega) (Nat.le_refl _) with
      ⟨p, hp, hnumber⟩
    rw [← hnumber]
    exact hbound p hp

theorem Receiving.handle (env : Env) (h : Receiving b received peer)
    (htype : packet.getType = .data) (hstart : b.toNat < 65535)
    (hbound : forall p, p ∈ insert packet received -> p.seqNr.toNat < 65535)
    (hagree : Agree (insert packet received)) :
    exists o reply, handlePacket env packet peer = .ok o ∧
      Receiving b (insert packet received) o.peer ∧
      o.result = .ok (some reply) ∧ reply.ackNr = o.peer.lastAcked := by
  have hmark := h.lastAcked_lt hstart fun p hp => hbound p (Set.mem_insert_of_mem _ hp)
  have hpacket := hbound packet (Set.mem_insert _ _)
  have hcounter := h.counter
  have hle := h.frontier.le
  rcases (@acceptData_isOk packet peer).mpr ⟨hmark, fun hseq => ⟨by omega, by omega⟩⟩
    with ⟨⟨peer', sack⟩, haccept⟩
  rcases handleData_of_acceptData env haccept with ⟨reply, ho, hreply⟩
  have heffect := acceptData_eq_ok haccept
  refine ⟨Outcome.quiet peer' (.ok (some reply)), reply,
    (handlePacket_data h.state htype).trans ho, ?_, rfl, hreply.ackNr_eq⟩
  exact
    { toReassembled := h.toReassembled.step hagree heffect
      state := heffect.state.trans h.state
      counter := by
        change peer'.seqNr.toNat <= 1 + (peer'.lastAcked.toNat - b.toNat)
        rcases heffect.counters with ⟨-, hseq, hmoved⟩ | ⟨-, hseq, hkept⟩
        · rw [hseq, UInt16.toNat_add, UInt16.toNat_one]
          omega
        · rw [hseq, hkept]
          exact hcounter }

theorem Receiving.run {inputs : List (Env × Packet)} (h : Receiving b received peer)
    (hdata : DataOnly inputs) (hstart : b.toNat < 65535)
    (hbound : forall p, p ∈ received ∪ packetsOf inputs -> p.seqNr.toNat < 65535)
    (hagree : Agree (received ∪ packetsOf inputs)) :
    exists last outcomes, runPackets inputs peer = .ok (last, outcomes) ∧
      Receiving b (received ∪ packetsOf inputs) last ∧
      forall o, o ∈ outcomes ->
        exists reply, o.result = .ok (some reply) ∧ reply.ackNr = o.peer.lastAcked := by
  induction inputs generalizing received peer with
  | nil =>
      refine ⟨peer, [], rfl, ?_, fun o ho => by cases ho⟩
      rw [packetsOf_nil, Set.union_empty]
      exact h
  | cons input inputs ih =>
      rcases input with ⟨env, packet⟩
      have hmove : received ∪ packetsOf ((env, packet) :: inputs) =
          insert packet received ∪ packetsOf inputs := by
        rw [packetsOf_cons, Set.union_insert, Set.insert_union]
      rw [hmove] at hbound hagree ⊢
      rcases h.handle env (hdata _ (List.mem_cons_self ..)) hstart
        (fun p hp => hbound p (Or.inl hp))
        (fun p q hp hq => hagree p q (Or.inl hp) (Or.inl hq)) with
        ⟨o, reply, ho, hnext, hresult, hreply⟩
      rcases ih hnext hdata.tail hbound hagree with
        ⟨last, outcomes, hrun, hlast, hreplies⟩
      refine ⟨last, o :: outcomes,
        runPackets_cons_eq_ok.mpr ⟨o, outcomes, ho, hrun, rfl⟩, hlast, ?_⟩
      intro o' ho'
      rcases List.mem_cons.mp ho' with rfl | ho'
      · exact ⟨reply, hresult, hreply⟩
      · exact hreplies o' ho'

end Receiving

theorem Fresh.run {b : UInt16} {peer : UtpSocketState} {inputs : List (Env × Packet)}
    (h : Fresh b peer) (hinputs : Receivable b inputs) :
    exists last outcomes, runPackets inputs peer = .ok (last, outcomes) ∧
      Reassembled b (packetsOf inputs) last ∧
      forall o, o ∈ outcomes ->
        exists reply, o.result = .ok (some reply) ∧ reply.ackNr = o.peer.lastAcked := by
  have hnone : ∅ ∪ packetsOf inputs = packetsOf inputs := Set.empty_union _
  rcases h.receiving.run hinputs.data hinputs.start (by rw [hnone]; exact hinputs.bound)
    (by rw [hnone]; exact hinputs.agree) with ⟨last, outcomes, hrun, hlast, hreplies⟩
  rw [hnone] at hlast
  exact ⟨last, outcomes, hrun, hlast.toReassembled, hreplies⟩

/-- What is delivered and stored when `k` is the length of the longest run
behind `b`. -/
structure Delivered (b : UInt16) (k : Nat) (received : Set Packet)
    (peer : UtpSocketState) : Prop where
  longest : IsGreatest {k | forall n, b.toNat < n -> n <= b.toNat + k ->
    exists p, p ∈ received ∧ p.seqNr.toNat = n} k
  lastAcked : peer.lastAcked.toNat = b.toNat + k
  incomingBuffer : peer.incomingBuffer.map (fun p => p.seqNr.toNat) =
    List.range' (b.toNat + 1) k
  origin : forall p, p ∈ peer.incomingBuffer -> p ∈ received
  keys : forall key, key ∈ peer.outOfOrder <->
    b.toNat + k < key.toNat ∧ exists p, p ∈ received ∧ p.seqNr = key
  gap : forall key, key ∈ peer.outOfOrder -> b.toNat + k + 1 < key.toNat
  stored : forall (key : UInt16) q, peer.outOfOrder[key]? = some q ->
    q ∈ received ∧ q.seqNr = key

theorem Reassembled.isDelivered {b : UInt16} {received : Set Packet}
    {peer : UtpSocketState} (h : Reassembled b received peer) :
    Delivered b (peer.lastAcked.toNat - b.toNat) received peer := by
  have hle := h.frontier.le
  have hmark : b.toNat + (peer.lastAcked.toNat - b.toNat) = peer.lastAcked.toNat := by
    omega
  exact
    { longest := h.frontier.isGreatest
      lastAcked := hmark.symm
      incomingBuffer := h.delivered
      origin := h.origin
      keys := by
        intro key
        rw [hmark, h.toReceived.keys, mem_numbers]
        exact and_comm
      gap := by
        intro key hkey
        rw [hmark]
        exact h.toReceived.gap hkey
      stored := by
        intro key q hq
        rcases (h.stored key q).mp hq with ⟨hreceived, hnumber, -⟩
        exact ⟨hreceived, hnumber⟩ }

/-- A list of packets is handled to its end, delivers the longest run behind the
start, and stores the rest; any other list of the same packets leads to the same
state. -/
theorem reassembly_maximal {b : UInt16} {peer : UtpSocketState}
    {inputs : List (Env × Packet)} (hfresh : Fresh b peer)
    (hinputs : Receivable b inputs) :
    exists last outcomes k, runPackets inputs peer = .ok (last, outcomes) ∧
      Delivered b k (packetsOf inputs) last ∧
      (forall o, o ∈ outcomes ->
        exists reply, o.result = .ok (some reply) ∧ reply.ackNr = o.peer.lastAcked) ∧
      forall inputs' peer', Fresh b peer' -> Receivable b inputs' ->
        packetsOf inputs' = packetsOf inputs ->
        exists last' outcomes', runPackets inputs' peer' = .ok (last', outcomes') ∧
          last'.lastAcked = last.lastAcked ∧
          last'.incomingBuffer = last.incomingBuffer ∧
          last'.outOfOrder = last.outOfOrder := by
  rcases hfresh.run hinputs with ⟨last, outcomes, hrun, hlast, hreplies⟩
  refine ⟨last, outcomes, _, hrun, hlast.isDelivered, hreplies, ?_⟩
  intro inputs' peer' hfresh' hinputs' hsame
  rcases hfresh'.run hinputs' with ⟨last', outcomes', hrun', hlast', -⟩
  rw [hsame] at hlast'
  exact ⟨last', outcomes', hrun', hlast.unique hinputs.agree hlast'⟩

def dataInputs (seqNrs : List UInt16) : List (Env × Packet) :=
  seqNrs.map fun n => incoming .data n 0

theorem mem_packetsOf_dataInputs {seqNrs : List UInt16} {p : Packet}
    (hp : p ∈ packetsOf (dataInputs seqNrs)) :
    exists n, n ∈ seqNrs ∧ p = barePacket .data n 0 := by
  rcases hp with ⟨env, hmem⟩
  rcases List.mem_map.mp hmem with ⟨n, hn, heq⟩
  exact ⟨n, hn, (Prod.mk.inj heq).2.symm⟩

theorem receivable_dataInputs {b : UInt16} {seqNrs : List UInt16} (hb : b.toNat < 65535)
    (hbound : forall n, n ∈ seqNrs -> n.toNat < 65535) :
    Receivable b (dataInputs seqNrs) where
  data input hinput := by
    rcases List.mem_map.mp hinput with ⟨n, -, rfl⟩
    exact getType_barePacket .data n 0
  agree p q hp hq hnumber := by
    rcases mem_packetsOf_dataInputs hp with ⟨n, -, rfl⟩
    rcases mem_packetsOf_dataInputs hq with ⟨m, -, rfl⟩
    rw [seqNr_barePacket, seqNr_barePacket] at hnumber
    rw [hnumber]
  start := hb
  bound p hp := by
    rcases mem_packetsOf_dataInputs hp with ⟨n, hn, rfl⟩
    rw [seqNr_barePacket]
    exact hbound n hn

/-- Reordered and repeated packets with a gap in front of the last one. -/
theorem reassembly_with_gap :
    exists last outcomes,
      runPackets (dataInputs [4, 2, 6, 2, 3, 4]) { UtpSocketState.new 0 with
        state := .connected, lastAcked := 1 } = .ok (last, outcomes) ∧
      Delivered 1 3 (packetsOf (dataInputs [4, 2, 6, 2, 3, 4])) last ∧
      (last.outOfOrder.toList.map Prod.fst = [6]) := by
  have hfresh : Fresh 1 { UtpSocketState.new 0 with
      state := .connected, lastAcked := 1 } := ⟨rfl, rfl, rfl, rfl, rfl⟩
  have hinputs : Receivable 1 (dataInputs [4, 2, 6, 2, 3, 4]) :=
    receivable_dataInputs (by decide) (by simp)
  have hmarks : (runPackets (dataInputs [4, 2, 6, 2, 3, 4]) { UtpSocketState.new 0 with
      state := .connected, lastAcked := 1 }).toOption.map
        (fun r => (r.1.lastAcked, r.1.outOfOrder.toList.map Prod.fst)) =
          some (4, [6]) := by
    decide +kernel
  rcases reassembly_maximal hfresh hinputs with ⟨last, outcomes, k, hrun, hspec, -, -⟩
  rw [hrun] at hmarks
  rcases Prod.mk.inj (Option.some.inj hmarks) with ⟨hlast, hkeys⟩
  have hk := hspec.lastAcked
  rw [hlast] at hk
  have hthree : k = 3 := by
    change 4 = 1 + k at hk
    omega
  rw [hthree] at hspec
  exact ⟨last, outcomes, hrun, hspec, hkeys⟩

end Utp
