import Utp.Socket.Calls
import Utp.Socket.NoPanic
import Utp.Socket.Reassembly

/-!
# A blocked store

The loop that delivers stored packets starts at the smallest number and stops at
the first one that does not continue the sequence.  A stored number that is not
behind a gap is never looked at again, and nothing gets past it: an `Ack` that
moves `lastAcked` up to a stored packet blocks the store for good.
-/

namespace Utp

open Foundation

/-!
## The front of the store
-/

/-- There is a gap between the last acknowledged number and the first stored
one. -/
def StoreAhead (peer : UtpSocketState) : Prop :=
  forall k, k ∈ peer.outOfOrder -> peer.lastAcked.toNat + 1 < k.toNat

/-- Some stored number lies at or in front of the next one. -/
def Blocked (peer : UtpSocketState) : Prop :=
  exists k, k ∈ peer.outOfOrder ∧ k.toNat <= peer.lastAcked.toNat + 1

theorem not_storeAhead {peer : UtpSocketState} : ¬ StoreAhead peer <-> Blocked peer := by
  unfold StoreAhead Blocked
  push Not
  rfl

theorem storeAhead_of_empty {peer : UtpSocketState} (h : peer.outOfOrder = ∅) :
    StoreAhead peer := by
  intro k hk
  rw [h] at hk
  exact absurd hk Std.ExtTreeMap.not_mem_empty

section Continuing

variable {start : UInt16} {entries : List (UInt16 × Packet)}

theorem continuing_eq_nil (h : forall e, e ∈ entries -> e.1.toNat ≠ start.toNat + 1) :
    continuing start entries = [] := by
  cases entries with
  | nil => rfl
  | cons entry entries =>
      rw [continuing, if_neg (h entry (List.mem_cons_self ..))]

theorem continuing_of_le (hsorted : entries.Pairwise fun a b => a.1.toNat < b.1.toNat)
    {e : UInt16 × Packet} (he : e ∈ entries) (hle : e.1.toNat <= start.toNat) :
    continuing start entries = [] := by
  cases entries with
  | nil => rfl
  | cons entry entries =>
      rw [continuing, if_neg]
      rcases List.mem_cons.mp he with rfl | he
      · omega
      · have hlt := (List.pairwise_cons.mp hsorted).1 e he
        omega

end Continuing

section Effect

variable {packet : Packet} {peer peer' : UtpSocketState} {sack : List UInt8} {k : UInt16}

theorem Blocked.following_eq_nil (h : Blocked peer)
    (hseq : packet.seqNr.toNat = peer.lastAcked.toNat + 1) :
    following packet peer = [] := by
  rcases h with ⟨k, hk, hle⟩
  rcases mem_iff_getElem?.mp hk with ⟨q, hq⟩
  have hentry := Std.ExtTreeMap.mem_toList_iff_getElem?_eq_some.mpr hq
  have hlow : (k, q).1.toNat <= packet.seqNr.toNat := hseq ▸ hle
  exact continuing_of_le (pairwise_toList peer.outOfOrder) hentry hlow

theorem StoreAhead.following_maximal (h : StoreAhead peer)
    (hseq : packet.seqNr.toNat = peer.lastAcked.toNat + 1) (hk : k ∈ peer.outOfOrder) :
    k.toNat ≠ (lastKey packet.seqNr (following packet peer)).toNat + 1 := by
  rcases mem_iff_getElem?.mp hk with ⟨q, hq⟩
  refine continuing_maximal (pairwise_toList peer.outOfOrder) ?_ (k, q)
    (Std.ExtTreeMap.mem_toList_iff_getElem?_eq_some.mpr hq)
  intro e he
  have hahead := h e.1 (mem_of_mem_toList he)
  omega

theorem StoreAhead.next_following (h : StoreAhead peer)
    (hseq : packet.seqNr.toNat = peer.lastAcked.toNat + 1) (hk : k ∈ peer.outOfOrder)
    (hnext : k.toNat = packet.seqNr.toNat + 1) :
    k ∈ (following packet peer).map Prod.fst := by
  have hcont : Continues packet.seqNr (following packet peer) := continues_continuing _ _
  have hmaximal := h.following_maximal hseq hk
  rw [hcont.toNat_lastKey] at hmaximal
  rw [hcont.mem_keys]
  omega

theorem StoreAhead.inOrder (h : StoreAhead peer)
    (hseq : packet.seqNr.toNat = peer.lastAcked.toNat + 1)
    (hk : k ∈ eraseAll peer.outOfOrder ((following packet peer).map Prod.fst)) :
    (lastKey packet.seqNr (following packet peer)).toNat + 1 < k.toNat := by
  have hcont : Continues packet.seqNr (following packet peer) := continues_continuing _ _
  rcases mem_iff_getElem?.mp hk with ⟨q, hq⟩
  have hstored := mem_iff_getElem?.mpr ⟨q, eraseAll_kept hq⟩
  have hmaximal := h.following_maximal hseq hstored
  have hahead := h k hstored
  have hkept : k ∉ (following packet peer).map Prod.fst := by
    intro hin
    rw [getElem?_eraseAll, if_pos hin] at hq
    cases hq
  rw [hcont.mem_keys] at hkept
  rw [hcont.toNat_lastKey] at hmaximal ⊢
  omega

theorem DataEffect.storeAhead (heffect : DataEffect packet peer peer' sack)
    (h : StoreAhead peer) : StoreAhead peer' := by
  cases heffect with
  | inOrder hseq => exact fun k hk => h.inOrder hseq hk
  | early hlt =>
      intro k hk
      rw [Std.ExtTreeMap.mem_insert, Std.compare_eq_iff_eq] at hk
      rcases hk with rfl | hk
      · exact hlt
      · exact h k hk
  | old => exact h

theorem DataEffect.kept_of_blocked (heffect : DataEffect packet peer peer' sack)
    (h : Blocked peer) (hk : k ∈ peer.outOfOrder) : k ∈ peer'.outOfOrder := by
  cases heffect with
  | inOrder hseq =>
      rw [h.following_eq_nil hseq]
      exact hk
  | early =>
      rw [Std.ExtTreeMap.mem_insert]
      exact Or.inr hk
  | old => exact hk

theorem DataEffect.lastAcked_le (heffect : DataEffect packet peer peer' sack) :
    peer.lastAcked.toNat <= peer'.lastAcked.toNat := by
  rcases heffect.counters with ⟨-, -, hle⟩ | ⟨-, -, hsame⟩
  · omega
  · rw [hsame]

theorem DataEffect.blocked (heffect : DataEffect packet peer peer' sack)
    (h : Blocked peer) : Blocked peer' := by
  have hle := heffect.lastAcked_le
  rcases h with ⟨k, hk, hlow⟩
  exact ⟨k, heffect.kept_of_blocked ⟨k, hk, hlow⟩ hk, by omega⟩

end Effect

/-!
## What a call does to the store
-/

/-- Nothing gets out of the store any more: it is blocked, or the counter of
deliveries has no room left. -/
def Jammed (peer : UtpSocketState) : Prop :=
  Blocked peer ∨ peer.seqNr.toNat = 65535

/-- The store is jammed and still holds everything it held. -/
structure Keeps (peer later : UtpSocketState) : Prop where
  state : later.state = .connected
  jammed : Jammed later
  stored : forall k, k ∈ peer.outOfOrder -> k ∈ later.outOfOrder

section Call

variable {env : Env} {packet : Packet} {peer peer' : UtpSocketState} {o : Outcome}
  {sack : List UInt8}

theorem DataEffect.jammed (heffect : DataEffect packet peer peer' sack)
    (h : Jammed peer) :
    Jammed peer' ∧ forall k, k ∈ peer.outOfOrder -> k ∈ peer'.outOfOrder := by
  rcases h with hblocked | hfull
  · exact ⟨Or.inl (heffect.blocked hblocked), fun k hk =>
      heffect.kept_of_blocked hblocked hk⟩
  · cases heffect with
    | inOrder _ hroom => omega
    | early =>
        refine ⟨Or.inr hfull, ?_⟩
        intro k hk
        rw [Std.ExtTreeMap.mem_insert]
        exact Or.inr hk
    | old => exact ⟨Or.inr hfull, fun k hk => hk⟩

theorem handleAck_lastAcked_le (h : handleAck env packet peer = .ok o) :
    peer.lastAcked.toNat <= o.peer.lastAcked.toNat := by
  rw [(handleAck_frame h).2]
  split
  · omega
  · exact Nat.le_refl _

theorem handleAck_blocked (h : handleAck env packet peer = .ok o)
    (hblocked : Blocked peer) :
    Blocked o.peer := by
  have hle := handleAck_lastAcked_le h
  rcases hblocked with ⟨k, hk, hlow⟩
  refine ⟨k, ?_, by omega⟩
  rwa [(handleAck_frame h).1.outOfOrder]

theorem handleAck_jammed (h : handleAck env packet peer = .ok o) (hjammed : Jammed peer) :
    Jammed o.peer := by
  refine hjammed.imp (handleAck_blocked h) ?_
  intro hfull
  rwa [(handleAck_frame h).1.seqNr]

theorem handlePacket_connected (hstate : peer.state = .connected)
    (htype : packet.getType = .data ∨ packet.getType = .ack)
    (h : handlePacket env packet peer = .ok o) : o.peer.state = .connected := by
  rcases htype with htype | htype
  · rw [handlePacket_data hstate htype] at h
    rcases handleData_effect h with ⟨sack, heffect⟩
    exact heffect.state.trans hstate
  · rw [handlePacket_ack hstate htype] at h
    exact (handleAck_frame h).1.state.trans hstate

theorem handlePacket_keeps (hstate : peer.state = .connected)
    (htype : packet.getType = .data ∨ packet.getType = .ack)
    (h : handlePacket env packet peer = .ok o) (hjammed : Jammed peer) :
    Keeps peer o.peer := by
  have hconnected := handlePacket_connected hstate htype h
  rcases htype with htype | htype
  · rw [handlePacket_data hstate htype] at h
    rcases handleData_effect h with ⟨sack, heffect⟩
    have hkept := heffect.jammed hjammed
    exact ⟨hconnected, hkept.1, hkept.2⟩
  · rw [handlePacket_ack hstate htype] at h
    refine ⟨hconnected, handleAck_jammed h hjammed, ?_⟩
    intro k hk
    rwa [(handleAck_frame h).1.outOfOrder]

end Call

section Fill

variable {peer : UtpSocketState} {k : UInt16}

end Fill

/-- The call moves `lastAcked` to the number in front of a stored one, without
its packet being a `Data` packet. -/
def Call.Blocks (c : Call) : Prop :=
  c.packet.getType = .ack ∧ c.packet.ackNr.toNat = c.before.lastAcked.toNat + 1 ∧
    exists k, k ∈ c.before.outOfOrder ∧ k.toNat = c.packet.ackNr.toNat + 1

theorem Call.blocks_iff {c : Call} (hstate : c.before.state = .connected)
    (htype : c.packet.getType = .data ∨ c.packet.getType = .ack)
    (hahead : StoreAhead c.before) : Blocked c.after <-> c.Blocks := by
  have hcompleted := c.completed
  rcases htype with htype | htype
  · rw [handlePacket_data hstate htype] at hcompleted
    rcases handleData_effect hcompleted with ⟨sack, heffect⟩
    have hafter : StoreAhead c.after := heffect.storeAhead hahead
    refine iff_of_false (fun hblocked => not_storeAhead.mpr hblocked hafter) ?_
    intro hblocks
    exact absurd (htype.symm.trans hblocks.1) (by decide)
  · rw [handlePacket_ack hstate htype] at hcompleted
    rcases handleAck_frame hcompleted with ⟨hsame, hlast⟩
    unfold Blocked Call.Blocks
    change c.after.lastAcked = _ at hlast
    change SameReceiving c.after c.before at hsame
    rw [hsame.outOfOrder, hlast]
    constructor
    · intro hblocked
      rcases hblocked with ⟨k, hk, hle⟩
      have hgap := hahead k hk
      split at hle
      · rename_i hnext
        exact ⟨htype, hnext, k, hk, by omega⟩
      · omega
    · intro hblocks
      rcases hblocks with ⟨-, hnext, k, hk, hstored⟩
      rw [if_pos hnext]
      exact ⟨k, hk, by omega⟩

theorem runPackets_blocked {inputs : List (Env × Packet)} {peer last : UtpSocketState}
    {outcomes : List Outcome} (hstate : peer.state = .connected)
    (hinputs : DataAndAcks inputs) (hblocked : Blocked peer)
    (hrun : runPackets inputs peer = .ok (last, outcomes)) : Blocked last := by
  induction inputs generalizing peer outcomes with
  | nil =>
      cases hrun
      exact hblocked
  | cons input inputs ih =>
      rcases runPackets_cons_eq_ok.mp hrun with ⟨o, rest, ho, hrest, -⟩
      have htype := hinputs input (List.mem_cons_self ..)
      have hkeeps := handlePacket_keeps hstate htype ho (Or.inl hblocked)
      refine ih hkeeps.state hinputs.tail ?_ hrest
      rcases htype with htype | htype
      · rw [handlePacket_data hstate htype] at ho
        rcases handleData_effect ho with ⟨sack, heffect⟩
        exact heffect.blocked hblocked
      · rw [handlePacket_ack hstate htype] at ho
        exact handleAck_blocked ho hblocked

/-- A run of `Data` and `Ack` packets that starts behind a gap ends with a
blocked store exactly when one of its `Ack`s has moved `lastAcked` up to a
stored packet. -/
theorem blocked_iff_acked {inputs : List (Env × Packet)} {peer last : UtpSocketState}
    {outcomes : List Outcome} (hstate : peer.state = .connected)
    (hinputs : DataAndAcks inputs) (hahead : StoreAhead peer)
    (hrun : runPackets inputs peer = .ok (last, outcomes)) :
    Blocked last <-> exists c, c ∈ callsOf inputs peer ∧ c.Blocks := by
  induction inputs generalizing peer outcomes with
  | nil =>
      cases hrun
      refine iff_of_false (fun hblocked => not_storeAhead.mpr hblocked hahead) ?_
      intro hcase
      rcases hcase with ⟨c, hc, -⟩
      cases hc
  | cons input inputs ih =>
      rcases runPackets_cons_eq_ok.mp hrun with ⟨o, rest, ho, hrest, -⟩
      rcases callsOf_cons inputs ho with ⟨c, hpacket, rfl, rfl, hcalls⟩
      have htype := hinputs input (List.mem_cons_self ..)
      rw [← hpacket] at htype
      have hfirst := c.blocks_iff hstate htype hahead
      have hnext := handlePacket_connected hstate htype c.completed
      change callsOf (input :: inputs) c.before = _ at hcalls
      rw [hcalls, List.exists_mem_cons_iff]
      by_cases hblocked : Blocked c.after
      · exact iff_of_true (runPackets_blocked hnext hinputs.tail hblocked hrest)
          (Or.inl (hfirst.mp hblocked))
      · rw [ih hnext hinputs.tail (not_not.mp (mt not_storeAhead.mp hblocked)) hrest]
        exact (or_iff_right (mt hfirst.mpr hblocked)).symm

/-- Two stored packets, and `Ack`s up to the number in front of the first one: the store
is blocked, and one of the `Ack`s has done it. -/
theorem blocked_by_ack :
    exists last outcomes,
      runPackets [incoming .data 4 0, incoming .data 6 0, incoming .ack 0 2,
        incoming .ack 0 3] (openPeer (loopback 1)) = .ok (last, outcomes) ∧
      Blocked last ∧ exists c, c ∈ callsOf
        [incoming .data 4 0, incoming .data 6 0, incoming .ack 0 2, incoming .ack 0 3]
        (openPeer (loopback 1)) ∧ c.Blocks := by
  have hrun : (runPackets [incoming .data 4 0, incoming .data 6 0, incoming .ack 0 2,
      incoming .ack 0 3] (openPeer (loopback 1))).toOption.map
        (fun r => (r.1.lastAcked, decide (4 ∈ r.1.outOfOrder))) = some (3, true) := by
    decide +kernel
  rcases Option.map_eq_some_iff.mp hrun with ⟨⟨last, outcomes⟩, hrun, hfacts⟩
  rcases Prod.mk.inj hfacts with ⟨hlast, hstored⟩
  have hrun := toOption_eq_some.mp hrun
  have htypes : DataAndAcks [incoming .data 4 0, incoming .data 6 0, incoming .ack 0 2,
      incoming .ack 0 3] := by
    unfold DataAndAcks
    decide +kernel
  have hblocked : Blocked last :=
    ⟨4, of_decide_eq_true hstored, by rw [show last.lastAcked = 3 from hlast]; decide⟩
  exact ⟨last, outcomes, hrun, hblocked,
    (blocked_iff_acked rfl htypes (storeAhead_of_empty rfl) hrun).mp hblocked⟩

end Utp
