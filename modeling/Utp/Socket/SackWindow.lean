import Utp.Socket.FastRetransmit
import Utp.Socket.ReplyTrip

/-!
# A SACK against a window

The receiver's bitmap is read by the sender, bit by bit, as long as the number
the bit stands for is below the last number of the window.  The bitmap ends at a
multiple of thirty-two numbers, and its padding reads like missing packets.
-/

namespace Utp

open Foundation

/-!
## What the bits say
-/

/-- The stored packets lie behind a gap and within what one SACK can report. -/
def WithinSack (receiver : UtpSocketState) : Prop :=
  forall k, k ∈ receiver.outOfOrder ->
    receiver.lastAcked.toNat + 1 < k.toNat ∧ k.toNat <= receiver.lastAcked.toNat + 2016

/-- The packet acknowledges what the receiver has acknowledged and carries its
bitmap. -/
structure SackOf (receiver : UtpSocketState) (packet : Packet) : Prop where
  ackNr_eq : packet.ackNr = receiver.lastAcked
  hasChain : exists payload,
    packet.HasChain (carriedSack (buildSelectiveAck receiver)) payload

def sackEnd (receiver : UtpSocketState) : Nat :=
  receiver.lastAcked.toNat + (buildSelectiveAck receiver).length * 8

/-- It only depends on the greatest number stored: thirty-two more numbers as
often as it takes to reach that one. -/
def paddedEnd (mark top : UInt16) : Nat :=
  mark.toNat + 32 * ((top.toNat - mark.toNat + 31) / 32)

section Bits

variable {receiver : UtpSocketState} {s top : UInt16} {q : Packet} {value : Bool}

theorem sackEnd_of_top (htop : lastEntry receiver.outOfOrder = some (top, q)) :
    sackEnd receiver = paddedEnd receiver.lastAcked top := by
  rw [sackEnd, length_buildSelectiveAck htop, paddedEnd]
  omega

theorem sackEnd_of_empty (h : receiver.outOfOrder = ∅) :
    sackEnd receiver = receiver.lastAcked.toNat := by
  rw [sackEnd, buildSelectiveAck_of_empty h]
  rfl

theorem length_sack_lt (h : WithinSack receiver) :
    (buildSelectiveAck receiver).length < 256 := by
  have hle : (buildSelectiveAck receiver).length <= 4 * 63 :=
    length_buildSelectiveAck_le.mpr fun k hk => (h k hk).2
  omega

theorem reports_carriedSack :
    Reports receiver.lastAcked (carriedSack (buildSelectiveAck receiver)) value s <->
      receiver.lastAcked.toNat < s.toNat ∧ s.toNat <= sackEnd receiver ∧
        (s ∈ receiver.outOfOrder <-> value = true) := by
  have hbit : forall i, s.toNat = receiver.lastAcked.toNat + 1 + i ->
      (bitAt (buildSelectiveAck receiver) i = value <->
        (s ∈ receiver.outOfOrder <-> value = true)) := by
    intro i hs
    rw [← bitAt_of_number hs]
    cases bitAt (buildSelectiveAck receiver) i <;> cases value <;> simp
  unfold carriedSack sackEnd
  by_cases hempty : (buildSelectiveAck receiver).length = 0
  · rw [if_pos hempty, hempty]
    constructor
    · intro h
      rcases h with ⟨e, he, -⟩
      cases he
    · intro h
      omega
  · rw [if_neg hempty]
    constructor
    · intro h
      rcases h with ⟨e, he, -, i, hi, hs⟩
      cases List.mem_singleton.mp he
      rw [SackNumber, Nat.zero_add] at hs
      rcases getElem?_bits.mp hi with ⟨hlt, hget⟩
      change i < (buildSelectiveAck receiver).length * 8 at hlt
      exact ⟨by omega, by omega, (hbit i hs).mp hget⟩
    · intro h
      rcases h with ⟨hlow, hhigh, hvalue⟩
      have hs : s.toNat = receiver.lastAcked.toNat + 1 +
          (s.toNat - receiver.lastAcked.toNat - 1) := by omega
      refine ⟨_, List.mem_singleton_self _, rfl,
        s.toNat - receiver.lastAcked.toNat - 1, ?_, ?_⟩
      · refine getElem?_bits.mpr ⟨?_, (hbit _ hs).mpr hvalue⟩
        change _ < (buildSelectiveAck receiver).length * 8
        omega
      · rw [SackNumber, Nat.zero_add]
        exact hs

theorem mem_le_sackEnd (h : s ∈ receiver.outOfOrder) : s.toNat <= sackEnd receiver := by
  have hle := length_buildSelectiveAck_le.mp
    (show (buildSelectiveAck receiver).length <=
      4 * (((buildSelectiveAck receiver).length + 3) / 4) by omega) s h
  have hmod := length_buildSelectiveAck_mod receiver
  rw [sackEnd]
  omega

theorem sackOf_withSack {plain packet : Packet} {payload : List UInt8}
    (h : WithinSack receiver) (hplain : plain.HasChain [] payload)
    (hackNr : plain.ackNr = receiver.lastAcked)
    (hpacket : withSack plain (buildSelectiveAck receiver) = .ok packet) :
    SackOf receiver packet ∧ packet.getType = plain.getType := by
  rcases withSack_plain hplain sackLength_buildSelectiveAck with
    ⟨p, hp, htype, hfield, -⟩
  cases hp.symm.trans hpacket
  refine ⟨⟨?_, payload, withSack_chain hplain (length_sack_lt h) hpacket⟩, htype⟩
  rw [← hackNr, Packet.ackNr, hfield]
  rfl

end Bits

/-!
## What is found
-/

theorem scanBits_increasing {ackNr last : UInt16} {bits : List Bool} {idx : Nat}
    {found found' : Found} (hidx : idx + bits.length <= 65536)
    (h : scanBits ackNr last bits idx found = .ok found')
    (hsorted : found.result.Pairwise (· < ·))
    (hlow : forall s, s ∈ found.result -> s.toNat < ackNr.toNat + 1 + idx) :
    found'.result.Pairwise (· < ·) := by
  induction bits generalizing idx found with
  | nil =>
      cases h
      exact hsorted
  | cons received bits ih =>
      rw [List.length_cons] at hidx
      rcases scanBits_cons (by omega) h with ⟨seqNr, hnumber, h⟩
      rw [SackNumber] at hnumber
      refine ih (by omega) h ?_ ?_
      · unfold Found.note
        split
        · split
          · exact hsorted
          · refine List.pairwise_append.mpr ⟨hsorted, List.pairwise_singleton _ _, ?_⟩
            intro s hs t ht
            cases List.mem_singleton.mp ht
            have hlt := hlow s hs
            exact UInt16.lt_iff_toNat_lt.mpr (by omega)
        · exact hsorted
      · intro s hs
        rcases mem_result_note.mp hs with hs | ⟨-, -, rfl⟩
        · have hlt := hlow s hs
          omega
        · omega

section Found

variable {receiver peer peer' : UtpSocketState} {packet : Packet} {lost : List UInt16}

theorem SackOf.increasing (h : SackOf receiver packet)
    (hlost : getLostSeqNr packet peer = .ok (lost, peer')) : lost.Pairwise (· < ·) := by
  rcases h.hasChain with ⟨payload, hchain⟩
  have hshort := fun e he => Chain.length_data hchain (e := e) he
  rcases bind_eq_ok.mp hlost with ⟨exts, hexts, hlost⟩
  cases hchain.extensions.symm.trans hexts
  rcases bind_eq_ok.mp hlost with ⟨found, hfound, hlost⟩
  cases hlost
  unfold carriedSack at hfound hshort
  split at hfound
  · cases hfound
    exact List.Pairwise.nil
  · rename_i hsome
    rw [if_neg hsome] at hshort
    have hlength := hshort _ (List.mem_singleton_self _)
    rw [scanExtensions, if_pos rfl] at hfound
    split at hfound
    · simp only [Extension.iter_eq] at hfound
      rcases bind_eq_ok.mp hfound with ⟨received, hreceived, hfound⟩
      cases hreceived
      rcases bind_eq_ok.mp hfound with ⟨mid, hmid, hfound⟩
      cases hfound
      refine scanBits_increasing ?_ hmid List.Pairwise.nil (fun s hs => by cases hs)
      rw [length_bits]
      change (buildSelectiveAck receiver).length < 256 at hlength
      omega
    · cases hfound
      exact List.Pairwise.nil

theorem SackOf.isOk (h : SackOf receiver packet) :
    (exists out, getLostSeqNr packet peer = .ok out) <->
      (peer.sentWindow ≠ ∅ -> receiver.outOfOrder ≠ ∅ -> sackEnd receiver <= 65535) := by
  rcases h.hasChain with ⟨payload, hchain⟩
  rw [getLostSeqNr_isOk hchain, h.ackNr_eq]
  apply forall_congr'
  intro _
  unfold carriedSack sackEnd
  constructor
  · intro hall hstored
    by_cases hempty : (buildSelectiveAck receiver).length = 0
    · have hbound := receiver.lastAcked.toNat_lt
      omega
    · rw [if_neg hempty] at hall
      exact hall ⟨.selectiveAck, buildSelectiveAck receiver⟩
        (List.mem_singleton_self _) rfl
        (fun hnil => hempty (List.length_eq_zero_iff.mpr hnil))
  · intro hfit e he _ _
    split at he
    · cases he
    · rename_i hsome
      cases List.mem_singleton.mp he
      refine hfit ?_
      intro hempty
      rw [buildSelectiveAck_of_empty hempty] at hsome
      exact hsome rfl

theorem SackOf.mem_lost (h : SackOf receiver packet)
    (hlost : getLostSeqNr packet peer = .ok (lost, peer')) (s : UInt16) :
    s ∈ lost <-> BelowLast peer s ∧ receiver.lastAcked.toNat < s.toNat ∧
      s.toNat <= sackEnd receiver ∧ s ∉ receiver.outOfOrder := by
  rcases h.hasChain with ⟨payload, hchain⟩
  rw [(getLostSeqNr_eq_ok hchain hlost).lost_iff, h.ackNr_eq, reports_carriedSack]
  simp

theorem SackOf.removed_iff (h : SackOf receiver packet) (hwithin : WithinSack receiver)
    (hlost : getLostSeqNr packet peer = .ok (lost, peer')) {k : UInt16}
    (hk : k ∈ peer.sentWindow) :
    k ∉ peer'.sentWindow <-> BelowLast peer k ∧ k ∈ receiver.outOfOrder := by
  rcases h.hasChain with ⟨payload, hchain⟩
  rcases (getLostSeqNr_eq_ok hchain hlost).window with ⟨acked, rfl, hacked⟩
  have hreported : Reports packet.ackNr
    (carriedSack (buildSelectiveAck receiver)) true k <->
      k ∈ receiver.outOfOrder := by
    rw [h.ackNr_eq, reports_carriedSack]
    constructor
    · intro hcase
      exact hcase.2.2.mpr rfl
    · intro hmem
      have hgap := (hwithin k hmem).1
      exact ⟨by omega, mem_le_sackEnd hmem, iff_of_true hmem rfl⟩
  rcases mem_iff_getElem?.mp hk with ⟨v, hv⟩
  rw [← hreported, ← hacked, mem_iff_getElem?]
  simp only [getElem?_eraseAll]
  by_cases hin : k ∈ acked
  · simp [hin]
  · simp [hin, hv]

end Found

/-!
## What should be found
-/

def RemovesReceived (receiver : UtpSocketState) (packet : Packet)
    (peer : UtpSocketState) : Prop :=
  exists lost peer', getLostSeqNr packet peer = .ok (lost, peer') ∧
    forall k, k ∈ peer.sentWindow -> (k ∉ peer'.sentWindow <-> k ∈ receiver.outOfOrder)

/-- A number that is missing in front of a packet the receiver holds. -/
def Hole (receiver : UtpSocketState) (s : UInt16) : Prop :=
  receiver.lastAcked.toNat < s.toNat ∧ s ∉ receiver.outOfOrder ∧
    exists k, k ∈ receiver.outOfOrder ∧ s.toNat < k.toNat

section LastNumber

variable {receiver peer : UtpSocketState} {packet : Packet} {top last : UInt16}
  {q w : Packet}

theorem belowLast_of_mem {k : UInt16} (hk : k ∈ peer.sentWindow)
    (hlast : lastEntry peer.sentWindow = some (last, w)) (hne : k ≠ last) :
    BelowLast peer k := by
  refine belowLast_iff.mpr ⟨last, mem_of_lastEntry hlast, UInt16.lt_iff_toNat_lt.mpr ?_⟩
  have hle := le_lastEntry hlast hk
  have hneq : k.toNat ≠ last.toNat := fun heq => hne (UInt16.toNat_inj.mp heq)
  omega

/-- A SACK takes out of the window what has been received exactly when the last
number of the window has not been received and every bit has a number. -/
theorem sack_removes_iff {plain : Packet} {payload : List UInt8}
    (hwithin : WithinSack receiver) (hplain : plain.HasChain [] payload)
    (hackNr : plain.ackNr = receiver.lastAcked)
    (hpacket : withSack plain (buildSelectiveAck receiver) = .ok packet) :
    RemovesReceived receiver packet peer <->
      forall top q last w, lastEntry receiver.outOfOrder = some (top, q) ->
        lastEntry peer.sentWindow = some (last, w) ->
        last ∉ receiver.outOfOrder ∧ paddedEnd receiver.lastAcked top <= 65535 := by
  have hsack := (sackOf_withSack hwithin hplain hackNr hpacket).1
  constructor
  · intro hremoves top q last w htop hlast
    rcases hremoves with ⟨lost, peer', hlost, hall⟩
    constructor
    · intro hmem
      -- the last number stays in the window whatever the bits say
      have hin := mem_of_lastEntry hlast
      have hgone := (hall last hin).mpr hmem
      rcases ((hsack.removed_iff hwithin hlost hin).mp hgone).1 with
        ⟨last', w', hlast', hlt⟩
      cases hlast.symm.trans hlast'
      exact absurd (UInt16.lt_iff_toNat_lt.mp hlt) (Nat.lt_irrefl _)
    · rw [← sackEnd_of_top htop]
      exact hsack.isOk.mp ⟨_, hlost⟩ (ne_empty_of_lastEntry hlast)
        (ne_empty_of_lastEntry htop)
  · intro hcond
    have hok : exists out, getLostSeqNr packet peer = .ok out := by
      refine hsack.isOk.mpr ?_
      intro hwindow hstored
      rcases lastEntry_exists hwindow with ⟨last, w, hlast⟩
      rcases lastEntry_exists hstored with ⟨top, q, htop⟩
      rw [sackEnd_of_top htop]
      exact (hcond top q last w htop hlast).2
    rcases hok with ⟨⟨lost, peer'⟩, hlost⟩
    refine ⟨lost, peer', hlost, ?_⟩
    intro k hk
    rw [hsack.removed_iff hwithin hlost hk, and_iff_right_iff_imp]
    intro hmem
    rcases lastEntry_exists (ne_empty_iff.mpr ⟨k, hk⟩) with ⟨last, w, hlast⟩
    rcases lastEntry_exists (ne_empty_iff.mpr ⟨k, hmem⟩) with ⟨top, q, htop⟩
    refine belowLast_of_mem hk hlast ?_
    intro heq
    rw [heq] at hmem
    exact (hcond top q last w htop hlast).1 hmem

end LastNumber

def holding (n : UInt16) : UtpSocketState :=
  { answeredPeer with outOfOrder := (∅ : PacketMap).insert n (barePacket .data n 0) }

theorem mem_holding {n k : UInt16} : k ∈ (holding n).outOfOrder <-> k = n := by
  change k ∈ (∅ : PacketMap).insert n (barePacket .data n 0) <-> _
  rw [Std.ExtTreeMap.mem_insert, Std.compare_eq_iff_eq]
  simp [eq_comm]

theorem withinSack_holding {n : UInt16} (hlow : 2 < n.toNat) (hhigh : n.toNat <= 2017) :
    WithinSack (holding n) := by
  intro k hk
  rw [mem_holding.mp hk]
  change 1 + 1 < n.toNat ∧ n.toNat <= 1 + 2016
  omega

def plainAck (n : UInt16) : Packet :=
  prepareReply (healthyEnv 8) (barePacket .data n 0) .ack 1 1

theorem sackedAck_exists (n : UInt16) :
    exists packet, withSack (plainAck n)
      (buildSelectiveAck (holding n)) = .ok packet := by
  rcases withSack_plain
    (hasChain_prepareReply (healthyEnv 8) (barePacket .data n 0) .ack 1 1)
    (@sackLength_buildSelectiveAck (holding n)) with ⟨packet, hpacket, -⟩
  exact ⟨packet, hpacket⟩

theorem mem_windowPeer {s : UInt16} :
    s ∈ windowPeer.sentWindow <-> s = 2 ∨ s = 3 ∨ s = 4 ∨ s = 5 := by
  have hkeys : windowPeer.sentWindow.toList.map Prod.fst = [2, 3, 4, 5] := by
    decide +kernel
  rw [← mem_keys_toList, hkeys]
  simp

theorem lastEntry_windowPeer {last : UInt16} {w : Packet}
    (h : lastEntry windowPeer.sentWindow = some (last, w)) : last = 5 := by
  have hfive : 5 ∈ windowPeer.sentWindow := mem_windowPeer.mpr (by simp)
  have hle : 5 <= last.toNat := le_lastEntry h hfive
  rcases mem_windowPeer.mp (mem_of_lastEntry h) with rfl | rfl | rfl | rfl
  · exact absurd hle (by decide)
  · exact absurd hle (by decide)
  · exact absurd hle (by decide)
  · rfl

/-- The third packet of a window of four is taken out of it. -/
theorem sack_removes_inner :
    exists packet,
      withSack (plainAck 3) (buildSelectiveAck (holding 3)) = .ok packet ∧
      RemovesReceived (holding 3) packet windowPeer := by
  rcases sackedAck_exists 3 with ⟨packet, hpacket⟩
  refine ⟨packet, hpacket, (sack_removes_iff (withinSack_holding (by decide) (by decide))
    (hasChain_prepareReply ..) (ackNr_prepareReply ..) hpacket).mpr ?_⟩
  intro top q last w htop hlast
  rw [mem_holding.mp (mem_of_lastEntry htop), lastEntry_windowPeer hlast, mem_holding]
  exact ⟨by decide, by decide⟩

/-- The last packet of the window stays in it although it has been received. -/
theorem sack_keeps_last :
    WithinSack (holding 5) ∧
    exists packet,
      withSack (plainAck 5) (buildSelectiveAck (holding 5)) = .ok packet ∧
      packet.ackNr = (holding 5).lastAcked ∧
      ¬ RemovesReceived (holding 5) packet windowPeer := by
  have hwithin : WithinSack (holding 5) := withinSack_holding (by decide) (by decide)
  rcases sackedAck_exists 5 with ⟨packet, hpacket⟩
  have hsack := (sackOf_withSack hwithin (hasChain_prepareReply ..)
    (ackNr_prepareReply ..) hpacket).1
  refine ⟨hwithin, packet, hpacket, hsack.ackNr_eq, ?_⟩
  intro hremoves
  rcases hremoves with ⟨lost, peer', hlost, hall⟩
  have hin : 5 ∈ windowPeer.sentWindow := mem_windowPeer.mpr (by simp)
  have hgone := (hall 5 hin).mpr (mem_holding.mpr rfl)
  rcases ((hsack.removed_iff hwithin hlost hin).mp hgone).1 with ⟨last, w, hlast, hlt⟩
  rw [lastEntry_windowPeer hlast] at hlt
  exact absurd hlt (by decide)

/-!
## The lost numbers
-/

/-- The bitmap ends at the greatest number stored, or the window ends before the
padding matters; and every bit has a number. -/
def PaddingUnread (receiver peer : UtpSocketState) : Prop :=
  forall top q, lastEntry receiver.outOfOrder = some (top, q) ->
    (top.toNat - receiver.lastAcked.toNat) % 32 = 0 ∨
      ((forall k, k ∈ peer.sentWindow -> k.toNat <= top.toNat + 1) ∧
        paddedEnd receiver.lastAcked top <= 65535)

/-- Every number from the mark to a stored packet is in the window. -/
def CoversStored (receiver peer : UtpSocketState) : Prop :=
  forall k, k ∈ receiver.outOfOrder -> forall s : UInt16,
    receiver.lastAcked.toNat < s.toNat -> s.toNat <= k.toNat -> s ∈ peer.sentWindow

/-- The lost numbers are the holes, in increasing order, and when the packet is
handled nothing but packets for holes is sent again. -/
structure HolesOnly (receiver : UtpSocketState) (packet : Packet)
    (peer : UtpSocketState) : Prop where
  lost : exists lost peer', getLostSeqNr packet peer = .ok (lost, peer') ∧
    lost.Pairwise (· < ·) ∧ forall s, s ∈ lost <-> Hole receiver s
  resent : forall env o, peer.state = .connected ∨ peer.state = .finSent ->
    handlePacket env packet peer = .ok o -> forall d, d ∈ o.sent ->
      exists s, Hole receiver s ∧ peer.sentWindow[s]? = some d.1
  retransmitted : forall env o reply, peer.state = .connected ∨ peer.state = .finSent ->
    handlePacket env packet peer = .ok o -> receiver.outOfOrder ≠ ∅ ->
    o.result = .ok (some reply) ->
      exists s, Hole receiver s ∧ peer.sentWindow[s]? = some reply

section Holes

variable {receiver peer peer' : UtpSocketState} {packet : Packet} {s : UInt16}

theorem BelowLast.mono (hwindow : forall k, k ∈ peer'.sentWindow -> k ∈ peer.sentWindow)
    (h : BelowLast peer' s) : BelowLast peer s := by
  rcases belowLast_iff.mp h with ⟨k, hk, hlt⟩
  exact belowLast_iff.mpr ⟨k, hwindow k hk, hlt⟩

theorem hole_of_lost (hunread : PaddingUnread receiver peer) (hbelow : BelowLast peer s)
    (hlow : receiver.lastAcked.toNat < s.toNat) (hhigh : s.toNat <= sackEnd receiver)
    (hmissing : s ∉ receiver.outOfOrder) : Hole receiver s := by
  have hstored : receiver.outOfOrder ≠ ∅ := by
    intro hempty
    rw [sackEnd_of_empty hempty] at hhigh
    omega
  rcases lastEntry_exists hstored with ⟨top, q, htop⟩
  have hmem := mem_of_lastEntry htop
  have hne : s.toNat ≠ top.toNat := by
    intro heq
    rw [UInt16.toNat_inj.mp heq] at hmissing
    exact hmissing hmem
  refine ⟨hlow, hmissing, top, hmem, ?_⟩
  rcases hunread top q htop with haligned | ⟨hwindow, -⟩
  · rw [sackEnd_of_top htop, paddedEnd] at hhigh
    omega
  · rcases belowLast_iff.mp hbelow with ⟨k, hk, hlt⟩
    have hle := hwindow k hk
    have hlt := UInt16.lt_iff_toNat_lt.mp hlt
    omega

theorem Hole.belowLast (h : Hole receiver s) (hcovers : CoversStored receiver peer) :
    BelowLast peer s := by
  rcases h with ⟨hlow, -, k, hk, hlt⟩
  refine belowLast_iff.mpr ⟨k, hcovers k hk k (by omega) (Nat.le_refl _), ?_⟩
  exact UInt16.lt_iff_toNat_lt.mpr hlt

theorem Hole.le_sackEnd (h : Hole receiver s) : s.toNat <= sackEnd receiver := by
  rcases h with ⟨-, -, k, hk, hlt⟩
  have hle := mem_le_sackEnd hk
  omega

theorem hole_behind_mark (hwithin : WithinSack receiver)
    (hstored : receiver.outOfOrder ≠ ∅)
    (hs : s.toNat = receiver.lastAcked.toNat + 1) : Hole receiver s := by
  rcases ne_empty_iff.mp hstored with ⟨k, hk⟩
  refine ⟨by omega, ?_, k, hk, ?_⟩
  · intro hmem
    have hgap := (hwithin s hmem).1
    omega
  · have hgap := (hwithin k hk).1
    omega

theorem SackOf.resent (h : SackOf receiver packet)
    (hunread : PaddingUnread receiver peer) {env : Env} {o : Outcome}
    (ho : handleAck env packet peer = .ok o) {d : Datagram} (hd : d ∈ o.sent) :
    exists s, Hole receiver s ∧ peer.sentWindow[s]? = some d.1 := by
  rcases handleAck_eq_ok ho with
    ⟨counted, reply, lost, status, hcount, -, hlost, hsent, -⟩
  have hkept : forall (k : UInt16) v, counted.sentWindow[k]? = some v ->
      peer.sentWindow[k]? = some v := by
    intro k v hv
    rw [hcount.sentWindow] at hv
    split at hv
    · exact erase_kept hv
    · exact hv
  rcases resendLost_mem hsent hd with hnone | ⟨s, hs, hv⟩
  · cases hnone
  · rcases (h.mem_lost hlost s).mp hs with ⟨hbelow, hlow, hhigh, hmissing⟩
    refine ⟨s, hole_of_lost hunread (hbelow.mono ?_) hlow hhigh hmissing,
      hkept s d.1 (getLostSeqNr_kept hlost hv)⟩
    intro k hk
    rcases mem_iff_getElem?.mp hk with ⟨v, hv⟩
    exact mem_iff_getElem?.mpr ⟨v, hkept k v hv⟩

theorem SackOf.paddingUnread (h : SackOf receiver packet) (hwithin : WithinSack receiver)
    (hcovers : CoversStored receiver peer) {lost : List UInt16}
    (hlost : getLostSeqNr packet peer = .ok (lost, peer'))
    (hall : forall s, s ∈ lost -> Hole receiver s) : PaddingUnread receiver peer := by
  intro top q htop
  have hmem := mem_of_lastEntry htop
  have hgap := (hwithin top hmem).1
  have hin : top ∈ peer.sentWindow := hcovers top hmem top (by omega) (Nat.le_refl _)
  have hend := sackEnd_of_top htop
  by_cases haligned : (top.toNat - receiver.lastAcked.toNat) % 32 = 0
  · exact Or.inl haligned
  · refine Or.inr ⟨?_, ?_⟩
    · -- otherwise the first padding bit stands for a number of the window
      intro k hk
      by_contra hfar
      have hbound := k.toNat_lt
      have hnext : (top + 1).toNat = top.toNat + 1 := by
        rw [UInt16.toNat_add, UInt16.toNat_one]
        omega
      have hpadding : top + 1 ∈ lost := by
        refine (h.mem_lost hlost _).mpr ⟨?_, by omega, ?_, ?_⟩
        · refine belowLast_iff.mpr ⟨k, hk, UInt16.lt_iff_toNat_lt.mpr ?_⟩
          omega
        · rw [hend, paddedEnd]
          omega
        · intro hstored
          have hle := le_lastEntry htop hstored
          omega
      rcases hall _ hpadding with ⟨-, -, k', hk', hlt⟩
      have hle := le_lastEntry htop hk'
      omega
    · rw [← hend]
      exact h.isOk.mp ⟨_, hlost⟩ (ne_empty_iff.mpr ⟨top, hin⟩)
        (ne_empty_of_lastEntry htop)

theorem SackOf.lost_of_unread (h : SackOf receiver packet) (hwithin : WithinSack receiver)
    (hcovers : CoversStored receiver peer) (hunread : PaddingUnread receiver peer) :
    exists lost peer', getLostSeqNr packet peer = .ok (lost, peer') ∧
      lost.Pairwise (· < ·) ∧ forall s, s ∈ lost <-> Hole receiver s := by
  have hok : exists out, getLostSeqNr packet peer = .ok out := by
    refine h.isOk.mpr ?_
    intro _ hstored
    rcases lastEntry_exists hstored with ⟨top, q, htop⟩
    have hbound := top.toNat_lt
    have hgap := (hwithin top (mem_of_lastEntry htop)).1
    rw [sackEnd_of_top htop]
    rcases hunread top q htop with haligned | ⟨-, hfit⟩
    · rw [paddedEnd]
      omega
    · exact hfit
  rcases hok with ⟨⟨lost, peer'⟩, hlost⟩
  refine ⟨lost, peer', hlost, h.increasing hlost, ?_⟩
  intro s
  rw [h.mem_lost hlost]
  constructor
  · intro hcase
    rcases hcase with ⟨hbelow, hlow, hhigh, hmissing⟩
    exact hole_of_lost hunread hbelow hlow hhigh hmissing
  · intro hhole
    exact ⟨hhole.belowLast hcovers, hhole.1, hhole.le_sackEnd, hhole.2.1⟩

/-- Over a window that reaches all that is stored, the numbers declared lost are
the holes exactly when no padding is read. -/
theorem holesOnly_iff {plain : Packet} {payload : List UInt8}
    (hwithin : WithinSack receiver) (hcovers : CoversStored receiver peer)
    (hplain : plain.HasChain [] payload) (htype : plain.getType = .ack)
    (hackNr : plain.ackNr = receiver.lastAcked)
    (hpacket : withSack plain (buildSelectiveAck receiver) = .ok packet) :
    HolesOnly receiver packet peer <-> PaddingUnread receiver peer := by
  rcases sackOf_withSack hwithin hplain hackNr hpacket with ⟨hsack, hsame⟩
  have hack : packet.getType = .ack := hsame.trans htype
  constructor
  · intro hholes
    rcases hholes.lost with ⟨lost, peer', hlost, -, hall⟩
    exact hsack.paddingUnread hwithin hcovers hlost fun s hs => (hall s).mp hs
  · intro hunread
    refine
      { lost := hsack.lost_of_unread hwithin hcovers hunread
        resent := ?_
        retransmitted := ?_ }
    · intro env o hstate ho d hd
      rw [handlePacket_ack_open hstate hack] at ho
      exact hsack.resent hunread ho hd
    · intro env o reply hstate ho hstored hreply
      rw [handlePacket_ack_open hstate hack] at ho
      rcases ((handleAck_reply ho).1 hreply).2 with ⟨s, hs, hv⟩
      rw [hsack.ackNr_eq] at hs
      exact ⟨s, hole_behind_mark hwithin hstored hs, hv⟩

end Holes

theorem coversStored_holding {n : UInt16} (hn : n.toNat <= 5) :
    CoversStored (holding n) windowPeer := by
  intro k hk s hlow hhigh
  rw [mem_holding.mp hk] at hhigh
  change 1 < s.toNat at hlow
  rw [mem_windowPeer]
  simp only [← UInt16.toNat_inj]
  change s.toNat = 2 ∨ s.toNat = 3 ∨ s.toNat = 4 ∨ s.toNat = 5
  omega

/-- A window that ends one behind the only packet stored: the two numbers in
front of that are lost, and nothing else. -/
theorem holes_up_to_window :
    exists packet,
      withSack (plainAck 4) (buildSelectiveAck (holding 4)) = .ok packet ∧
      HolesOnly (holding 4) packet windowPeer := by
  rcases sackedAck_exists 4 with ⟨packet, hpacket⟩
  refine ⟨packet, hpacket, (holesOnly_iff (withinSack_holding (by decide) (by decide))
    (coversStored_holding (by decide)) (hasChain_prepareReply ..)
    (getType_prepareReply ..) (ackNr_prepareReply ..) hpacket).mpr ?_⟩
  intro top q htop
  rw [mem_holding.mp (mem_of_lastEntry htop)]
  refine Or.inr ⟨?_, by decide⟩
  intro k hk
  rcases mem_windowPeer.mp hk with rfl | rfl | rfl | rfl <;> decide

/-- With two more packets in flight behind the one stored, the first of them is
declared lost. -/
theorem padding_declared_lost :
    WithinSack (holding 3) ∧ CoversStored (holding 3) windowPeer ∧
    exists packet,
      withSack (plainAck 3) (buildSelectiveAck (holding 3)) = .ok packet ∧
      packet.ackNr = (holding 3).lastAcked ∧
      ¬ HolesOnly (holding 3) packet windowPeer := by
  have hwithin : WithinSack (holding 3) := withinSack_holding (by decide) (by decide)
  rcases sackedAck_exists 3 with ⟨packet, hpacket⟩
  have hsack := (sackOf_withSack hwithin (hasChain_prepareReply ..)
    (ackNr_prepareReply ..) hpacket).1
  refine ⟨hwithin, coversStored_holding (by decide), packet, hpacket, hsack.ackNr_eq, ?_⟩
  intro hholes
  rcases hholes.lost with ⟨lost, peer', hlost, -, hall⟩
  have hmissing : 4 ∉ (holding 3).outOfOrder := by
    rw [mem_holding]
    decide
  have hend : 4 <= sackEnd (holding 3) := by
    rcases lastEntry_exists (ne_empty_iff.mpr ⟨3, mem_holding.mpr rfl⟩) with
      ⟨top, q, htop⟩
    rw [sackEnd_of_top htop, mem_holding.mp (mem_of_lastEntry htop)]
    decide
  have hbelow : BelowLast windowPeer 4 :=
    belowLast_iff.mpr ⟨5, mem_windowPeer.mpr (by simp), by decide⟩
  have hin : 4 ∈ lost := (hsack.mem_lost hlost 4).mpr ⟨hbelow, by decide, hend, hmissing⟩
  rcases ((hall 4).mp hin).2.2 with ⟨k, hk, hlt⟩
  rw [mem_holding.mp hk] at hlt
  exact absurd hlt (by decide)

end Utp
