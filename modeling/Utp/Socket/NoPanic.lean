import Utp.Socket.AckArm
import Utp.Socket.DataArm
import Utp.Socket.SendPackets

/-!
# When handling a packet returns

For every arm of `handle_packet` the exact condition, on the packet and on the
state it meets, under which the call does not abort.  A run of `connect`,
`send_packets`, and `handle_packet` steps completes exactly when every packet
it handles meets that condition.
-/

namespace Utp

open Foundation

structure AcceptedPacket where
  packet : Packet
  accepted : Packet.tryFrom packet.bytes = .ok packet

/-!
## The conditions
-/

/-- The number is in the window and is not the one this `Ack` takes out of it. -/
def Remains (packet : Packet) (peer : UtpSocketState) (k : UInt16) : Prop :=
  k ∈ peer.sentWindow ∧
    ¬ (packet.ackNr.toNat = peer.lastAcked.toNat + 1 ∧ k = packet.ackNr)

structure AckSafe (packet : Packet) (exts : List Extension) (peer : UtpSocketState) :
    Prop where
  /-- There is room to count a repeated acknowledgement. -/
  counter : packet.ackNr = peer.lastAcked -> peer.duplicateAckCount.toNat < 65535
  /-- The number behind the last acknowledged one exists. -/
  mark : packet.ackNr ≠ peer.lastAcked -> peer.lastAcked.toNat < 65535
  /-- So does the number behind the acknowledged one when it is looked up. -/
  retransmit : (packet.ackNr = peer.lastAcked ∧ 2 <= peer.duplicateAckCount.toNat) ∨
    (packet.ackNr ≠ peer.lastAcked ∧
      packet.ackNr.toNat ≠ peer.lastAcked.toNat + 1 ∧
      3 <= peer.duplicateAckCount.toNat) -> packet.ackNr.toNat < 65535
  /-- Every bit of a SACK that is read stands for a sequence number. -/
  sack : forall k, Remains packet peer k -> forall e, e ∈ exts ->
    e.ty = .selectiveAck -> packet.ackNr.toNat + e.data.length * 8 <= 65535
  /-- A peer without an address has nothing to send again. -/
  address : peer.connectedTo = none -> forall s k, Remains packet peer s ->
    Remains packet peer k -> s < k -> Reports packet.ackNr exts false s ->
      Reports packet.ackNr exts true s

theorem ackEffect_exists (env : Env) {packet : Packet} {peer : UtpSocketState} :
    (exists counted, AckEffect env packet peer counted) <->
      (packet.ackNr = peer.lastAcked -> peer.duplicateAckCount.toNat < 65535) ∧
      (packet.ackNr ≠ peer.lastAcked -> peer.lastAcked.toNat < 65535) := by
  have hbound := packet.ackNr.toNat_lt
  constructor
  · intro heffect
    rcases heffect with ⟨counted, heffect⟩
    cases heffect with
    | repeated heq hcount => exact ⟨fun _ => hcount, fun hne => absurd heq hne⟩
    | next hnext =>
        refine ⟨?_, fun _ => by omega⟩
        intro heq
        rw [heq] at hnext
        omega
    | ignored hne hnotNext hlast =>
        exact ⟨fun heq => absurd heq hne, fun _ => hlast⟩
  · intro hroom
    by_cases heq : packet.ackNr = peer.lastAcked
    · exact ⟨_, .repeated heq (hroom.1 heq)⟩
    · by_cases hnext : packet.ackNr.toNat = peer.lastAcked.toNat + 1
      · exact ⟨_, .next hnext⟩
      · exact ⟨_, .ignored heq hnext (hroom.2 heq)⟩

theorem AckEffect.window {env : Env} {packet : Packet} {peer counted : UtpSocketState}
    (h : AckEffect env packet peer counted) (k : UInt16) :
    k ∈ counted.sentWindow <-> Remains packet peer k := by
  unfold Remains
  cases h with
  | repeated heq =>
      have hne : packet.ackNr.toNat ≠ peer.lastAcked.toNat + 1 := by
        rw [heq]
        omega
      simp [hne]
  | next hnext =>
      rw [mem_iff_getElem?, mem_iff_getElem?]
      simp only [getElem?_erase_eq]
      by_cases hk : packet.ackNr = k
      · subst hk
        simp [hnext]
      · simp [hk, Ne.symm hk]
  | ignored hne hnotNext =>
      simp [hnotNext]

theorem AckEffect.retransmits {env : Env} {packet : Packet}
    {peer counted : UtpSocketState} (h : AckEffect env packet peer counted) :
    3 <= counted.duplicateAckCount.toNat <->
      (packet.ackNr = peer.lastAcked ∧ 2 <= peer.duplicateAckCount.toNat) ∨
      (packet.ackNr ≠ peer.lastAcked ∧
        packet.ackNr.toNat ≠ peer.lastAcked.toNat + 1 ∧
        3 <= peer.duplicateAckCount.toNat) := by
  cases h with
  | repeated heq hcount =>
      have hsum : (peer.duplicateAckCount + 1).toNat =
          peer.duplicateAckCount.toNat + 1 := by
        rw [UInt16.toNat_add, UInt16.toNat_one]
        omega
      simp only [hsum, heq]
      simp
  | next hnext =>
      have hne : packet.ackNr ≠ peer.lastAcked := by
        intro heq
        rw [heq] at hnext
        omega
      simp [hne, hnext]
  | ignored hne hnotNext =>
      simp [hne, hnotNext]

theorem AckEffect.connectedTo {env : Env} {packet : Packet}
    {peer counted : UtpSocketState} (h : AckEffect env packet peer counted) :
    counted.connectedTo = peer.connectedTo := by
  cases h <;> rfl

theorem LostEffect.connectedTo {packet : Packet} {exts : List Extension}
    {counted peer' : UtpSocketState} {lost : List UInt16}
    (h : LostEffect packet exts counted lost peer') :
    peer'.connectedTo = counted.connectedTo := by
  rcases h.window with ⟨acked, rfl, -⟩
  rfl

theorem LostEffect.address {packet : Packet} {exts : List Extension}
    {counted peer' : UtpSocketState} {lost : List UInt16}
    (h : LostEffect packet exts counted lost peer') :
    (forall s, s ∈ lost -> peer'.sentWindow[s]? = none) <->
      forall s k, s ∈ counted.sentWindow -> k ∈ counted.sentWindow -> s < k ->
        Reports packet.ackNr exts false s -> Reports packet.ackNr exts true s := by
  rcases h.window with ⟨acked, rfl, hacked⟩
  simp only [getElem?_eraseAll]
  constructor
  · intro hnone s k hs hk hlt hlost
    have hbelow : BelowLast counted s := belowLast_iff.mpr ⟨k, hk, hlt⟩
    have hget := hnone s ((h.lost_iff s).mpr ⟨hbelow, hlost⟩)
    split at hget
    · rename_i hin
      exact ((hacked s).mp hin).2
    · rcases mem_iff_getElem?.mp hs with ⟨v, hv⟩
      cases hget.symm.trans hv
  · intro hsafe s hs
    rcases (h.lost_iff s).mp hs with ⟨hbelow, hlost⟩
    rcases belowLast_iff.mp hbelow with ⟨k, hk, hlt⟩
    split
    · rfl
    · rename_i hout
      cases hget : counted.sentWindow[s]? with
      | none => rfl
      | some v =>
          have hmem := mem_iff_getElem?.mpr ⟨v, hget⟩
          exact absurd ((hacked s).mpr ⟨hbelow, hsafe s k hmem hk hlt hlost⟩) hout

theorem AckSafe.isOk (env : Env) {packet : Packet} {peer : UtpSocketState}
    {exts : List Extension} {payload : List UInt8}
    (hchain : packet.HasChain exts payload) (hsafe : AckSafe packet exts peer) :
    exists o, handleAck env packet peer = .ok o := by
  rw [handleAck_isOk]
  rcases (ackEffect_exists env).mpr ⟨hsafe.counter, hsafe.mark⟩ with ⟨counted, heffect⟩
  rcases fastRetransmit_isOk.mpr
    (fun h => hsafe.retransmit (heffect.retransmits.mp h)) with ⟨reply, hreply⟩
  have hread : exists out, getLostSeqNr packet counted = .ok out := by
    refine (getLostSeqNr_isOk hchain).mpr ?_
    intro hne e he hsack _
    rcases ne_empty_iff.mp hne with ⟨k, hk⟩
    exact hsafe.sack k ((heffect.window k).mp hk) e he hsack
  rcases hread with ⟨⟨lost, peer'⟩, hlost⟩
  have hspec := getLostSeqNr_eq_ok hchain hlost
  have haddr := hspec.connectedTo.trans heffect.connectedTo
  have hsend : exists out, resendLost env peer' lost [] = .ok out := by
    refine resendLost_isOk.mpr ?_
    intro hnone
    refine hspec.address.mpr ?_
    intro s k hs hk
    exact hsafe.address (haddr.symm.trans hnone) s k ((heffect.window s).mp hs)
      ((heffect.window k).mp hk)
  rcases hsend with ⟨out, hsent⟩
  exact ⟨counted, reply, lost, peer', out, heffect, hreply, hlost, hsent⟩

theorem handleAck_isOk_iff (env : Env) {packet : Packet} (peer : UtpSocketState)
    {exts : List Extension} {payload : List UInt8}
    (hchain : packet.HasChain exts payload)
    (hdata : forall e, e ∈ exts -> e.data ≠ []) :
    (exists o, handleAck env packet peer = .ok o) <-> AckSafe packet exts peer := by
  rw [handleAck_isOk]
  constructor
  · intro hok
    rcases hok with ⟨counted, reply, lost, peer', out, heffect, hreply, hlost, hsent⟩
    have hroom := (ackEffect_exists env).mp ⟨counted, heffect⟩
    have hspec := getLostSeqNr_eq_ok hchain hlost
    have haddr := hspec.connectedTo.trans heffect.connectedTo
    refine
      { counter := hroom.1
        mark := hroom.2
        retransmit := fun hcase =>
          fastRetransmit_isOk.mp ⟨reply, hreply⟩ (heffect.retransmits.mpr hcase)
        sack := ?_
        address := ?_ }
    · intro k hk e he hsack
      have hne := ne_empty_iff.mpr ⟨k, (heffect.window k).mpr hk⟩
      exact (getLostSeqNr_isOk hchain).mp ⟨_, hlost⟩ hne e he hsack (hdata e he)
    · intro hnone s k hs hk
      exact hspec.address.mp
        (resendLost_isOk.mp ⟨out, hsent⟩ (haddr.trans hnone)) s k
        ((heffect.window s).mpr hs) ((heffect.window k).mpr hk)
  · exact fun hsafe => handleAck_isOk.mp (hsafe.isOk env hchain)

/-!
## State packets
-/

theorem resendBefore_isOk {packet : Packet} {peer : UtpSocketState} :
    (exists lost, resendBefore packet peer = .ok lost) <->
      exists k, k ∈ peer.sentWindow ∧ packet.ackNr.toNat = k.toNat + 1 := by
  constructor
  · intro hok
    rcases hok with ⟨lost, h⟩
    rcases bind_eq_ok.mp h with ⟨k, hk, h⟩
    have hnumber := subU16_eq_ok.mp hk
    rw [UInt16.toNat_one] at hnumber
    split at h
    · rename_i found hfound
      exact ⟨k, mem_iff_getElem?.mpr ⟨found, hfound⟩, by omega⟩
    · cases h
  · intro hmem
    rcases hmem with ⟨k, hk, hnumber⟩
    rcases mem_iff_getElem?.mp hk with ⟨lost, hlost⟩
    have hsub : subU16 packet.ackNr 1 = .ok k := by
      rw [subU16_eq_ok, UInt16.toNat_one]
      omega
    refine ⟨lost, ?_⟩
    simp only [resendBefore, hsub, bind, Except.bind, hlost]
    rfl

end Utp
