import Utp.Socket.HandlePacket

/-!
# What the ack arm does

An `Ack` first moves the last acknowledged number, then its SACK bits take
packets out of the window and name packets to send again.  This module says
when each part of the arm returns and what it leaves in the window.
-/

namespace Utp

open Foundation

/-!
## The comparison
-/

/-- What `countAck` makes of the peer state. -/
inductive AckEffect (env : Env) (packet : Packet) (peer : UtpSocketState) :
    UtpSocketState -> Prop where
  | repeated :
      packet.ackNr = peer.lastAcked ->
      peer.duplicateAckCount.toNat < 65535 ->
      AckEffect env packet peer
        { peer with duplicateAckCount := peer.duplicateAckCount + 1 }
  | next :
      packet.ackNr.toNat = peer.lastAcked.toNat + 1 ->
      AckEffect env packet peer
        { peer with
          lastAcked := packet.ackNr
          lastAckedTimestamp := env.now
          duplicateAckCount := 1
          sentWindow := peer.sentWindow.erase packet.ackNr }
  | ignored :
      packet.ackNr ≠ peer.lastAcked ->
      packet.ackNr.toNat ≠ peer.lastAcked.toNat + 1 ->
      peer.lastAcked.toNat < 65535 ->
      AckEffect env packet peer peer

theorem countAck_eq_ok {env : Env} {packet : Packet} {peer counted : UtpSocketState} :
    countAck env packet peer = .ok counted <-> AckEffect env packet peer counted := by
  have hbound := packet.ackNr.toNat_lt
  unfold countAck
  constructor
  · intro h
    split at h
    · rename_i heq
      rcases bind_eq_ok.mp h with ⟨count, hcount, h⟩
      cases addOne_eq hcount
      cases h
      exact AckEffect.repeated heq (addOne_isOk.mp ⟨_, hcount⟩)
    · rename_i hne
      rcases bind_eq_ok.mp h with ⟨next, hadd, h⟩
      have hnext := addOne_eq_ok.mp hadd
      have hlt := next.toNat_lt
      cases h
      split
      · rename_i heq
        exact AckEffect.next (by rw [heq, hnext])
      · rename_i hnotNext
        refine AckEffect.ignored hne ?_ (by omega)
        intro heq
        exact hnotNext (UInt16.toNat_inj.mp (heq.trans hnext.symm))
  · intro h
    cases h with
    | repeated heq hcount =>
        rcases addOne_isOk.mpr hcount with ⟨count, hadd⟩
        cases addOne_eq hadd
        rw [if_pos heq, hadd]
        rfl
    | next heq =>
        have hne : packet.ackNr ≠ peer.lastAcked := by
          intro h
          rw [h] at heq
          omega
        rw [if_neg hne, addOne_eq_ok.mpr heq]
        show Except.ok (if packet.ackNr = packet.ackNr then _ else _) = _
        rw [if_pos rfl]
    | ignored hne hnotNext hlast =>
        rcases addOne_isOk.mpr hlast with ⟨next, hadd⟩
        rw [if_neg hne, hadd]
        show Except.ok (if packet.ackNr = next then _ else _) = _
        rw [if_neg]
        intro heq
        exact hnotNext (by rw [heq, addOne_eq_ok.mp hadd])

theorem fastRetransmit_isOk {packet : Packet} {peer : UtpSocketState} :
    (exists reply, fastRetransmit packet peer = .ok reply) <->
      (3 <= peer.duplicateAckCount.toNat -> packet.ackNr.toNat < 65535) := by
  have hthree : (3 <= peer.duplicateAckCount) <->
      3 <= peer.duplicateAckCount.toNat := UInt16.le_iff_toNat_le
  unfold fastRetransmit
  constructor
  · intro hcase hcount
    rcases hcase with ⟨reply, h⟩
    rw [if_pos (hthree.mpr hcount)] at h
    rcases bind_eq_ok.mp h with ⟨lost, hlost, -⟩
    exact addOne_isOk.mp ⟨lost, hlost⟩
  · intro h
    split
    · rename_i hcount
      rcases addOne_isOk.mpr (h (hthree.mp hcount)) with ⟨lost, hlost⟩
      exact ⟨peer.sentWindow[lost]?, by rw [hlost]; rfl⟩
    · exact ⟨none, rfl⟩

theorem fastRetransmit_mem {packet reply : Packet} {peer : UtpSocketState}
    (h : fastRetransmit packet peer = .ok (some reply)) :
    exists s : UInt16, peer.sentWindow[s]? = some reply := by
  unfold fastRetransmit at h
  split at h
  · rcases bind_eq_ok.mp h with ⟨lost, -, h⟩
    exact ⟨lost, Except.ok.inj h⟩
  · cases h

/-!
## Reading a SACK
-/

def SackNumber (ackNr : UInt16) (i : Nat) (s : UInt16) : Prop :=
  s.toNat = ackNr.toNat + 1 + i

section Note

variable {found : Found} {last seqNr s : UInt16} {received : Bool}

theorem mem_ackPackets_note :
    s ∈ (found.note last seqNr received).ackPackets <->
      s ∈ found.ackPackets ∨ s < last ∧ received = true ∧ s = seqNr := by
  unfold Found.note
  by_cases hs : s = seqNr
  · subst hs
    cases received <;> by_cases hlt : s < last <;> simp [hlt]
  · cases received <;> by_cases hlt : seqNr < last <;> simp [hlt, hs]

theorem mem_result_note :
    s ∈ (found.note last seqNr received).result <->
      s ∈ found.result ∨ s < last ∧ received = false ∧ s = seqNr := by
  unfold Found.note
  by_cases hs : s = seqNr
  · subst hs
    cases received <;> by_cases hlt : s < last <;> simp [hlt]
  · cases received <;> by_cases hlt : seqNr < last <;> simp [hlt, hs]

end Note

/-- Some position of the bits has this value and stands for `s`. -/
def MarkedBits (ackNr : UInt16) (bits : List Bool) (idx : Nat) (value : Bool)
    (s : UInt16) : Prop :=
  exists i, bits[i]? = some value ∧ SackNumber ackNr (idx + i) s

theorem markedBits_cons {ackNr seqNr s : UInt16} {received value : Bool}
    {bits : List Bool} {idx : Nat} (hseq : SackNumber ackNr idx seqNr) :
    MarkedBits ackNr (received :: bits) idx value s <->
      (received = value ∧ s = seqNr) ∨ MarkedBits ackNr bits (idx + 1) value s := by
  constructor
  · intro hcase
    rcases hcase with ⟨i, hi, hs⟩
    cases i with
    | zero =>
        refine Or.inl ⟨by simpa using hi, UInt16.toNat_inj.mp ?_⟩
        exact hs.trans hseq.symm
    | succ i =>
        refine Or.inr ⟨i, by simpa using hi, ?_⟩
        rw [SackNumber] at hs ⊢
        omega
  · intro hcase
    rcases hcase with ⟨rfl, rfl⟩ | ⟨i, hi, hs⟩
    · exact ⟨0, rfl, hseq⟩
    · refine ⟨i + 1, by simpa using hi, ?_⟩
      rw [SackNumber] at hs ⊢
      omega

theorem scanBits_cons {ackNr last : UInt16} {received : Bool} {bits : List Bool}
    {idx : Nat} {found found' : Found} (hidx : idx < 65536)
    (h : scanBits ackNr last (received :: bits) idx found = .ok found') :
    exists seqNr, SackNumber ackNr idx seqNr ∧
      scanBits ackNr last bits (idx + 1) (found.note last seqNr received) =
        .ok found' := by
  rcases bind_eq_ok.mp h with ⟨next, hnext, h⟩
  rcases bind_eq_ok.mp h with ⟨seqNr, hseq, h⟩
  refine ⟨seqNr, ?_, h⟩
  rw [SackNumber, addU16_eq_ok.mp hseq, addOne_eq_ok.mp hnext, UInt16.toNat_ofNat']
  omega

theorem scanBits_eq_ok {ackNr last : UInt16} {bits : List Bool} {idx : Nat}
    {found found' : Found} (hidx : idx + bits.length <= 65536)
    (h : scanBits ackNr last bits idx found = .ok found') :
    forall s,
      (s ∈ found'.ackPackets <->
        s ∈ found.ackPackets ∨ s < last ∧ MarkedBits ackNr bits idx true s) ∧
      (s ∈ found'.result <->
        s ∈ found.result ∨ s < last ∧ MarkedBits ackNr bits idx false s) := by
  intro s
  induction bits generalizing idx found with
  | nil =>
      cases h
      simp [MarkedBits]
  | cons received bits ih =>
      rw [List.length_cons] at hidx
      rcases scanBits_cons (by omega) h with ⟨seqNr, hnumber, h⟩
      rcases ih (by omega) h with ⟨hacked, hlost⟩
      constructor
      · rw [hacked, mem_ackPackets_note, markedBits_cons hnumber, and_or_left,
          or_assoc]
      · rw [hlost, mem_result_note, markedBits_cons hnumber, and_or_left,
          or_assoc]

theorem scanBits_isOk {ackNr last : UInt16} {bits : List Bool} {idx : Nat}
    {found : Found} (hidx : idx + bits.length <= 65536) :
    (exists out, scanBits ackNr last bits idx found = .ok out) <->
      (bits ≠ [] -> ackNr.toNat + idx + bits.length <= 65535) := by
  induction bits generalizing idx found with
  | nil =>
      simp [scanBits]
  | cons received bits ih =>
      rw [List.length_cons] at hidx
      have hofNat : (UInt16.ofNat idx).toNat = idx := by
        rw [UInt16.toNat_ofNat']
        omega
      constructor
      · intro hcase _
        rcases hcase with ⟨out, h⟩
        rcases scanBits_cons (by omega) h with ⟨seqNr, hnumber, h⟩
        rw [SackNumber] at hnumber
        have hlt := seqNr.toNat_lt
        have hrest := (@ih (idx + 1) _ (by omega)).mp ⟨out, h⟩
        rw [List.length_cons]
        cases bits with
        | nil =>
            simp only [List.length_nil]
            omega
        | cons bit bits =>
            have := hrest (List.cons_ne_nil _ _)
            omega
      · intro h
        have hfit := h (List.cons_ne_nil _ _)
        rw [List.length_cons] at hfit
        rcases addOne_isOk.mpr (show ackNr.toNat < 65535 by omega) with ⟨next, hadd⟩
        have hnext := addOne_eq_ok.mp hadd
        rcases addU16_isOk.mpr
          (show next.toNat + (UInt16.ofNat idx).toNat < 65536 by omega)
          with ⟨seqNr, hseq⟩
        rw [scanBits, hadd]
        show exists out, (addU16 next (UInt16.ofNat idx) >>= _) = Except.ok out
        rw [hseq]
        exact (@ih (idx + 1) _ (by omega)).mpr fun _ => by omega

/-- One of the SACK extensions has a bit of this value that stands for `s`. -/
def Reports (ackNr : UInt16) (exts : List Extension) (value : Bool)
    (s : UInt16) : Prop :=
  exists e, e ∈ exts ∧ e.ty = .selectiveAck ∧
    MarkedBits ackNr (bits e.data) 0 value s

def BelowLast (peer : UtpSocketState) (s : UInt16) : Prop :=
  exists last w, lastEntry peer.sentWindow = some (last, w) ∧ s < last

theorem belowLast_iff {peer : UtpSocketState} {s : UInt16} :
    BelowLast peer s <-> exists k, k ∈ peer.sentWindow ∧ s < k := by
  constructor
  · intro hbelow
    rcases hbelow with ⟨last, w, hlast, hlt⟩
    exact ⟨last, mem_of_lastEntry hlast, hlt⟩
  · intro hbelow
    rcases hbelow with ⟨k, hk, hlt⟩
    rcases lastEntry_exists (ne_empty_iff.mpr ⟨k, hk⟩) with ⟨last, w, hlast⟩
    have hle := le_lastEntry hlast hk
    rw [UInt16.lt_iff_toNat_lt] at hlt
    exact ⟨last, w, hlast, UInt16.lt_iff_toNat_lt.mpr (by omega)⟩

theorem reports_cons_other {ackNr s : UInt16} {e : Extension}
    {exts : List Extension} {value : Bool} (h : e.ty ≠ .selectiveAck) :
    Reports ackNr (e :: exts) value s <-> Reports ackNr exts value s := by
  simp [Reports, h]

theorem reports_cons_sack {ackNr s : UInt16} {e : Extension}
    {exts : List Extension} {value : Bool} (h : e.ty = .selectiveAck) :
    Reports ackNr (e :: exts) value s <->
      MarkedBits ackNr (bits e.data) 0 value s ∨ Reports ackNr exts value s := by
  simp [Reports, h]

theorem belowLast_of_lastEntry {peer : UtpSocketState} {last : UInt16} {w : Packet}
    (hlast : lastEntry peer.sentWindow = some (last, w)) (s : UInt16) :
    BelowLast peer s <-> s < last := by
  constructor
  · intro hbelow
    rcases hbelow with ⟨last', w', hsome, hlt⟩
    cases hlast.symm.trans hsome
    exact hlt
  · exact fun hlt => ⟨last, w, hlast, hlt⟩

section ScanExtensions

variable {packet : Packet} {peer : UtpSocketState} {e : Extension} {exts : List Extension}
  {found : Found}

theorem scanExtensions_cons_other (hother : e.ty ≠ .selectiveAck) :
    scanExtensions packet peer (e :: exts) found =
      scanExtensions packet peer exts found := by
  rw [scanExtensions, if_neg hother]

theorem scanExtensions_cons_sack {last : UInt16} {w : Packet}
    (hsack : e.ty = .selectiveAck)
    (hlast : lastEntry peer.sentWindow = some (last, w)) :
    scanExtensions packet peer (e :: exts) found =
      scanBits packet.ackNr last (bits e.data) 0 found >>= fun mid =>
        scanExtensions packet peer exts mid := by
  rw [scanExtensions, if_pos hsack, hlast]
  simp only [Extension.iter_eq]
  rfl

theorem scanExtensions_of_empty (hempty : peer.sentWindow = ∅) :
    scanExtensions packet peer exts found = .ok found := by
  induction exts with
  | nil => rfl
  | cons e exts ih =>
      rw [scanExtensions, lastEntry_eq_none.mpr hempty]
      simp only [ih, ite_self]

theorem scanBits_bits_isOk {ackNr last : UInt16} {data : List UInt8}
    (hlength : data.length < 256) :
    (exists out, scanBits ackNr last (bits data) 0 found = .ok out) <->
      (data ≠ [] -> ackNr.toNat + data.length * 8 <= 65535) := by
  have hbits : bits data ≠ [] <-> data ≠ [] := by
    rw [← List.length_pos_iff, ← List.length_pos_iff, length_bits]
    omega
  have hscan : (exists out, scanBits ackNr last (bits data) 0 found = .ok out) <-> _ :=
    scanBits_isOk (by rw [length_bits]; omega)
  rw [hscan, hbits, length_bits, Nat.add_zero]

end ScanExtensions

theorem scanExtensions_eq_ok {packet : Packet} {peer : UtpSocketState}
    {exts : List Extension} {found found' : Found}
    (hexts : forall e, e ∈ exts -> e.data.length < 256)
    (h : scanExtensions packet peer exts found = .ok found') :
    forall s,
      (s ∈ found'.ackPackets <-> s ∈ found.ackPackets ∨
        BelowLast peer s ∧ Reports packet.ackNr exts true s) ∧
      (s ∈ found'.result <-> s ∈ found.result ∨
        BelowLast peer s ∧ Reports packet.ackNr exts false s) := by
  intro s
  by_cases hempty : peer.sentWindow = ∅
  · have hbelow : ¬ BelowLast peer s := by
      intro hcase
      rcases hcase with ⟨last, w, hlast, -⟩
      exact ne_empty_of_lastEntry hlast hempty
    rw [scanExtensions_of_empty hempty] at h
    cases h
    simp [hbelow]
  · rcases lastEntry_exists hempty with ⟨last, w, hlast⟩
    rw [belowLast_of_lastEntry hlast]
    induction exts generalizing found with
    | nil =>
        cases h
        simp [Reports]
    | cons e exts ih =>
        have hrest := fun found
          (h : scanExtensions packet peer exts found = .ok found') =>
          ih (fun e he => hexts e (List.mem_cons_of_mem _ he)) h
        by_cases hsack : e.ty = .selectiveAck
        · rw [scanExtensions_cons_sack hsack hlast] at h
          rcases bind_eq_ok.mp h with ⟨mid, hmid, h⟩
          have hlength := hexts e (List.mem_cons_self ..)
          have hscan := scanBits_eq_ok (by rw [length_bits]; omega) hmid s
          have htail := hrest mid h
          rw [reports_cons_sack hsack, reports_cons_sack hsack, htail.1, htail.2, hscan.1,
            hscan.2, and_or_left, and_or_left, or_assoc, or_assoc]
          exact ⟨Iff.rfl, Iff.rfl⟩
        · rw [scanExtensions_cons_other hsack] at h
          rw [reports_cons_other hsack, reports_cons_other hsack]
          exact hrest found h

theorem scanExtensions_isOk {packet : Packet} {peer : UtpSocketState}
    {exts : List Extension} {found : Found}
    (hexts : forall e, e ∈ exts -> e.data.length < 256) :
    (exists out, scanExtensions packet peer exts found = .ok out) <->
      (peer.sentWindow ≠ ∅ ->
        forall e, e ∈ exts -> e.ty = .selectiveAck -> e.data ≠ [] ->
          packet.ackNr.toNat + e.data.length * 8 <= 65535) := by
  by_cases hempty : peer.sentWindow = ∅
  · rw [scanExtensions_of_empty hempty]
    exact iff_of_true ⟨found, rfl⟩ fun hne => absurd hempty hne
  · rcases lastEntry_exists hempty with ⟨last, w, hlast⟩
    rw [forall_prop_of_true hempty]
    induction exts generalizing found with
    | nil => simp [scanExtensions]
    | cons e exts ih =>
        have hrest := fun found =>
          @ih found fun e he => hexts e (List.mem_cons_of_mem _ he)
        rw [List.forall_mem_cons]
        by_cases hsack : e.ty = .selectiveAck
        · have hscan := @scanBits_bits_isOk found packet.ackNr last e.data
            (hexts e (List.mem_cons_self ..))
          rw [scanExtensions_cons_sack hsack hlast, forall_prop_of_true hsack, ← hscan]
          constructor
          · intro hout
            rcases hout with ⟨out, h⟩
            rcases bind_eq_ok.mp h with ⟨mid, hmid, h⟩
            exact ⟨⟨mid, hmid⟩, (hrest mid).mp ⟨out, h⟩⟩
          · intro hboth
            rcases hboth with ⟨⟨mid, hmid⟩, hlater⟩
            rcases (hrest mid).mpr hlater with ⟨out, hout⟩
            exact ⟨out, bind_eq_ok.mpr ⟨mid, hmid, hout⟩⟩
        · rw [scanExtensions_cons_other hsack, hrest found]
          exact (and_iff_right fun h => absurd h hsack).symm

/-!
## The lost packets
-/

/-- The window loses the numbers the SACK reports as received, and the lost
numbers are those it reports as missing. -/
structure LostEffect (packet : Packet) (exts : List Extension)
    (peer : UtpSocketState) (lost : List UInt16) (peer' : UtpSocketState) : Prop where
  window : exists acked, peer' = { peer with
      sentWindow := eraseAll peer.sentWindow acked } ∧
    forall s, s ∈ acked <-> BelowLast peer s ∧ Reports packet.ackNr exts true s
  lost_iff : forall s, s ∈ lost <->
    BelowLast peer s ∧ Reports packet.ackNr exts false s

theorem getLostSeqNr_eq_ok {packet : Packet} {peer peer' : UtpSocketState}
    {exts : List Extension} {payload : List UInt8} {lost : List UInt16}
    (hchain : packet.HasChain exts payload)
    (h : getLostSeqNr packet peer = .ok (lost, peer')) :
    LostEffect packet exts peer lost peer' := by
  rcases bind_eq_ok.mp h with ⟨exts', hexts, h⟩
  cases hchain.extensions.symm.trans hexts
  rcases bind_eq_ok.mp h with ⟨found, hfound, h⟩
  cases h
  have hscan := scanExtensions_eq_ok (fun e he => Chain.length_data hchain he) hfound
  exact
    { window := ⟨found.ackPackets, rfl, fun s => by simpa using (hscan s).1⟩
      lost_iff := fun s => by simpa using (hscan s).2 }

theorem getLostSeqNr_isOk {packet : Packet} {peer : UtpSocketState}
    {exts : List Extension} {payload : List UInt8}
    (hchain : packet.HasChain exts payload) :
    (exists out, getLostSeqNr packet peer = .ok out) <->
      (peer.sentWindow ≠ ∅ ->
        forall e, e ∈ exts -> e.ty = .selectiveAck -> e.data ≠ [] ->
          packet.ackNr.toNat + e.data.length * 8 <= 65535) := by
  have hscan : (exists out, scanExtensions packet peer exts ⟨[], []⟩ = .ok out) <-> _ :=
    scanExtensions_isOk fun e he => Chain.length_data hchain he
  rw [← hscan]
  constructor
  · intro hcase
    rcases hcase with ⟨out, h⟩
    rcases bind_eq_ok.mp h with ⟨exts', hexts, h⟩
    cases hchain.extensions.symm.trans hexts
    rcases bind_eq_ok.mp h with ⟨found, hfound, -⟩
    exact ⟨found, hfound⟩
  · intro hcase
    rcases hcase with ⟨found, hfound⟩
    exact ⟨_, bind_eq_ok.mpr ⟨exts, hchain.extensions,
      bind_eq_ok.mpr ⟨found, hfound, rfl⟩⟩⟩

/-!
## Sending lost packets again
-/

theorem resendLost_mem {env : Env} {peer : UtpSocketState} {lost : List UInt16}
    {sent sent' : List Datagram} {status : Except IoError Unit}
    (h : resendLost env peer lost sent = .ok (sent', status)) {d : Datagram}
    (hd : d ∈ sent') :
    d ∈ sent ∨ exists s, s ∈ lost ∧ peer.sentWindow[s]? = some d.1 := by
  induction lost generalizing sent with
  | nil =>
      cases h
      exact Or.inl hd
  | cons seqNr lost ih =>
      have hlater : (exists s, s ∈ lost ∧ peer.sentWindow[s]? = some d.1) ->
          exists s, s ∈ seqNr :: lost ∧ peer.sentWindow[s]? = some d.1 := by
        intro hcase
        rcases hcase with ⟨s, hs, hp⟩
        exact ⟨s, List.mem_cons_of_mem _ hs, hp⟩
      rw [resendLost] at h
      split at h
      · exact (ih h).imp_right hlater
      · rename_i packet hpacket
        split at h
        · cases h
        · rename_i addr _
          split at h
          · cases h
            exact Or.inl hd
          · rcases ih h with hsent | hin
            · rcases List.mem_append.mp hsent with hsent | hnew
              · exact Or.inl hsent
              · cases List.mem_singleton.mp hnew
                exact Or.inr ⟨seqNr, List.mem_cons_self .., hpacket⟩
            · exact Or.inr (hlater hin)

theorem resendLost_isOk {env : Env} {peer : UtpSocketState} {lost : List UInt16}
    {sent : List Datagram} :
    (exists out, resendLost env peer lost sent = .ok out) <->
      (peer.connectedTo = none ->
        forall s, s ∈ lost -> peer.sentWindow[s]? = none) := by
  induction lost generalizing sent with
  | nil =>
      simp [resendLost]
  | cons seqNr lost ih =>
      rw [resendLost]
      split
      · rename_i hnone
        rw [ih]
        constructor
        · intro h haddr s hs
          rcases List.mem_cons.mp hs with rfl | hs
          · exact hnone
          · exact h haddr s hs
        · exact fun h haddr s hs => h haddr s (List.mem_cons_of_mem _ hs)
      · rename_i packet hpacket
        split
        · rename_i haddr
          constructor
          · intro hcase
            rcases hcase with ⟨out, h⟩
            cases h
          · intro h
            cases hpacket.symm.trans (h haddr seqNr (List.mem_cons_self ..))
        · rename_i addr haddr
          have hok : peer.connectedTo = none ->
              forall s, s ∈ seqNr :: lost -> peer.sentWindow[s]? = none := by
            intro hnone
            cases haddr.symm.trans hnone
          refine ⟨fun _ => hok, fun _ => ?_⟩
          split
          · exact ⟨_, rfl⟩
          · refine ih.mpr fun hnone => ?_
            cases haddr.symm.trans hnone

/-!
## The whole arm
-/

theorem handleAck_eq_ok {env : Env} {packet : Packet} {peer : UtpSocketState}
    {o : Outcome} (h : handleAck env packet peer = .ok o) :
    exists counted reply lost status,
      AckEffect env packet peer counted ∧
      fastRetransmit packet counted = .ok reply ∧
      getLostSeqNr packet counted = .ok (lost, o.peer) ∧
      resendLost env o.peer lost [] = .ok (o.sent, status) ∧
      o.result = status.map fun _ => reply := by
  rcases bind_eq_ok.mp h with ⟨counted, hcount, h⟩
  rcases bind_eq_ok.mp h with ⟨reply, hreply, h⟩
  rcases bind_eq_ok.mp h with ⟨⟨lost, peer'⟩, hlost, h⟩
  rcases bind_eq_ok.mp h with ⟨⟨sent, status⟩, hsent, h⟩
  cases h
  exact ⟨counted, reply, lost, status, countAck_eq_ok.mp hcount, hreply, hlost,
    hsent, rfl⟩

theorem handleAck_isOk {env : Env} {packet : Packet} {peer : UtpSocketState} :
    (exists o, handleAck env packet peer = .ok o) <->
      exists counted reply lost peer' out,
        AckEffect env packet peer counted ∧
        fastRetransmit packet counted = .ok reply ∧
        getLostSeqNr packet counted = .ok (lost, peer') ∧
        resendLost env peer' lost [] = .ok out := by
  constructor
  · intro hcase
    rcases hcase with ⟨o, h⟩
    rcases handleAck_eq_ok h with
      ⟨counted, reply, lost, status, hcount, hreply, hlost, hsent, -⟩
    exact ⟨counted, reply, lost, _, _, hcount, hreply, hlost, hsent⟩
  · intro hcase
    rcases hcase with ⟨counted, reply, lost, peer', out, hcount, hreply, hlost, hsent⟩
    refine ⟨⟨peer', out.1, out.2.map fun _ => reply⟩, ?_⟩
    simp only [handleAck, countAck_eq_ok.mpr hcount, hreply, hlost, hsent, bind,
      Except.bind, pure, Except.pure]

end Utp
