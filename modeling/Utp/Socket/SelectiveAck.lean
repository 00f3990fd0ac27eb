import Utp.Socket.HandlePacket

/-!
# The SACK bitmap

`build_selective_ack` writes one bit for each stored packet.  Bit `i` of the
result stands for the number `last_acked + 1 + i`, which is how
`get_lost_seq_nr` reads it back.
-/

namespace Utp

open Foundation

/-!
## Bits of byte lists
-/

theorem bitAt_append_zeros (bs : List UInt8) (n i : Nat) :
    bitAt (bs ++ List.replicate n 0) i = bitAt bs i := by
  have hget : (bs ++ List.replicate n 0).getD (i / 8) 0 = bs.getD (i / 8) 0 := by
    simp only [List.getD, List.getElem?_append, List.getElem?_replicate]
    split
    · rfl
    · rename_i hge
      rw [List.getElem?_eq_none (by omega)]
      split <;> rfl
  rw [bitAt, hget, bitAt]

theorem bitAt_of_take {bs : List UInt8} {n i : Nat} (h : bitAt (bs.take n) i = true) :
    bitAt bs i = true := by
  unfold bitAt at h ⊢
  simp only [List.getD, List.getElem?_take] at h ⊢
  split at h
  · exact h
  · simp at h

theorem testBit_one_shiftLeft {bit j : Nat} (hbit : bit < 8) (_hj : j < 8) :
    ((1 : UInt8) <<< UInt8.ofNat bit).toNat.testBit j = decide (j = bit) := by
  have hmod : bit % 256 % 8 = bit := by omega
  rw [UInt8.toNat_shiftLeft, UInt8.toNat_ofNat', hmod, Nat.testBit_mod_two_pow,
    UInt8.toNat_one, Nat.testBit_shiftLeft]
  by_cases h : j = bit
  · simp [h, hbit]
  · by_cases hge : bit <= j
    · have hzero : Nat.testBit 1 (j - bit) = false := by
        rw [← Bool.not_eq_true, Nat.testBit_one_eq_true_iff_self_eq_zero]
        omega
      simp [h, hzero]
    · simp [h, hge]

theorem bitAt_set_or {bs : List UInt8} {byte bit : Nat} (hbyte : byte < bs.length)
    (hbit : bit < 8) (i : Nat) :
    bitAt (bs.set byte (bs.getD byte 0 ||| 1 <<< UInt8.ofNat bit)) i =
      (bitAt bs i || decide (i = byte * 8 + bit)) := by
  unfold bitAt
  by_cases hsame : i / 8 = byte
  · have hget : (bs.set byte (bs.getD byte 0 ||| 1 <<< UInt8.ofNat bit)).getD (i / 8) 0 =
        bs.getD byte 0 ||| 1 <<< UInt8.ofNat bit := by
      simp [List.getD, hsame, hbyte]
    rw [hget, UInt8.toNat_or, Nat.testBit_or,
      testBit_one_shiftLeft hbit (Nat.mod_lt _ (by decide)), hsame]
    congr 1
    rw [decide_eq_decide]
    omega
  · have hget : (bs.set byte (bs.getD byte 0 ||| 1 <<< UInt8.ofNat bit)).getD (i / 8) 0 =
        bs.getD (i / 8) 0 := by
      simp [List.getD, List.getElem?_set_ne (Ne.symm hsame)]
    have hne : ¬ i = byte * 8 + bit := by omega
    rw [hget]
    simp [hne]

/-!
## Building the bitmap
-/

theorem toNat_sub_of_lt {lastAcked seqNr : UInt16} (h : lastAcked < seqNr) :
    (seqNr - lastAcked).toNat = seqNr.toNat - lastAcked.toNat :=
  UInt16.toNat_sub_of_le _ _ (UInt16.le_of_lt h)

theorem bitAt_markReceived (lastAcked seqNr : UInt16) (sack : List UInt8) (i : Nat) :
    bitAt (markReceived lastAcked sack seqNr) i =
      (bitAt sack i || decide (seqNr.toNat = lastAcked.toNat + 1 + i)) := by
  unfold markReceived
  split
  · rename_i hlt
    have hdiff := toNat_sub_of_lt hlt
    have hlt := UInt16.lt_iff_toNat_lt.mp hlt
    simp only [hdiff]
    generalize hd : seqNr.toNat - lastAcked.toNat - 1 = d
    have hiff : (i = d / 8 * 8 + d % 8) <->
        (seqNr.toNat = lastAcked.toNat + 1 + i) := by omega
    have hbit : d % 8 < 8 := Nat.mod_lt _ (by decide)
    split
    · rw [bitAt_set_or (by simp; omega) hbit, bitAt_append_zeros]
      simp only [hiff]
    · rw [bitAt_set_or (by omega) hbit]
      simp only [hiff]
  · rename_i hle
    have hle := mt UInt16.lt_iff_toNat_lt.mpr hle
    have hne : ¬ seqNr.toNat = lastAcked.toNat + 1 + i := by omega
    simp [hne]

theorem bitAt_foldl_markReceived (lastAcked : UInt16) (keys : List UInt16)
    (sack : List UInt8) (i : Nat) :
    bitAt (keys.foldl (markReceived lastAcked) sack) i = true <->
      bitAt sack i = true ∨
        exists k, k ∈ keys ∧ k.toNat = lastAcked.toNat + 1 + i := by
  induction keys generalizing sack with
  | nil =>
      simp
  | cons key keys ih =>
      rw [List.foldl_cons, ih, bitAt_markReceived, Bool.or_eq_true,
        decide_eq_true_iff, or_assoc]
      simp

theorem bitAt_buildSelectiveAck (peer : UtpSocketState) (i : Nat) :
    bitAt (buildSelectiveAck peer) i = true <->
      exists k, k ∈ peer.outOfOrder ∧ k.toNat = peer.lastAcked.toNat + 1 + i := by
  have hnil : bitAt [] i = false := by simp [bitAt]
  rw [buildSelectiveAck, padToFour, bitAt_append_zeros, bitAt_foldl_markReceived,
    hnil]
  simp only [Bool.false_eq_true, false_or]
  exact exists_congr fun k => and_congr_left fun _ => mem_keys_toList

theorem bitAt_of_number {peer : UtpSocketState} {s : UInt16} {i : Nat}
    (hs : s.toNat = peer.lastAcked.toNat + 1 + i) :
    bitAt (buildSelectiveAck peer) i = true <-> s ∈ peer.outOfOrder := by
  rw [bitAt_buildSelectiveAck]
  constructor
  · intro hcase
    rcases hcase with ⟨k, hk, hnumber⟩
    rwa [UInt16.toNat_inj.mp (hs.trans hnumber.symm)]
  · intro hmem
    exact ⟨s, hmem, hs⟩

/-!
## Its length
-/

theorem length_markReceived_le {lastAcked seqNr : UInt16} {sack : List UInt8} {n : Nat} :
    (markReceived lastAcked sack seqNr).length <= n <->
      sack.length <= n ∧
        (lastAcked.toNat < seqNr.toNat ->
          (seqNr.toNat - lastAcked.toNat - 1) / 8 < n) := by
  unfold markReceived
  split
  · rename_i hlt
    have hdiff := toNat_sub_of_lt hlt
    have hlt := UInt16.lt_iff_toNat_lt.mp hlt
    simp only [hdiff, List.length_set]
    split
    · rw [List.length_append, List.length_replicate]
      omega
    · omega
  · rename_i hle
    have hle := mt UInt16.lt_iff_toNat_lt.mpr hle
    constructor
    · intro h
      exact ⟨h, fun hlt => absurd hlt hle⟩
    · intro h
      exact h.1

theorem length_foldl_markReceived_le {lastAcked : UInt16} {keys : List UInt16}
    {sack : List UInt8} {n : Nat} :
    (keys.foldl (markReceived lastAcked) sack).length <= n <->
      sack.length <= n ∧ forall k, k ∈ keys -> lastAcked.toNat < k.toNat ->
        (k.toNat - lastAcked.toNat - 1) / 8 < n := by
  induction keys generalizing sack with
  | nil => simp
  | cons key keys ih =>
      rw [List.foldl_cons, ih, length_markReceived_le, List.forall_mem_cons, and_assoc]

theorem length_buildSelectiveAck_le {peer : UtpSocketState} {n : Nat} :
    (buildSelectiveAck peer).length <= 4 * n <->
      forall k, k ∈ peer.outOfOrder -> k.toNat <= peer.lastAcked.toNat + 32 * n := by
  have hpad : forall sack : List UInt8,
      (padToFour sack).length <= 4 * n <-> sack.length <= 4 * n := by
    intro sack
    rw [padToFour, List.length_append, List.length_replicate]
    omega
  rw [buildSelectiveAck, hpad, length_foldl_markReceived_le]
  constructor
  · intro h k hk
    have hkey : k ∈ peer.outOfOrder.toList.map Prod.fst := mem_keys_toList.mpr hk
    have hbound := h.2 k hkey
    omega
  · intro h
    refine ⟨Nat.zero_le _, ?_⟩
    intro k hk hlt
    have hbound := h k (mem_keys_toList.mp hk)
    omega

theorem length_padToFour (sack : List UInt8) : (padToFour sack).length % 4 = 0 := by
  simp [padToFour]
  omega

theorem length_buildSelectiveAck_mod (peer : UtpSocketState) :
    (buildSelectiveAck peer).length % 4 = 0 :=
  length_padToFour _

theorem length_buildSelectiveAck_le_iff {peer : UtpSocketState} {top : UInt16}
    (htop : top ∈ peer.outOfOrder)
    (hgreatest : forall k, k ∈ peer.outOfOrder -> k.toNat <= top.toNat) (n : Nat) :
    (buildSelectiveAck peer).length <= 4 * n <->
      top.toNat <= peer.lastAcked.toNat + 32 * n := by
  rw [length_buildSelectiveAck_le]
  constructor
  · intro h
    exact h top htop
  · intro h k hk
    exact Nat.le_trans (hgreatest k hk) h

theorem length_buildSelectiveAck {peer : UtpSocketState} {top : UInt16} {q : Packet}
    (htop : lastEntry peer.outOfOrder = some (top, q)) :
    (buildSelectiveAck peer).length =
      4 * ((top.toNat - peer.lastAcked.toNat + 31) / 32) := by
  have hmod := length_buildSelectiveAck_mod peer
  have hle := length_buildSelectiveAck_le_iff (mem_of_lastEntry htop)
    (fun k hk => le_lastEntry htop hk)
  -- the least number of words that reaches the greatest stored number
  have hfits := hle ((top.toNat - peer.lastAcked.toNat + 31) / 32)
  have hleast := hle ((buildSelectiveAck peer).length / 4)
  omega

theorem buildSelectiveAck_of_empty {peer : UtpSocketState} (h : peer.outOfOrder = ∅) :
    buildSelectiveAck peer = [] := by
  have hle : (buildSelectiveAck peer).length <= 4 * 0 := by
    rw [length_buildSelectiveAck_le, h]
    intro k hk
    exact absurd hk Std.ExtTreeMap.not_mem_empty
  exact List.eq_nil_of_length_eq_zero (Nat.le_zero.mp hle)

theorem sackLength_buildSelectiveAck {peer : UtpSocketState}
    (h : (buildSelectiveAck peer).length ≠ 0) :
    Packet.SackLength (buildSelectiveAck peer) := by
  have hmod := length_buildSelectiveAck_mod peer
  exact ⟨by omega, hmod⟩

/-!
## The bitmap as a whole
-/

theorem lt_of_bitAt {bs : List UInt8} {i : Nat} (h : bitAt bs i = true) :
    i < bs.length * 8 := by
  by_contra hge
  rw [bitAt, List.getD, List.getElem?_eq_none (by omega)] at h
  simp at h

def storedAhead (peer : UtpSocketState) : List UInt16 :=
  (peer.outOfOrder.toList.map Prod.fst).filter fun k => peer.lastAcked < k

theorem mem_storedAhead {peer : UtpSocketState} {k : UInt16} :
    k ∈ storedAhead peer <-> k ∈ peer.outOfOrder ∧ peer.lastAcked.toNat < k.toNat := by
  rw [storedAhead, List.mem_filter, mem_keys_toList, decide_eq_true_iff,
    UInt16.lt_iff_toNat_lt]

theorem nodup_storedAhead (peer : UtpSocketState) : (storedAhead peer).Nodup := by
  refine List.Nodup.filter _ ?_
  rw [List.Nodup, List.pairwise_map]
  refine (pairwise_toList peer.outOfOrder).imp ?_
  intro a b hlt hsame
  rw [hsame] at hlt
  exact Nat.lt_irrefl _ hlt

theorem indices_perm_storedAhead (peer : UtpSocketState) :
    ((List.range ((buildSelectiveAck peer).length * 8)).filter
        (bitAt (buildSelectiveAck peer))).Perm
      ((storedAhead peer).map fun k => k.toNat - peer.lastAcked.toNat - 1) := by
  have hright : ((storedAhead peer).map fun k =>
      k.toNat - peer.lastAcked.toNat - 1).Nodup := by
    refine (nodup_storedAhead peer).map_on ?_
    intro a ha b hb hsame
    have ha := (mem_storedAhead.mp ha).2
    have hb := (mem_storedAhead.mp hb).2
    exact UInt16.toNat_inj.mp (by omega)
  refine (List.perm_ext_iff_of_nodup (List.nodup_range.filter _) hright).mpr ?_
  intro i
  rw [List.mem_filter, List.mem_range, List.mem_map]
  constructor
  · intro hcase
    rcases (bitAt_buildSelectiveAck peer i).mp hcase.2 with ⟨k, hk, hnumber⟩
    exact ⟨k, mem_storedAhead.mpr ⟨hk, by omega⟩, by omega⟩
  · intro hcase
    rcases hcase with ⟨k, hk, rfl⟩
    rcases mem_storedAhead.mp hk with ⟨hk, hahead⟩
    have hbit := (bitAt_buildSelectiveAck peer _).mpr ⟨k, hk,
      show k.toNat = _ + 1 + (k.toNat - peer.lastAcked.toNat - 1) by omega⟩
    exact ⟨lt_of_bitAt hbit, hbit⟩

theorem count_bits_buildSelectiveAck (peer : UtpSocketState) :
    (bits (buildSelectiveAck peer)).count true = (storedAhead peer).length := by
  have hcount : (bits (buildSelectiveAck peer)).count true =
      ((List.range ((buildSelectiveAck peer).length * 8)).filter
        (bitAt (buildSelectiveAck peer))).length := by
    rw [bits, List.count, List.countP_map, ← List.countP_eq_length_filter]
    congr 1
    funext i
    exact beq_true _
  rw [hcount, (indices_perm_storedAhead peer).length_eq, List.length_map]

theorem countOnes_buildSelectiveAck (peer : UtpSocketState) :
    exists total, (BitIterator.fromBytes (buildSelectiveAck peer)).countOnes = .ok total ∧
      total.toNat = (storedAhead peer).length := by
  have hle : (storedAhead peer).length <= 65536 := by
    have hnodup := (nodup_storedAhead peer).map (f := UInt16.toNat)
      fun a b hsame => UInt16.toNat_inj.mp hsame
    have hsub : (storedAhead peer).map UInt16.toNat ⊆ List.range 65536 := by
      intro n hn
      rcases List.mem_map.mp hn with ⟨k, -, rfl⟩
      exact List.mem_range.mpr k.toNat_lt
    have hlength := (List.subperm_of_subset hnodup hsub).length_le
    rwa [List.length_map, List.length_range] at hlength
  have htotal : (UInt32.ofNat (storedAhead peer).length).toNat =
      (storedAhead peer).length := by
    rw [UInt32.toNat_ofNat', Nat.mod_eq_of_lt (by omega)]
  refine ⟨_, BitIterator.countOnes_fromBytes.mpr ?_, htotal⟩
  rw [htotal, count_bits_buildSelectiveAck]

/-- The list reports the stored numbers behind the mark and nothing else. -/
structure BitmapOf (peer : UtpSocketState) (sack : List UInt8) : Prop where
  bit : forall i, bitAt sack i = true <->
    exists k, k ∈ peer.outOfOrder ∧ k.toNat = peer.lastAcked.toNat + 1 + i
  wholeWords : sack.length % 4 = 0
  empty : sack.length = 0 <->
    forall k, k ∈ peer.outOfOrder -> k.toNat <= peer.lastAcked.toNat
  least : forall top, top ∈ peer.outOfOrder -> peer.lastAcked.toNat < top.toNat ->
    (forall k, k ∈ peer.outOfOrder -> k.toNat <= top.toNat) ->
    IsLeast {n | n % 4 = 0 ∧ top.toNat - peer.lastAcked.toNat - 1 < 8 * n} sack.length
  iterated : forall fuel, sack.length * 8 <= fuel ->
    exists yielded, BitIterator.collect fuel (BitIterator.fromBytes sack) = .ok yielded ∧
      yielded.length = sack.length * 8 ∧
      forall i b, yielded[i]? = some b -> (b = true <->
        exists k, k ∈ peer.outOfOrder ∧ k.toNat = peer.lastAcked.toNat + 1 + i)
  ones : exists total, (BitIterator.fromBytes sack).countOnes = .ok total ∧
    total.toNat = (storedAhead peer).length

theorem buildSelectiveAck_bitmapOf (peer : UtpSocketState) :
    BitmapOf peer (buildSelectiveAck peer) := by
  have hmod := length_buildSelectiveAck_mod peer
  have hempty := @length_buildSelectiveAck_le peer 0
  constructor
  · exact bitAt_buildSelectiveAck peer
  · exact hmod
  · rw [← Nat.le_zero]
    exact hempty
  · intro top htop hahead hgreatest
    have hle := length_buildSelectiveAck_le_iff htop hgreatest
    constructor
    · have hfits := hle ((buildSelectiveAck peer).length / 4)
      exact ⟨hmod, by omega⟩
    · intro n hn
      have hfits := hle (n / 4)
      have hwhole := hn.1
      have hreach := hn.2
      omega
  · intro fuel hfuel
    refine ⟨_, BitIterator.collect_fromBytes hfuel, length_bits _, ?_⟩
    intro i b hb
    rw [← (getElem?_bits.mp hb).2]
    exact bitAt_buildSelectiveAck peer i
  · exact countOnes_buildSelectiveAck peer

end Utp
