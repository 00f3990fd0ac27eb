import Utp.Wire.Chain

/-!
# Laws of the packet accessors

Header edits act on one field each and leave the type, the other fields, and
everything behind the header alone.  A SACK goes behind the extensions that the
packet has already.
-/

namespace Utp

open Foundation

namespace Packet

/-!
## Header fields
-/

theorem bytes_setField (p : Packet) (f : HeaderField) (n : Nat) :
    (p.setField f n).bytes = overwrite f.offset (toBE f.width n) p.bytes := rfl

theorem getField_setField (p : Packet) (f g : HeaderField) (n : Nat) :
    (p.setField g n).getField f =
      if f = g then n % 256 ^ g.width else p.getField f := by
  have hfits := p.field_fits g n
  unfold getField
  rw [bytes_setField]
  split
  · rename_i hfg
    subst hfg
    have hread := readRange_overwrite_self hfits
    rw [length_toBE] at hread
    rw [hread, ofBE_toBE]
  · rename_i hfg
    have hdisjoint := HeaderField.disjoint hfg
    rw [readRange_overwrite_of_disjoint hfits]
    rw [length_toBE]
    exact hdisjoint

theorem getElem?_setField (p : Packet) (f : HeaderField) (n : Nat) {i : Nat}
    (h : i < 2 ∨ headerSize <= i) : (p.setField f n).bytes[i]? = p.bytes[i]? := by
  have hpos := f.offset_pos
  have hend := f.fits
  rw [bytes_setField, getElem?_overwrite (p.field_fits f n), if_neg]
  rw [length_toBE]
  omega

theorem length_setField (p : Packet) (f : HeaderField) (n : Nat) :
    (p.setField f n).bytes.length = p.bytes.length :=
  length_overwrite (p.field_fits f n)

theorem drop_setField (p : Packet) (f : HeaderField) (n : Nat) :
    (p.setField f n).bytes.drop headerSize = p.bytes.drop headerSize := by
  apply List.ext_getElem?
  intro i
  rw [List.getElem?_drop, List.getElem?_drop,
    getElem?_setField p f n (Or.inr (Nat.le_add_right _ _))]

@[simp] theorem getType_setField (p : Packet) (f : HeaderField) (n : Nat) :
    (p.setField f n).getType = p.getType := by
  apply getType_eq_of_checkHeader
  rw [checkHeader_congr p.length_bytes (length_bytes _)
    (getElem?_setField p f n (Or.inl (by decide))), checkHeader_bytes]

@[simp] theorem getExtensionType_setField (p : Packet) (f : HeaderField) (n : Nat) :
    (p.setField f n).getExtensionType = p.getExtensionType := by
  have h := getElem?_setField p f n (i := 1) (Or.inl (by decide))
  simp only [getExtensionType, List.getD, h]

theorem hasChain_setField {p : Packet} {f : HeaderField} {n : Nat}
    {exts : List Extension} {payload : List UInt8} :
    (p.setField f n).HasChain exts payload <-> p.HasChain exts payload := by
  unfold HasChain
  rw [drop_setField, getExtensionType_setField]

theorem extensions_setField (p : Packet) (f : HeaderField) (n : Nat) :
    (p.setField f n).extensions = p.extensions := by
  have hty := p.getExtensionType_setField f n
  unfold getExtensionType at hty
  unfold extensions ExtensionIterator.new
  rw [hty]
  exact @ExtensionIterator.collect_withBytes
    ⟨p.bytes, .ofByte (p.bytes.getD 1 0), headerSize⟩ _
    (p.length_setField f n) (p.drop_setField f n)

theorem setField_setField_self (p : Packet) (f : HeaderField) (n m : Nat) :
    (p.setField f n).setField f m = p.setField f m := by
  apply Packet.ext
  exact overwrite_overwrite_self (by simp) (p.field_fits f n)

theorem setField_comm (p : Packet) {f g : HeaderField} (h : f ≠ g) (n m : Nat) :
    (p.setField g n).setField f m = (p.setField f m).setField g n := by
  apply Packet.ext
  refine overwrite_comm (p.field_fits f m) (p.field_fits g n) ?_
  rw [length_toBE, length_toBE]
  exact HeaderField.disjoint h

theorem ofNat_toNat_mod (n : UInt16) :
    UInt16.ofNat (n.toNat % 256 ^ 2) = n := by
  have hlt := n.toNat_lt
  rw [Nat.mod_eq_of_lt (by omega), UInt16.ofNat_toNat]

@[simp] theorem seqNr_setSeqNr (p : Packet) (n : UInt16) :
    (p.setSeqNr n).seqNr = n := by
  simp only [seqNr, setSeqNr, getField_setField, if_pos]
  exact ofNat_toNat_mod n

@[simp] theorem ackNr_setAckNr (p : Packet) (n : UInt16) :
    (p.setAckNr n).ackNr = n := by
  simp only [ackNr, setAckNr, getField_setField, if_pos]
  exact ofNat_toNat_mod n

theorem seqNr_setField_of_ne (p : Packet) {f : HeaderField} (h : f ≠ .seqNr)
    (n : Nat) : (p.setField f n).seqNr = p.seqNr := by
  simp only [seqNr, getField_setField, if_neg h.symm]

/-!
## The type
-/

theorem getType_setType (p : Packet) (t : PacketType) :
    (p.setType t).getType = t := by
  apply getType_eq_of_checkHeader
  have hpos : 0 < p.bytes.length := Nat.lt_of_lt_of_le (by decide) p.length_bytes
  exact checkHeader_typed (getVersion_eq p) (length_bytes _) (by simp [setType, hpos])

theorem hasChain_setType {p : Packet} {t : PacketType}
    {exts : List Extension} {payload : List UInt8} :
    (p.setType t).HasChain exts payload <-> p.HasChain exts payload := by
  have hdrop : (p.setType t).bytes.drop headerSize = p.bytes.drop headerSize := by
    apply List.ext_getElem?
    intro i
    rw [List.getElem?_drop, List.getElem?_drop]
    exact List.getElem?_set_ne (by simp [headerSize]; omega)
  have hext : (p.setType t).getExtensionType = p.getExtensionType := by
    simp [getExtensionType, setType, List.getD]
  unfold HasChain
  rw [hdrop, hext]

/-!
## Construction
-/

theorem getType_withPayload (payload : List UInt8) :
    (withPayload payload).getType = .data := by
  apply getType_eq_of_checkHeader
  have hheader : checkHeader (defaultHeader ++ payload) = checkHeader defaultHeader :=
    checkHeader_congr (by decide) (length_bytes (withPayload payload)) rfl
  exact hheader.trans (by decide)

theorem hasChain_withPayload (payload : List UInt8) :
    (withPayload payload).HasChain [] payload := by
  show Chain (ExtensionType.ofByte 0) ((defaultHeader ++ payload).drop headerSize) _ _
  have hdrop : (defaultHeader ++ payload).drop headerSize = payload := by
    rw [List.drop_left' (by decide)]
  rw [hdrop]
  exact Chain.done payload

theorem hasChain_new : new.HasChain [] [] :=
  hasChain_withPayload []

/-!
## Setting a SACK
-/

/-- A legal SACK: at least four bytes, and a multiple of four of them. -/
def SackLength (bv : List UInt8) : Prop :=
  4 <= bv.length ∧ bv.length % 4 = 0

theorem insertAll_append (front back bv : List UInt8) :
    insertAll (front ++ back) front.length bv = .ok (front ++ (bv ++ back)) := by
  induction bv generalizing front with
  | nil =>
      rfl
  | cons value bv ih =>
      have hrest := ih (front ++ [value])
      simp only [List.length_append, List.length_singleton, List.append_assoc,
        List.singleton_append] at hrest
      show (insertAt (front ++ back) front.length value >>= _) = _
      rw [insertAt_append]
      exact hrest

theorem setSackBytes_of_start {bytes front back bv : List UInt8} (hbv : SackLength bv)
    (hstart : setSackStart bytes = .ok (front ++ back, front.length)) :
    setSackBytes bytes bv =
      .ok (front ++
        (ExtensionType.none.toByte :: UInt8.ofNat bv.length :: (bv ++ back))) := by
  have hfirst := insertAt_append front back ExtensionType.none.toByte
  have hsecond := insertAt_append (front ++ [ExtensionType.none.toByte]) back
    (UInt8.ofNat bv.length)
  have hall := insertAll_append
    (front ++ [ExtensionType.none.toByte, UInt8.ofNat bv.length]) back bv
  simp only [List.length_append, List.length_cons, List.length_nil,
    List.append_assoc, List.cons_append, List.nil_append] at hfirst hsecond hall
  unfold setSackBytes
  rw [if_neg (by unfold SackLength at hbv; omega), hstart]
  simp only [bind, Except.bind]
  rw [hfirst]
  simp only
  rw [hsecond]
  simp only
  exact hall

theorem setSackBytes_plain {p : Packet} {bv : List UInt8} (hbv : SackLength bv)
    (hplain : p.getExtensionType = .none) :
    setSackBytes p.bytes bv =
      .ok ((p.bytes.set 1 1).take headerSize ++
        (0 :: UInt8.ofNat bv.length :: (bv ++ p.bytes.drop headerSize))) := by
  have hsplit : (p.bytes.set 1 1).take headerSize ++ p.bytes.drop headerSize =
      p.bytes.set 1 1 := by
    rw [← List.drop_set_of_lt (show 1 < headerSize by decide), List.take_append_drop]
  have hlength : ((p.bytes.set 1 1).take headerSize).length = headerSize := by
    apply List.length_take_of_le
    rw [List.length_set]
    exact p.length_bytes
  apply setSackBytes_of_start hbv
  rw [hsplit, hlength]
  exact if_pos hplain

/-- The bytes up to the payload continue the chain with any further blocks, the
first of which is a SACK. -/
def Extends (ty : ExtensionType) (mid : List UInt8) (exts : List Extension) : Prop :=
  forall more exts' payload, Chain .selectiveAck more exts' payload ->
    Chain ty (mid ++ more) (exts ++ exts') payload

theorem setSackIndex_chain {tail payload : List UInt8} {ty : ExtensionType}
    {exts : List Extension} (hchain : Chain ty tail exts payload) (hty : ty ≠ .none)
    (front : List UInt8) :
    exists mid,
      setSackIndex (front ++ tail) front.length ty =
        .ok (front ++ (mid ++ payload), front.length + mid.length) ∧
      Extends ty mid exts := by
  induction hchain generalizing front with
  | done payload => exact absurd rfl hty
  | block htype hlen hchain ih =>
      rename_i ty nextByte len data tail payload exts
      have hlenByte : (front ++ nextByte :: len :: (data ++ tail))[front.length + 1]? =
          some len := by
        rw [List.getElem?_append_right (Nat.le_add_right _ _), Nat.add_sub_cancel_left]
        rfl
      have hnext : (front ++ nextByte :: len :: (data ++ tail)).getD front.length 0 =
          nextByte := by
        rw [List.getD, List.getElem?_append_right (Nat.le_refl _), Nat.sub_self]
        rfl
      have hlt : front.length < (front ++ nextByte :: len :: (data ++ tail)).length := by
        rw [List.length_append, List.length_cons]
        omega
      rw [setSackIndex, if_pos ⟨hlt, htype⟩, hlenByte]
      simp only [hnext]
      by_cases hlast : ExtensionType.ofByte nextByte = .none
      · rw [hlast] at hchain
        rcases chain_none hchain with ⟨rfl, rfl⟩
        exists ExtensionType.selectiveAck.toByte :: len :: data
        constructor
        · rw [announceSack, hnext, if_pos hlast,
            List.set_append_right _ _ (Nat.le_refl _),
            Nat.sub_self, hlast, setSackIndex, if_neg (fun hcond => hcond.2 rfl)]
          simp only [List.set_cons_zero, List.cons_append, List.length_cons, hlen]
        · intro more exts' payload' hmore
          exact Chain.block htype hlen hmore
      · rcases ih hlast (front ++ nextByte :: len :: data) with ⟨mid, hmid, hextends⟩
        exists nextByte :: len :: (data ++ mid)
        constructor
        · rw [announceSack, hnext, if_neg hlast]
          simp only [List.append_assoc, List.cons_append, List.length_append,
            List.length_cons, hlen] at hmid ⊢
          rw [hmid]
          congr 2
          omega
        · intro more exts' payload' hmore
          have hrest := Chain.block htype hlen (hextends more exts' payload' hmore)
          simpa only [List.cons_append, List.append_assoc] using hrest

theorem getD_take_header (bytes : List UInt8) :
    (bytes.take headerSize).getD 1 0 = bytes.getD 1 0 := by
  rw [List.getD, List.getElem?_take_of_lt (by decide)]
  rfl

theorem setSackStart_chain {p : Packet} {exts : List Extension} {payload : List UInt8}
    (h : p.HasChain exts payload) :
    exists head mid,
      setSackStart p.bytes = .ok (head ++ (mid ++ payload), headerSize + mid.length) ∧
      head.length = headerSize ∧
      (forall i, i ≠ 1 -> i < headerSize -> head[i]? = p.bytes[i]?) ∧
      Extends (.ofByte (head.getD 1 0)) mid exts := by
  have hlength := p.length_bytes
  have hone : 1 < p.bytes.length := Nat.lt_of_lt_of_le (by decide) hlength
  by_cases hplain : p.getExtensionType = .none
  · have hset : setSackStart p.bytes =
        .ok (p.bytes.set 1 ExtensionType.selectiveAck.toByte, headerSize) :=
      if_pos hplain
    unfold HasChain at h
    rw [hplain] at h
    rcases chain_none h with ⟨rfl, hpayload⟩
    refine ⟨(p.bytes.set 1 ExtensionType.selectiveAck.toByte).take headerSize, [],
      ?_, ?_, ?_, ?_⟩
    · rw [hset, List.nil_append, ← hpayload]
      conv => lhs; rw [← List.take_append_drop headerSize (p.bytes.set 1 _)]
      rw [List.drop_set_of_lt (by decide)]
      rfl
    · apply List.length_take_of_le
      rwa [List.length_set]
    · intro i hi hlt
      rw [List.getElem?_take_of_lt hlt, List.getElem?_set_ne (Ne.symm hi)]
    · intro more exts' payload' hmore
      rw [getD_take_header, List.getD, List.getElem?_set_self hone]
      exact hmore
  · have hsplit : p.bytes.take headerSize ++ p.bytes.drop headerSize = p.bytes :=
      List.take_append_drop headerSize p.bytes
    have htake := List.length_take_of_le hlength
    rcases setSackIndex_chain h hplain (p.bytes.take headerSize) with
      ⟨mid, hmid, hextends⟩
    rw [hsplit, htake] at hmid
    refine ⟨p.bytes.take headerSize, mid, ?_, htake, ?_, ?_⟩
    · rw [← hmid]
      exact if_neg hplain
    · intro i _ hlt
      exact List.getElem?_take_of_lt hlt
    · rw [getD_take_header]
      exact hextends

theorem setSack_chain {p : Packet} {bv payload : List UInt8} {exts : List Extension}
    (hbv : SackLength bv) (h : p.HasChain exts payload) :
    exists q, p.setSack bv = .ok q ∧ q.getType = p.getType ∧
      (forall f, q.getField f = p.getField f) ∧
      q.HasChain (exts ++ [⟨.selectiveAck, bv.take (bv.length % 256)⟩])
        (bv.drop (bv.length % 256) ++ payload) := by
  rcases setSackStart_chain h with ⟨head, mid, hstart, hhead, hsame, hextends⟩
  rw [← List.append_assoc, ← hhead, ← List.length_append] at hstart
  have hbytes := setSackBytes_of_start hbv hstart
  rw [List.append_assoc] at hbytes
  have hframe := setSackBytes_frame hbytes
  have hvalid := headerValid_congr p.headerValid
    (Nat.le_trans p.length_bytes hframe.1) hframe.2
  refine ⟨⟨_, hvalid⟩, setSack_eq_ok.mpr hbytes, ?_, ?_, ?_⟩
  · apply getType_eq_of_checkHeader
    rw [← p.checkHeader_bytes]
    exact checkHeader_congr p.length_bytes (headerValid_length hvalid) hframe.2
  · intro f
    have hpos := f.offset_pos
    have hend := f.fits
    unfold getField
    congr 1
    apply List.ext_getElem?
    intro i
    rw [getElem?_readRange, getElem?_readRange]
    split
    · rw [List.getElem?_append_left (by omega), hsame _ (by omega) (by omega)]
    · rfl
  · have hty : getExtensionType ⟨_, hvalid⟩ = .ofByte (head.getD 1 0) := by
      rw [getExtensionType, List.getD_append _ _ _ _ (by rw [hhead]; decide)]
    have hdata : bv ++ payload =
        bv.take (bv.length % 256) ++ (bv.drop (bv.length % 256) ++ payload) := by
      rw [← List.append_assoc, List.take_append_drop]
    unfold HasChain
    rw [hty, List.drop_left' hhead]
    apply hextends
    rw [hdata]
    refine Chain.block (by decide) ?_ (Chain.done _)
    rw [List.length_take, UInt8.toNat_ofNat']
    have := Nat.mod_le bv.length 256
    omega

theorem setSack_setField {p : Packet} {bv payload : List UInt8} (hbv : SackLength bv)
    (hplain : p.HasChain [] payload) (f : HeaderField) (n : Nat) :
    (p.setField f n).setSack bv = (p.setSack bv).map fun q => q.setField f n := by
  have hbytes := setSackBytes_plain hbv (chain_nil hplain).1
  have hfieldBytes := setSackBytes_plain hbv
    (chain_nil (hasChain_setField.mpr hplain : (p.setField f n).HasChain [] payload)).1
  rcases setSack_chain hbv hplain with ⟨q, hq, -⟩
  have hqbytes := setSack_eq_ok.mp hq
  rw [hbytes] at hqbytes
  have hpos := f.offset_pos
  have hwidth := length_toBE f.width n
  have hfits := f.fits
  have hlength := p.length_bytes
  have hsame : (q.setField f n).bytes =
      ((p.setField f n).bytes.set 1 1).take headerSize ++
        (0 :: UInt8.ofNat bv.length ::
          (bv ++ (p.setField f n).bytes.drop headerSize)) := by
    rw [drop_setField, bytes_setField, bytes_setField, ← Except.ok.inj hqbytes,
      overwrite_set (by omega) (by omega),
        overwrite_take (by omega) (by simpa using hlength)]
    refine overwrite_append ?_
    rw [List.length_take, List.length_set]
    omega
  rw [hq]
  show _ = Except.ok (q.setField f n)
  rw [setSack_eq_ok, hfieldBytes, hsame]

end Packet

end Utp
