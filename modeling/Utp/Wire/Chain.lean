import Utp.Wire.Extensions

/-!
# The grammar of an extension chain

One relation says how the bytes behind a header split into extension blocks and
a payload.  Each reader of the crate is compared with that relation, so the
readers agree with one another wherever it holds.
-/

namespace Utp

open Foundation

/-- The bytes of the third argument are the blocks of the listed extensions,
the first one having the given type, followed by the payload. -/
inductive Chain : ExtensionType -> List UInt8 -> List Extension ->
    List UInt8 -> Prop where
  | done (payload : List UInt8) : Chain .none payload [] payload
  | block {ty : ExtensionType} {nextByte len : UInt8} {data tail payload : List UInt8}
      {exts : List Extension} :
      ty ≠ .none ->
      data.length = len.toNat ->
      Chain (.ofByte nextByte) tail exts payload ->
      Chain ty (nextByte :: len :: (data ++ tail)) (⟨ty, data⟩ :: exts) payload

theorem chain_nil {ty : ExtensionType} {bytes payload : List UInt8}
    (h : Chain ty bytes [] payload) : ty = .none ∧ bytes = payload := by
  cases h
  exact ⟨rfl, rfl⟩

theorem chain_none {bytes payload : List UInt8} {exts : List Extension}
    (h : Chain .none bytes exts payload) : exts = [] ∧ bytes = payload := by
  cases h with
  | done payload => exact ⟨rfl, rfl⟩
  | block htype hlen hchain => exact absurd rfl htype

theorem Chain.append {ty : ExtensionType} {bytes payload : List UInt8}
    {exts : List Extension} (h : Chain ty bytes exts payload) (more : List UInt8) :
    Chain ty (bytes ++ more) exts (payload ++ more) := by
  induction h with
  | done payload => exact Chain.done (payload ++ more)
  | block htype hlen hchain ih =>
      rw [List.cons_append, List.cons_append, List.append_assoc]
      exact Chain.block htype hlen ih

theorem Chain.length_data {ty : ExtensionType} {bytes payload : List UInt8}
    {exts : List Extension} {e : Extension} (h : Chain ty bytes exts payload)
    (he : e ∈ exts) : e.data.length < 256 := by
  induction h with
  | done payload => cases he
  | block htype hlen hchain ih =>
      rename_i len data tail payload exts
      rcases List.mem_cons.mp he with rfl | he
      · have := len.toNat_lt
        simp only
        omega
      · exact ih he

theorem drop_block {bytes data tail : List UInt8} {index : Nat}
    {nextByte len : UInt8}
    (h : bytes.drop index = nextByte :: len :: (data ++ tail)) :
    bytes[index]? = some nextByte ∧ bytes[index + 1]? = some len ∧
      (bytes.drop (index + 2)).take data.length = data ∧
      bytes.drop (index + (data.length + 2)) = tail ∧
      bytes.length = index + 2 + data.length + tail.length := by
  have hlength : bytes.length - index = data.length + tail.length + 2 := by
    rw [← List.length_drop, h]
    simp
  have hget : forall i, bytes[index + i]? =
      (nextByte :: len :: (data ++ tail))[i]? := by
    intro i
    rw [← h, List.getElem?_drop]
  have hdrop : bytes.drop (index + 2) = data ++ tail := by
    rw [← List.drop_drop, h]
    rfl
  refine ⟨hget 0, hget 1, by rw [hdrop]; simp, ?_, by omega⟩
  rw [show index + (data.length + 2) = index + 2 + data.length by omega,
    ← List.drop_drop, hdrop]
  simp

theorem slice_block {bytes data tail : List UInt8} {index : Nat} {nextByte len : UInt8}
    (h : bytes.drop index = nextByte :: len :: (data ++ tail))
    (hlen : data.length = len.toNat) :
    slice bytes (index + 2) (index + 2 + len.toNat) = .ok data := by
  rcases drop_block h with ⟨-, -, hdata, -, hlength⟩
  rw [slice_eq_ok, ← hlen]
  exact ⟨⟨by omega, by omega⟩, by rw [Nat.add_sub_cancel_left, hdata]⟩

theorem Chain.collect {bytes tail payload : List UInt8} {ty : ExtensionType}
    {exts : List Extension} {index : Nat} (hchain : Chain ty tail exts payload)
    (htail : bytes.drop index = tail) :
    (ExtensionIterator.mk bytes ty index).collect = .ok exts := by
  induction hchain generalizing index with
  | done payload =>
      rw [ExtensionIterator.collect_eq]
      rfl
  | block htype hlen hchain ih =>
      rename_i ty nextByte len data tail payload exts
      rcases drop_block htail with ⟨hnext, hlenByte, -, hrest, hlength⟩
      have hslice := slice_block htail hlen
      have hstep : (ExtensionIterator.mk bytes ty index).next =
          .ok (some (⟨ty, data⟩,
            ⟨bytes, .ofByte nextByte, index + (len.toNat + 2)⟩)) := by
        unfold ExtensionIterator.next
        rw [if_neg htype, if_pos (by simp only; omega),
          entryAt_eq_ok.mpr hlenByte]
        simp only [bind, Except.bind, hslice, entryAt_eq_ok.mpr hnext]
        rfl
      rw [hlen] at hrest
      have hih := ih hrest
      rw [ExtensionIterator.collect_eq, hstep]
      show (ExtensionIterator.collect _).map _ = _
      rw [hih]
      rfl

theorem Chain.payloadIndex {bytes tail payload : List UInt8} {ty : ExtensionType}
    {exts : List Extension} {index : Nat} (hchain : Chain ty tail exts payload)
    (htail : bytes.drop index = tail) (hindex : index <= bytes.length) :
    exists stop, Packet.payloadIndex bytes index ty = .ok stop ∧
      stop <= bytes.length ∧ bytes.drop stop = payload := by
  induction hchain generalizing index with
  | done payload =>
      refine ⟨index, ?_, hindex, htail⟩
      rw [Packet.payloadIndex, if_neg (by simp)]
  | block htype hlen hchain ih =>
      rename_i ty nextByte len data tail payload exts
      rcases drop_block htail with ⟨hnext, hlenByte, -, hrest, hlength⟩
      rw [hlen] at hrest
      rcases ih hrest (by omega) with ⟨stop, hstop, hle, hpayload⟩
      refine ⟨stop, ?_, hle, hpayload⟩
      rw [Packet.payloadIndex, if_pos ⟨by omega, htype⟩, hlenByte]
      simpa [List.getD, hnext] using hstop

theorem drop_eq_block {data : List UInt8} {index : Nat} (hlong : index + 1 < data.length)
    (len : Nat) :
    data.drop index =
      data.getD index 0 :: data.getD (index + 1) 0 ::
        ((data.drop (index + 2)).take len ++ data.drop (index + (len + 2))) := by
  have hfirst : index < data.length := by omega
  have hdrop : data.drop (index + (len + 2)) = (data.drop (index + 2)).drop len := by
    rw [List.drop_drop]
    congr 1
    omega
  rw [hdrop, List.take_append_drop, List.drop_eq_getElem_cons hfirst,
    List.drop_eq_getElem_cons hlong]
  simp [List.getD, hfirst, hlong]

/-- What the parser accepts is a chain whose blocks hold a positive multiple of
four data bytes. -/
theorem checkExtensionsFrom_chain {data : List UInt8} {index : Nat}
    {ty : ExtensionType} (h : checkExtensionsFrom data index ty = .ok ()) :
    exists exts payload, Chain ty (data.drop index) exts payload ∧
      forall e, e ∈ exts -> 0 < e.data.length ∧ e.data.length % 4 = 0 := by
  induction index, ty using checkExtensionsFrom.induct data with
  | case1 index ty hcond hshort =>
      rw [checkExtensionsFrom, if_pos hcond, if_pos hshort] at h
      cases h
  | case2 index ty hcond hshort len hbad =>
      rw [checkExtensionsFrom, if_pos hcond, if_neg hshort] at h
      simp only at h
      rw [if_pos hbad] at h
      cases h
  | case3 index ty hcond hshort len hgood ih =>
      rw [checkExtensionsFrom, if_pos hcond, if_neg hshort] at h
      simp only at h
      rw [if_neg hgood] at h
      rcases ih h with ⟨exts, payload, hchain, hexts⟩
      have hlen : len = (data.getD (index + 1) 0).toNat := rfl
      have hdata : ((data.drop (index + 2)).take len).length = len := by
        rw [List.length_take, List.length_drop]
        omega
      refine ⟨⟨ty, (data.drop (index + 2)).take len⟩ :: exts, payload, ?_, ?_⟩
      · rw [drop_eq_block (by omega) len]
        exact Chain.block hcond.2 (hdata.trans hlen) hchain
      · intro e he
        rcases List.mem_cons.mp he with rfl | he
        · simp only [hdata]
          omega
        · exact hexts e he
  | case4 index ty hcond hpending =>
      rw [checkExtensionsFrom, if_neg hcond, if_pos hpending] at h
      cases h
  | case5 index ty hcond hdone =>
      have hty : ty = .none := not_not.mp hdone
      rw [hty]
      exact ⟨[], _, Chain.done _, by simp⟩

theorem chain_of_checkExtensions {buf : List UInt8} (h : checkExtensions buf = .ok ()) :
    headerSize <= buf.length ∧
      exists exts payload,
        Chain (.ofByte (buf.getD 1 0)) (buf.drop headerSize) exts payload ∧
        forall e, e ∈ exts -> 0 < e.data.length ∧ e.data.length % 4 = 0 := by
  unfold checkExtensions at h
  split at h
  · cases h
  · rename_i hlong
    split at h
    · cases h
    · exact ⟨Nat.le_of_not_lt hlong, checkExtensionsFrom_chain h⟩

namespace Packet

/-- The bytes behind the header of `p` are these extensions and this payload. -/
def HasChain (p : Packet) (exts : List Extension) (payload : List UInt8) : Prop :=
  Chain p.getExtensionType (p.bytes.drop headerSize) exts payload

theorem HasChain.extensions {p : Packet} {exts : List Extension}
    {payload : List UInt8} (h : p.HasChain exts payload) :
    p.extensions = .ok exts :=
  Chain.collect h rfl

theorem HasChain.payload {p : Packet} {exts : List Extension}
    {payload : List UInt8} (h : p.HasChain exts payload) :
    p.payload = .ok payload := by
  rcases Chain.payloadIndex h rfl p.length_bytes with ⟨stop, hstop, hle, hdrop⟩
  show (Packet.payloadIndex p.bytes headerSize p.getExtensionType >>= _) = _
  rw [hstop]
  show slice p.bytes stop p.bytes.length = _
  rw [slice_eq_ok]
  refine ⟨⟨hle, Nat.le_refl _⟩, ?_⟩
  rw [hdrop, List.take_of_length_le]
  rw [← hdrop, List.length_drop]

theorem hasChain_of_tryFrom {buf : List UInt8} {p : Packet}
    (h : Packet.tryFrom buf = .ok p) :
    exists exts payload, p.HasChain exts payload ∧
      forall e, e ∈ exts -> 0 < e.data.length ∧ e.data.length % 4 = 0 := by
  rcases tryFrom_eq_ok.mp h with ⟨rfl, hcheck⟩
  exact (chain_of_checkExtensions hcheck).2

end Packet

end Utp
