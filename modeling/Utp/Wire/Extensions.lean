import Utp.Wire.Packet

/-!
# Extensions

Between header and payload a packet may carry a chain of extensions.  Each block
is one byte with the type of the next block, one length byte, and the data; the
type of the first block is byte one of the header.  The parser, the iterator,
the payload reader, and the SACK setter each walk that chain on their own.
-/

namespace Utp

open Foundation

/-!
## Parsing
-/

/-- The loop of `check_extensions`. -/
def checkExtensionsFrom (data : List UInt8) (index : Nat)
    (extensionType : ExtensionType) : Except ParseError Unit :=
  if index < data.length ∧ extensionType ≠ .none then
    if data.length < index + 2 then
      .error .invalidPacketLength
    else
      let len := (data.getD (index + 1) 0).toNat
      if len = 0 ∨ len % 4 ≠ 0 ∨ data.length < index + 2 + len then
        .error .invalidExtensionLength
      else
        checkExtensionsFrom data (index + (len + 2))
          (.ofByte (data.getD index 0))
  else if extensionType ≠ .none then
    .error .invalidPacketLength
  else
    .ok ()
  termination_by data.length - index

def checkExtensions (data : List UInt8) : Except ParseError Unit :=
  if data.length < headerSize then
    .error .invalidPacketLength
  else if data.length = headerSize ∧
      ExtensionType.ofByte (data.getD 1 0) ≠ .none then
    .error .invalidExtensionLength
  else
    checkExtensionsFrom data headerSize (.ofByte (data.getD 1 0))

/-- Decode a byte slice.  Everything behind the header is kept as it is. -/
def Packet.tryFrom (buf : List UInt8) : Except ParseError Packet :=
  match hheader : checkHeader buf with
  | .error e => .error e
  | .ok t =>
      match checkExtensions buf with
      | .error e => .error e
      | .ok () => .ok ⟨buf, t, hheader⟩

theorem Packet.tryFrom_eq_ok {buf : List UInt8} {p : Packet} :
    Packet.tryFrom buf = .ok p <->
      p.bytes = buf ∧ checkExtensions buf = .ok () := by
  unfold Packet.tryFrom
  split
  · rename_i e he
    constructor
    · intro h
      cases h
    · intro hcase
      rcases hcase with ⟨rfl, -⟩
      rw [p.checkHeader_bytes] at he
      cases he
  · rename_i t ht
    split
    · rename_i e he
      simp [he]
    · rename_i hext
      constructor
      · intro h
        cases h
        exact ⟨rfl, hext⟩
      · intro hcase
        rcases hcase with ⟨rfl, -⟩
        rfl

/-!
## Iteration
-/

structure Extension where
  ty : ExtensionType
  data : List UInt8
  deriving DecidableEq, Repr

def Extension.len (e : Extension) : Nat := e.data.length

def Extension.iter (e : Extension) : Except Panic (List Bool) :=
  BitIterator.collect (e.data.length * u8Bits) (BitIterator.fromBytes e.data)

theorem Extension.iter_eq (e : Extension) : e.iter = .ok (bits e.data) :=
  BitIterator.collect_fromBytes (Nat.le_refl _)

structure ExtensionIterator where
  rawBytes : List UInt8
  nextExtension : ExtensionType
  index : Nat

namespace ExtensionIterator

def new (packet : Packet) : ExtensionIterator where
  rawBytes := packet.bytes
  nextExtension := .ofByte (packet.bytes.getD 1 0)
  index := headerSize

def next (it : ExtensionIterator) :
    Except Panic (Option (Extension × ExtensionIterator)) :=
  if it.nextExtension = .none then
    return none
  else if it.index < it.rawBytes.length then do
    let len <- entryAt it.rawBytes (it.index + 1)
    let extensionStart := it.index + 2
    let data <- slice it.rawBytes extensionStart (extensionStart + len.toNat)
    let nextByte <- entryAt it.rawBytes it.index
    return some
      ({ ty := it.nextExtension, data := data },
        { it with
          nextExtension := .ofByte nextByte
          index := it.index + (len.toNat + 2) })
  else
    return none

theorem next_eq_some {it it' : ExtensionIterator} {e : Extension}
    (h : it.next = .ok (some (e, it'))) :
    it.index < it.rawBytes.length ∧ it.nextExtension ≠ .none ∧
      e.ty = it.nextExtension ∧ it'.rawBytes = it.rawBytes ∧
      it'.index = it.index + (e.data.length + 2) := by
  unfold next at h
  split at h
  · cases h
  · rename_i htype
    split at h
    · rename_i hindex
      rcases bind_eq_ok.mp h with ⟨len, -, h⟩
      rcases bind_eq_ok.mp h with ⟨data, hdata, h⟩
      rcases bind_eq_ok.mp h with ⟨nextByte, -, h⟩
      cases h
      have hlength : data.length = len.toNat := by
        rw [← (slice_eq_ok.mp hdata).2, List.length_take, List.length_drop]
        have := (slice_eq_ok.mp hdata).1
        omega
      exact ⟨hindex, htype, rfl, rfl, by simp only [hlength]⟩
    · cases h

def collect (it : ExtensionIterator) : Except Panic (List Extension) :=
  match _hnext : it.next with
  | .error e => .error e
  | .ok none => .ok []
  | .ok (some (e, it')) => (collect it').map (e :: ·)
  termination_by it.rawBytes.length - it.index
  decreasing_by
    have h := next_eq_some _hnext
    rw [h.2.2.2.1, h.2.2.2.2]
    omega

theorem collect_eq (it : ExtensionIterator) :
    it.collect = it.next.bind fun r =>
      match r with
      | none => .ok []
      | some (e, it') => it'.collect.map (e :: ·) := by
  rw [collect]
  split <;> rename_i h <;> rw [h] <;> rfl

section WithBytes

variable {it : ExtensionIterator} {bytes : List UInt8}

theorem next_withBytes (hlength : bytes.length = it.rawBytes.length)
    (hbytes : bytes.drop it.index = it.rawBytes.drop it.index) :
    next { it with rawBytes := bytes } =
      (next it).map (Option.map fun r => (r.1, { r.2 with rawBytes := bytes })) := by
  unfold next
  simp only [hlength, entryAt_of_drop (Nat.le_succ _) hbytes,
    entryAt_of_drop (Nat.le_refl _) hbytes,
    slice_of_drop (Nat.le_add_right _ 2) hlength hbytes]
  split
  · rfl
  · split
    · cases entryAt it.rawBytes (it.index + 1) with
      | error e => rfl
      | ok len =>
          simp only [bind, Except.bind]
          cases slice it.rawBytes (it.index + 2) (it.index + 2 + len.toNat) with
          | error e => rfl
          | ok data =>
              cases entryAt it.rawBytes it.index with
              | error e => rfl
              | ok nextByte => rfl
    · rfl

theorem collect_withBytes (hlength : bytes.length = it.rawBytes.length)
    (hbytes : bytes.drop it.index = it.rawBytes.drop it.index) :
    collect { it with rawBytes := bytes } = collect it := by
  induction it using collect.induct with
  | case1 it e he =>
      rw [collect_eq, collect_eq, next_withBytes hlength hbytes, he]
      rfl
  | case2 it hend =>
      rw [collect_eq, collect_eq, next_withBytes hlength hbytes, hend]
      rfl
  | case3 it e it' hnext ih =>
      rw [collect_eq, collect_eq, next_withBytes hlength hbytes, hnext]
      rcases next_eq_some hnext with ⟨-, -, -, hsame, hindex⟩
      have hrest := ih (by rw [hsame, hlength])
        (by
          rw [hsame]
          exact drop_of_drop (by omega) hbytes)
      show (collect { it' with rawBytes := bytes }).map _ = (collect it').map _
      rw [hrest]

end WithBytes

end ExtensionIterator

namespace Packet

def extensions (p : Packet) : Except Panic (List Extension) :=
  (ExtensionIterator.new p).collect

/-!
## Payload
-/

/-- The loop of `payload`: the index behind the last extension. -/
def payloadIndex (bytes : List UInt8) (index : Nat)
    (extensionType : ExtensionType) : Except Panic Nat :=
  if index < bytes.length ∧ extensionType ≠ .none then
    match bytes[index + 1]? with
    | none => .error .indexOutOfRange
    | some len =>
        payloadIndex bytes (index + (len.toNat + 2))
          (.ofByte (bytes.getD index 0))
  else
    .ok index
  termination_by bytes.length - index

def payload (p : Packet) : Except Panic (List UInt8) := do
  let index <- payloadIndex p.bytes headerSize (.ofByte (p.bytes.getD 1 0))
  slice p.bytes index p.bytes.length

/-!
## Selective acknowledgements
-/

/-- In the last extension of a chain, announce one more after it. -/
def announceSack (bytes : List UInt8) (index : Nat) : List UInt8 :=
  if ExtensionType.ofByte (bytes.getD index 0) = .none then
    bytes.set index ExtensionType.selectiveAck.toByte
  else
    bytes

@[simp] theorem length_announceSack (bytes : List UInt8) (index : Nat) :
    (announceSack bytes index).length = bytes.length := by
  unfold announceSack
  split <;> simp

theorem announceSack_first {bytes : List UInt8} {index : Nat} (h : 1 <= index) :
    (announceSack bytes index)[0]? = bytes[0]? := by
  unfold announceSack
  split
  · rw [List.getElem?_set_ne (by omega)]
  · rfl

/-- The loop of `set_sack`: walk to the last extension, mark it as having a
successor, and return the index behind it. -/
def setSackIndex (bytes : List UInt8) (index : Nat)
    (extensionType : ExtensionType) : Except Panic (List UInt8 × Nat) :=
  if index < bytes.length ∧ extensionType ≠ .none then
    match bytes[index + 1]? with
    | none => .error .indexOutOfRange
    | some len =>
        setSackIndex (announceSack bytes index) (index + (len.toNat + 2))
          (.ofByte (bytes.getD index 0))
  else
    .ok (bytes, index)
  termination_by bytes.length - index
  decreasing_by
    rw [length_announceSack]
    omega

def insertAll : List UInt8 -> Nat -> List UInt8 -> Except Panic (List UInt8)
  | bytes, _, [] => .ok bytes
  | bytes, index, value :: bv => do
      let bytes <- insertAt bytes index value
      insertAll bytes (index + 1) bv

/-- Where the new extension goes: behind the header when there is none yet, else
behind the last one.  Either way the type byte leading to it is updated. -/
def setSackStart (bytes : List UInt8) : Except Panic (List UInt8 × Nat) :=
  if ExtensionType.ofByte (bytes.getD 1 0) = .none then
    .ok (bytes.set 1 ExtensionType.selectiveAck.toByte, headerSize)
  else
    setSackIndex bytes headerSize (.ofByte (bytes.getD 1 0))

/-- The edit `set_sack` makes on the bytes of a packet.  The length byte keeps
only the low eight bits of the list's length. -/
def setSackBytes (bytes bv : List UInt8) : Except Panic (List UInt8) :=
  if bv.length < 4 ∨ bv.length % 4 ≠ 0 then
    .error .assertFailed
  else do
    let (bytes, index) <- setSackStart bytes
    let bytes <- insertAt bytes index ExtensionType.none.toByte
    let bytes <- insertAt bytes (index + 1) (UInt8.ofNat bv.length)
    insertAll bytes (index + 2) bv

theorem setSackIndex_frame {bytes out : List UInt8} {index stop : Nat}
    {extensionType : ExtensionType} (hindex : 1 <= index)
    (h : setSackIndex bytes index extensionType = .ok (out, stop)) :
    out.length = bytes.length ∧ out[0]? = bytes[0]? ∧ index <= stop := by
  induction bytes, index, extensionType using setSackIndex.induct with
  | case1 bytes index extensionType hcond hnone =>
      rw [setSackIndex, if_pos hcond, hnone] at h
      cases h
  | case2 bytes index extensionType hcond len hlen ih =>
      rw [setSackIndex, if_pos hcond, hlen] at h
      have hrest := ih (by omega) h
      refine ⟨?_, ?_, by omega⟩
      · rw [hrest.1, length_announceSack]
      · rw [hrest.2.1, announceSack_first hindex]
  | case3 bytes index extensionType hcond =>
      rw [setSackIndex, if_neg hcond] at h
      cases h
      exact ⟨rfl, rfl, Nat.le_refl _⟩

theorem insertAt_frame {bytes out : List UInt8} {index : Nat} {value : UInt8}
    (hindex : 1 <= index) (h : insertAt bytes index value = .ok out) :
    out.length = bytes.length + 1 ∧ out[0]? = bytes[0]? := by
  rcases insertAt_eq_ok.mp h with ⟨hle, rfl⟩
  exact ⟨List.length_insertIdx_of_le_length hle _,
    List.getElem?_insertIdx_of_lt hindex⟩

theorem insertAll_frame {bytes out bv : List UInt8} {index : Nat}
    (hindex : 1 <= index) (h : insertAll bytes index bv = .ok out) :
    out.length = bytes.length + bv.length ∧ out[0]? = bytes[0]? := by
  induction bv generalizing bytes index with
  | nil =>
      cases h
      exact ⟨rfl, rfl⟩
  | cons value bv ih =>
      rcases bind_eq_ok.mp h with ⟨mid, hmid, hrest⟩
      have hfirst := insertAt_frame hindex hmid
      have hlast := ih (by omega) hrest
      refine ⟨?_, hlast.2.trans hfirst.2⟩
      rw [hlast.1, hfirst.1, List.length_cons]
      omega

theorem setSackBytes_frame {bytes out bv : List UInt8}
    (h : setSackBytes bytes bv = .ok out) :
    bytes.length <= out.length ∧ out[0]? = bytes[0]? := by
  unfold setSackBytes at h
  split at h
  · cases h
  · rcases bind_eq_ok.mp h with ⟨⟨mid, index⟩, hmid, h⟩
    rcases bind_eq_ok.mp h with ⟨typed, htyped, h⟩
    rcases bind_eq_ok.mp h with ⟨sized, hsized, h⟩
    have hstart : mid.length = bytes.length ∧ mid[0]? = bytes[0]? ∧
        headerSize <= index := by
      unfold setSackStart at hmid
      split at hmid
      · cases hmid
        exact ⟨by simp, by simp, Nat.le_refl _⟩
      · exact setSackIndex_frame (by decide) hmid
    have hpos : 1 <= index := Nat.le_trans (by decide) hstart.2.2
    have htyped := insertAt_frame hpos htyped
    have hsized := insertAt_frame (by omega) hsized
    have hall := insertAll_frame (by omega) h
    refine ⟨by omega, ?_⟩
    rw [hall.2, hsized.2, htyped.2, hstart.2.1]

def setSack (p : Packet) (bv : List UInt8) : Except Panic Packet :=
  match h : setSackBytes p.bytes bv with
  | .error e => .error e
  | .ok bytes =>
      .ok ⟨bytes, headerValid_congr p.headerValid
        (Nat.le_trans p.length_bytes (setSackBytes_frame h).1)
        (setSackBytes_frame h).2⟩

theorem setSack_eq_ok {p q : Packet} {bv : List UInt8} :
    p.setSack bv = .ok q <-> setSackBytes p.bytes bv = .ok q.bytes := by
  unfold setSack
  split
  · rename_i e he
    simp [he]
  · rename_i bytes hbytes
    constructor
    · intro h
      cases h
      exact hbytes
    · intro h
      congr 1
      apply Packet.ext
      exact Except.ok.inj (hbytes.symm.trans h)

end Packet

end Utp
