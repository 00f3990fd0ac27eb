import Utp.Foundation.Bytes
import Utp.Wire.BitIterator

/-!
# Packets

A packet is its bytes.  The header occupies the first twenty of them; getters
and setters read and write it in place, in network byte order.  Every packet
the crate can build has a complete header with version one and a known type, so
the structure carries that as a field and reading the type never aborts.
-/

namespace Utp

open Foundation

def headerSize : Nat := 20

/-- The checks `PacketHeader::try_from` makes on a byte slice. -/
def checkHeader (buf : List UInt8) : Except ParseError PacketType :=
  if buf.length < headerSize then
    .error .invalidPacketLength
  else if buf.getD 0 0 &&& 0x0F ≠ 1 then
    .error .unsupportedVersion
  else
    PacketType.tryFrom (buf.getD 0 0 >>> 4)

def HeaderValid (bytes : List UInt8) : Prop :=
  exists t, checkHeader bytes = .ok t

theorem headerValid_length {bytes : List UInt8} (h : HeaderValid bytes) :
    headerSize <= bytes.length := by
  rcases h with ⟨t, ht⟩
  unfold checkHeader at ht
  split at ht
  · cases ht
  · omega

theorem checkHeader_congr {bytes other : List UInt8}
    (hlength : headerSize <= bytes.length) (hother : headerSize <= other.length)
    (hfirst : other[0]? = bytes[0]?) :
    checkHeader other = checkHeader bytes := by
  have hget : other.getD 0 0 = bytes.getD 0 0 := by
    simp [List.getD, hfirst]
  unfold checkHeader
  rw [if_neg (Nat.not_lt.mpr hother), if_neg (Nat.not_lt.mpr hlength), hget]

theorem headerValid_congr {bytes other : List UInt8} (h : HeaderValid bytes)
    (hother : headerSize <= other.length) (hfirst : other[0]? = bytes[0]?) :
    HeaderValid other := by
  rcases h with ⟨t, ht⟩
  have hlength := headerValid_length ⟨t, ht⟩
  exact ⟨t, (checkHeader_congr hlength hother hfirst).trans ht⟩

structure Packet where
  bytes : List UInt8
  headerValid : HeaderValid bytes

namespace Packet

@[ext] theorem ext {p q : Packet} (h : p.bytes = q.bytes) : p = q := by
  cases p
  cases q
  cases h
  rfl

instance : DecidableEq Packet := fun p q =>
  decidable_of_iff (p.bytes = q.bytes) ⟨ext, fun h => by rw [h]⟩

theorem length_bytes (p : Packet) : headerSize <= p.bytes.length :=
  headerValid_length p.headerValid

def len (p : Packet) : Nat := p.bytes.length

/-!
## Type and version
-/

/-- The type nibble, decoded.  The `unwrap` of the source cannot fail. -/
def getType (p : Packet) : PacketType :=
  match checkHeader p.bytes with
  | .ok t => t
  | .error _ => .data

def getVersion (p : Packet) : UInt8 := p.bytes.getD 0 0 &&& 0x0F

def getExtensionType (p : Packet) : ExtensionType :=
  ExtensionType.ofByte (p.bytes.getD 1 0)

theorem checkHeader_bytes (p : Packet) : checkHeader p.bytes = .ok p.getType := by
  rcases p.headerValid with ⟨t, ht⟩
  simp [getType, ht]

theorem getType_eq_of_checkHeader {p : Packet} {t : PacketType}
    (h : checkHeader p.bytes = .ok t) : p.getType = t := by
  simp [getType, h]

theorem checkHeader_typed {bytes : List UInt8} {t : PacketType} {version : UInt8}
    (hversion : version &&& 0x0F = 1) (hlength : headerSize <= bytes.length)
    (hfirst : bytes[0]? = some (t.toByte <<< 4 ||| (0x0F &&& version))) :
    checkHeader bytes = .ok t := by
  have hget : bytes.getD 0 0 = t.toByte <<< 4 ||| 1 := by
    rw [List.getD, hfirst, UInt8.and_comm, hversion]
    rfl
  rw [checkHeader, if_neg (by omega), hget]
  cases t <;> rfl

theorem getVersion_eq (p : Packet) : p.getVersion = 1 := by
  have h := checkHeader_bytes p
  unfold checkHeader at h
  split at h
  · cases h
  · split at h
    · cases h
    · rename_i hversion
      exact not_not.mp hversion

def setType (p : Packet) (t : PacketType) : Packet where
  bytes := p.bytes.set 0 (t.toByte <<< 4 ||| (0x0F &&& p.bytes.getD 0 0))
  headerValid := by
    have hlength := p.length_bytes
    refine ⟨t, checkHeader_typed (getVersion_eq p) (by simpa using hlength) ?_⟩
    have hpos : 0 < p.bytes.length := Nat.lt_of_lt_of_le (by decide) hlength
    simp [hpos]

/-!
## Header fields

The six multi-byte fields lie side by side behind the first two bytes.  The
getter and setter macros of the source become one getter and one setter with
the field as a parameter.
-/

inductive HeaderField where
  | connectionId
  | timestamp
  | timestampDifference
  | wndSize
  | seqNr
  | ackNr
  deriving DecidableEq, Repr

def HeaderField.offset : HeaderField -> Nat
  | .connectionId => 2
  | .timestamp => 4
  | .timestampDifference => 8
  | .wndSize => 12
  | .seqNr => 16
  | .ackNr => 18

def HeaderField.width : HeaderField -> Nat
  | .connectionId | .seqNr | .ackNr => 2
  | .timestamp | .timestampDifference | .wndSize => 4

theorem HeaderField.offset_pos (f : HeaderField) : 2 <= f.offset := by
  cases f <;> decide

theorem HeaderField.fits (f : HeaderField) : f.offset + f.width <= headerSize := by
  cases f <;> decide

theorem HeaderField.disjoint {f g : HeaderField} (h : f ≠ g) :
    f.offset + f.width <= g.offset ∨ g.offset + g.width <= f.offset := by
  cases f <;> cases g <;> first | exact absurd rfl h | decide

theorem field_fits (p : Packet) (f : HeaderField) (n : Nat) :
    f.offset + (toBE f.width n).length <= p.bytes.length := by
  rw [length_toBE]
  exact Nat.le_trans f.fits p.length_bytes

def getField (p : Packet) (f : HeaderField) : Nat :=
  ofBE (readRange f.offset f.width p.bytes)

def setField (p : Packet) (f : HeaderField) (n : Nat) : Packet where
  bytes := overwrite f.offset (toBE f.width n) p.bytes
  headerValid := by
    have hfits := p.field_fits f n
    refine headerValid_congr p.headerValid ?_ ?_
    · rw [length_overwrite hfits]
      exact p.length_bytes
    · have hpos := f.offset_pos
      rw [getElem?_overwrite hfits, if_neg (by omega)]

def connectionId (p : Packet) : UInt16 := UInt16.ofNat (p.getField .connectionId)
def wndSize (p : Packet) : UInt32 := UInt32.ofNat (p.getField .wndSize)
def seqNr (p : Packet) : UInt16 := UInt16.ofNat (p.getField .seqNr)
def ackNr (p : Packet) : UInt16 := UInt16.ofNat (p.getField .ackNr)
def timestamp (p : Packet) : Timestamp := ⟨UInt32.ofNat (p.getField .timestamp)⟩

def timestampDifference (p : Packet) : Delay :=
  ⟨(UInt32.ofNat (p.getField .timestampDifference)).toNat⟩

def setConnectionId (p : Packet) (new : UInt16) : Packet :=
  p.setField .connectionId new.toNat
def setWndSize (p : Packet) (new : UInt32) : Packet :=
  p.setField .wndSize new.toNat
def setSeqNr (p : Packet) (new : UInt16) : Packet := p.setField .seqNr new.toNat
def setAckNr (p : Packet) (new : UInt16) : Packet := p.setField .ackNr new.toNat
def setTimestamp (p : Packet) (new : Timestamp) : Packet :=
  p.setField .timestamp new.val.toNat
def setTimestampDifference (p : Packet) (delay : Delay) : Packet :=
  p.setField .timestampDifference delay.toU32.toNat

/-!
## Construction
-/

def defaultHeader : List UInt8 :=
  (PacketType.data.toByte <<< 4 ||| 1) :: List.replicate 19 0

def new : Packet where
  bytes := defaultHeader
  headerValid := ⟨.data, by decide⟩

def withPayload (payload : List UInt8) : Packet where
  bytes := defaultHeader ++ payload
  headerValid := by
    have hdefault : HeaderValid defaultHeader := ⟨.data, by decide⟩
    refine headerValid_congr hdefault ?_ rfl
    simp [defaultHeader, headerSize]

end Packet

end Utp
