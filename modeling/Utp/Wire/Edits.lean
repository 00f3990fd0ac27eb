import Utp.Wire.Grammar
import Utp.Wire.PacketLaws

/-!
# Editing a packet

Any sequence of setter calls on a packet with a payload leaves bytes that the
parser accepts and from which every reader gets back what was put in.  The
header setters write in place; `set_sack` walks to the end of the extension
chain and inserts there, in front of the payload.
-/

namespace Utp

open Foundation

namespace Packet

theorem getField_setType (p : Packet) (t : PacketType) (f : HeaderField) :
    (p.setType t).getField f = p.getField f := by
  have hpos := f.offset_pos
  unfold getField
  congr 1
  apply List.ext_getElem?
  intro i
  rw [getElem?_readRange, getElem?_readRange, setType, List.getElem?_set_ne (by omega)]

theorem readRange_field (p : Packet) (f : HeaderField) :
    readRange f.offset f.width p.bytes = toBE f.width (p.getField f) := by
  have hfit := Nat.le_trans f.fits p.length_bytes
  conv => rhs; rw [← length_readRange hfit]
  exact (toBE_ofBE _).symm

end Packet

/-!
## Edits
-/

/-- One call of a setter. -/
inductive Edit where
  | setType (t : PacketType)
  | setTimestamp (timestamp : Timestamp)
  | setTimestampDifference (delay : Delay)
  | setConnectionId (new : UInt16)
  | setWndSize (new : UInt32)
  | setSeqNr (new : UInt16)
  | setAckNr (new : UInt16)
  | setSack (bv : List UInt8)

def Edit.apply : Edit -> Packet -> Except Panic Packet
  | .setType t, p => .ok (p.setType t)
  | .setTimestamp timestamp, p => .ok (p.setTimestamp timestamp)
  | .setTimestampDifference delay, p => .ok (p.setTimestampDifference delay)
  | .setConnectionId new, p => .ok (p.setConnectionId new)
  | .setWndSize new, p => .ok (p.setWndSize new)
  | .setSeqNr new, p => .ok (p.setSeqNr new)
  | .setAckNr new, p => .ok (p.setAckNr new)
  | .setSack bv, p => p.setSack bv

def applyEdits : List Edit -> Packet -> Except Panic Packet
  | [], p => .ok p
  | edit :: edits, p => do
      let p <- edit.apply p
      applyEdits edits p

/-- A delay fits into its field, and a SACK has a length its length byte can
state. -/
def Edit.Legal : Edit -> Prop
  | .setTimestampDifference delay => 0 <= delay.val ∧ delay.val < 2 ^ 32
  | .setSack bv => bv.length % 4 = 0 ∧ 4 <= bv.length ∧ bv.length <= 252
  | _ => True

/-- What the setters have put into a packet so far. -/
structure Contents where
  packetType : PacketType
  timestamp : Timestamp
  timestampDifference : Delay
  connectionId : UInt16
  wndSize : UInt32
  seqNr : UInt16
  ackNr : UInt16
  sacks : List (List UInt8)

def Contents.default : Contents where
  packetType := .data
  timestamp := ⟨0⟩
  timestampDifference := ⟨0⟩
  connectionId := 0
  wndSize := 0
  seqNr := 0
  ackNr := 0
  sacks := []

/-- A header setter replaces the last value, a SACK is added behind the others. -/
def Contents.record (c : Contents) : Edit -> Contents
  | .setType t => { c with packetType := t }
  | .setTimestamp timestamp => { c with timestamp := timestamp }
  | .setTimestampDifference delay => { c with timestampDifference := delay }
  | .setConnectionId new => { c with connectionId := new }
  | .setWndSize new => { c with wndSize := new }
  | .setSeqNr new => { c with seqNr := new }
  | .setAckNr new => { c with ackNr := new }
  | .setSack bv => { c with sacks := c.sacks ++ [bv] }

def Contents.field (c : Contents) : Packet.HeaderField -> Nat
  | .connectionId => c.connectionId.toNat
  | .timestamp => c.timestamp.val.toNat
  | .timestampDifference => c.timestampDifference.toU32.toNat
  | .wndSize => c.wndSize.toNat
  | .seqNr => c.seqNr.toNat
  | .ackNr => c.ackNr.toNat

def Edit.field : Edit -> Option Packet.HeaderField
  | .setTimestamp _ => some .timestamp
  | .setTimestampDifference _ => some .timestampDifference
  | .setConnectionId _ => some .connectionId
  | .setWndSize _ => some .wndSize
  | .setSeqNr _ => some .seqNr
  | .setAckNr _ => some .ackNr
  | .setType _ | .setSack _ => none

theorem Contents.field_record_of_ne (c : Contents) {edit : Edit}
    {g : Packet.HeaderField} (h : edit.field ≠ some g) :
    (c.record edit).field g = c.field g := by
  cases edit <;> cases g <;> first | rfl | exact absurd rfl h

def Contents.extensions (c : Contents) : List Extension :=
  c.sacks.map fun bv => ⟨.selectiveAck, bv⟩

/-- The packet holds these contents, field by field. -/
structure Holds (p : Packet) (c : Contents) (payload : List UInt8) : Prop where
  getType : p.getType = c.packetType
  fields : forall f, p.getField f = c.field f
  chain : p.HasChain c.extensions payload
  sacks : forall e, e ∈ c.extensions -> e.WellFormed
  delay : 0 <= c.timestampDifference.val ∧ c.timestampDifference.val < 2 ^ 32

theorem holds_default (payload : List UInt8) :
    Holds (Packet.withPayload payload) Contents.default payload where
  getType := Packet.getType_withPayload payload
  fields := by
    intro f
    have hread : readRange f.offset f.width (Packet.defaultHeader ++ payload) =
        readRange f.offset f.width Packet.defaultHeader := by
      apply List.ext_getElem?
      intro i
      have hfits := f.fits
      rw [getElem?_readRange, getElem?_readRange]
      split
      · rw [List.getElem?_append_left]
        change f.offset + i < headerSize
        omega
      · rfl
    change ofBE (readRange f.offset f.width (Packet.defaultHeader ++ payload)) = _
    rw [hread]
    cases f <;> decide
  chain := Packet.hasChain_withPayload payload
  sacks := by
    intro e he
    cases he
  delay := by decide

theorem Contents.field_lt (c : Contents) (f : Packet.HeaderField) :
    c.field f < 256 ^ f.width := by
  cases f with
  | connectionId => exact c.connectionId.toNat_lt
  | timestamp => exact c.timestamp.val.toNat_lt
  | timestampDifference => exact c.timestampDifference.toU32.toNat_lt
  | wndSize => exact c.wndSize.toNat_lt
  | seqNr => exact c.seqNr.toNat_lt
  | ackNr => exact c.ackNr.toNat_lt

theorem Holds.setField {p : Packet} {c c' : Contents} {payload : List UInt8}
    (h : Holds p c payload) (f : Packet.HeaderField)
    (htype : c'.packetType = c.packetType) (hsacks : c'.sacks = c.sacks)
    (hdelay : 0 <= c'.timestampDifference.val ∧ c'.timestampDifference.val < 2 ^ 32)
    (hother : forall g, some f ≠ some g -> c'.field g = c.field g) :
    Holds (p.setField f (c'.field f)) c' payload where
  getType := by rw [Packet.getType_setField, h.getType, htype]
  fields := by
    intro g
    rw [Packet.getField_setField]
    split
    · rename_i hsame
      rw [hsame, Nat.mod_eq_of_lt (c'.field_lt f)]
    · rename_i hne
      rw [h.fields, hother g fun hsame => hne (Option.some.inj hsame).symm]
  chain := by
    rw [Packet.hasChain_setField, Contents.extensions, hsacks]
    exact h.chain
  sacks := by
    rw [Contents.extensions, hsacks]
    exact h.sacks
  delay := hdelay

theorem Holds.setSack {p : Packet} {c : Contents} {payload bv : List UInt8}
    (h : Holds p c payload) (hlegal : (Edit.setSack bv).Legal) :
    exists q, (Edit.setSack bv).apply p = .ok q ∧
      Holds q (c.record (.setSack bv)) payload := by
  rcases hlegal with ⟨hmod, hlow, hhigh⟩
  rcases Packet.setSack_chain ⟨hlow, hmod⟩ h.chain with ⟨q, hq, htype, hfields, hchain⟩
  have hshort : bv.length < 256 := by omega
  rw [Nat.mod_eq_of_lt hshort, List.take_length, List.drop_length] at hchain
  have hextensions : (c.record (.setSack bv)).extensions =
      c.extensions ++ [⟨.selectiveAck, bv⟩] := by
    simp [Contents.record, Contents.extensions]
  refine ⟨q, hq,
    { getType := htype.trans h.getType
      fields := ?_
      chain := by
        rw [hextensions]
        exact hchain
      sacks := ?_
      delay := h.delay }⟩
  · intro f
    have hframe : (c.record (.setSack bv)).field f = c.field f :=
      c.field_record_of_ne (Option.some_ne_none f).symm
    rw [hfields, h.fields, hframe]
  · intro e he
    rw [hextensions] at he
    rcases List.mem_append.mp he with hold | hnew
    · exact h.sacks e hold
    · cases List.mem_singleton.mp hnew
      exact ⟨Nat.lt_of_lt_of_le (by decide) hlow, hmod⟩

theorem Holds.apply {p : Packet} {c : Contents} {payload : List UInt8}
    (h : Holds p c payload) {edit : Edit} (hlegal : edit.Legal) :
    exists q, edit.apply p = .ok q ∧ Holds q (c.record edit) payload := by
  have hset := fun f => @Holds.setField p c (c.record edit) payload h f
  have hframe := fun g => @Contents.field_record_of_ne c edit g
  cases edit with
  | setType t =>
      refine ⟨p.setType t, rfl,
        { getType := Packet.getType_setType p t
          fields := ?_
          chain := Packet.hasChain_setType.mpr h.chain
          sacks := h.sacks
          delay := h.delay }⟩
      intro f
      rw [Packet.getField_setType, h.fields, hframe f (Option.some_ne_none f).symm]
  | setTimestamp timestamp =>
      exact ⟨_, rfl, hset .timestamp rfl rfl h.delay hframe⟩
  | setTimestampDifference delay =>
      exact ⟨_, rfl, hset .timestampDifference rfl rfl hlegal hframe⟩
  | setConnectionId new =>
      exact ⟨_, rfl, hset .connectionId rfl rfl h.delay hframe⟩
  | setWndSize new =>
      exact ⟨_, rfl, hset .wndSize rfl rfl h.delay hframe⟩
  | setSeqNr new =>
      exact ⟨_, rfl, hset .seqNr rfl rfl h.delay hframe⟩
  | setAckNr new =>
      exact ⟨_, rfl, hset .ackNr rfl rfl h.delay hframe⟩
  | setSack bv => exact h.setSack hlegal

theorem Holds.applyEdits {p : Packet} {c : Contents} {payload : List UInt8}
    (h : Holds p c payload) {edits : List Edit}
    (hlegal : forall edit, edit ∈ edits -> edit.Legal) :
    exists q, Utp.applyEdits edits p = .ok q ∧
      Holds q (edits.foldl Contents.record c) payload := by
  induction edits generalizing p c with
  | nil => exact ⟨p, rfl, h⟩
  | cons edit edits ih =>
      rcases h.apply (hlegal edit (List.mem_cons_self ..)) with ⟨q, hq, hholds⟩
      rcases ih hholds fun later hlater =>
        hlegal later (List.mem_cons_of_mem _ hlater) with
        ⟨last, hlast, hfinal⟩
      exists last
      constructor
      · rw [Utp.applyEdits, hq]
        exact hlast
      · exact hfinal

/-!
## The round trip
-/

/-- Every reader of the packet shows these contents and this payload. -/
structure Shows (p : Packet) (c : Contents) (payload : List UInt8) : Prop where
  accepted : Packet.tryFrom p.bytes = .ok p
  getVersion : p.getVersion = 1
  getType : p.getType = c.packetType
  timestamp : p.timestamp = c.timestamp
  timestampDifference : p.timestampDifference = c.timestampDifference
  connectionId : p.connectionId = c.connectionId
  wndSize : p.wndSize = c.wndSize
  seqNr : p.seqNr = c.seqNr
  ackNr : p.ackNr = c.ackNr
  bigEndian :
    readRange 2 2 p.bytes = toBE 2 c.connectionId.toNat ∧
    readRange 4 4 p.bytes = toBE 4 c.timestamp.val.toNat ∧
    readRange 8 4 p.bytes = toBE 4 c.timestampDifference.val.toNat ∧
    readRange 12 4 p.bytes = toBE 4 c.wndSize.toNat ∧
    readRange 16 2 p.bytes = toBE 2 c.seqNr.toNat ∧
    readRange 18 2 p.bytes = toBE 2 c.ackNr.toNat
  extensions : p.extensions = .ok (c.sacks.map fun bv => ⟨.selectiveAck, bv⟩)
  payload : p.payload = .ok payload

theorem toNat_toU32 {delay : Delay} (hlow : 0 <= delay.val) (hhigh : delay.val < 2 ^ 32) :
    (delay.toU32.toNat : Int) = delay.val := by
  unfold Delay.toU32 UInt32.ofInt
  rw [UInt32.toNat_ofNat']
  omega

theorem Holds.shows {p : Packet} {c : Contents} {payload : List UInt8}
    (h : Holds p c payload) : Shows p c payload := by
  have hstored : forall f : Packet.HeaderField,
      readRange f.offset f.width p.bytes = toBE f.width (c.field f) := by
    intro f
    rw [p.readRange_field, h.fields]
  have hdelay := toNat_toU32 h.delay.1 h.delay.2
  have hcheck := checkExtensions_of_chain p.length_bytes h.chain h.sacks
  exact
    { accepted := Packet.tryFrom_eq_ok.mpr ⟨rfl, hcheck⟩
      getVersion := p.getVersion_eq
      getType := h.getType
      timestamp := by
        rw [Packet.timestamp, h.fields, Contents.field, UInt32.ofNat_toNat]
      timestampDifference := by
        rw [Packet.timestampDifference, h.fields, Contents.field,
          UInt32.ofNat_toNat, hdelay]
      connectionId := by
        rw [Packet.connectionId, h.fields, Contents.field, UInt16.ofNat_toNat]
      wndSize := by
        rw [Packet.wndSize, h.fields, Contents.field, UInt32.ofNat_toNat]
      seqNr := by
        rw [Packet.seqNr, h.fields, Contents.field, UInt16.ofNat_toNat]
      ackNr := by
        rw [Packet.ackNr, h.fields, Contents.field, UInt16.ofNat_toNat]
      bigEndian := by
        have hdifference := hstored .timestampDifference
        rw [Contents.field, show c.timestampDifference.toU32.toNat =
          c.timestampDifference.val.toNat by omega] at hdifference
        exact ⟨hstored .connectionId, hstored .timestamp, hdifference,
          hstored .wndSize, hstored .seqNr, hstored .ackNr⟩
      extensions := h.chain.extensions
      payload := h.chain.payload }

/-- Legal edits in any number and order leave a packet that the parser accepts
and that shows the last value of each field, the SACKs in the order they were
set, and the payload. -/
theorem codec_roundTrip (payload : List UInt8) {edits : List Edit}
    (hlegal : forall edit, edit ∈ edits -> edit.Legal) :
    exists p, applyEdits edits (Packet.withPayload payload) = .ok p ∧
      Shows p (edits.foldl Contents.record Contents.default) payload := by
  rcases (holds_default payload).applyEdits hlegal with ⟨p, hp, hholds⟩
  exact ⟨p, hp, hholds.shows⟩

def sampleEdits : List Edit :=
  [.setSack [1, 2, 3, 4], .setSeqNr 7, .setSack [5, 6, 7, 8, 9, 10, 11, 12],
    .setType .state]

theorem codec_roundTrip_sample :
    exists p, applyEdits sampleEdits (Packet.withPayload [9, 9]) = .ok p ∧
      Shows p (sampleEdits.foldl Contents.record Contents.default) [9, 9] := by
  apply codec_roundTrip
  intro edit hedit
  simp only [sampleEdits, List.mem_cons, List.not_mem_nil, or_false] at hedit
  rcases hedit with rfl | rfl | rfl | rfl
  · exact ⟨rfl, by decide, by decide⟩
  · exact trivial
  · exact ⟨rfl, by decide, by decide⟩
  · exact trivial

end Utp
