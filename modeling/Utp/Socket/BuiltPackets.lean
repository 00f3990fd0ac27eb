import Utp.Socket.SelectiveAck
import Utp.Wire.Edits

/-!
# Packets the crate can build

A packet comes from one of three constructors and any number of setter calls.
`set_sack` asserts that a list has a positive multiple of four bytes, but it
stores the length in one byte: of a longer list the block keeps what that byte
can say, and the rest falls to the payload.
-/

namespace Utp

open Foundation

/-!
## Constructors and setters
-/

inductive Constructed : Packet -> Prop where
  | new : Constructed .new
  | withPayload (payload : List UInt8) : Constructed (.withPayload payload)
  | tryFrom {buf : List UInt8} {p : Packet} : Packet.tryFrom buf = .ok p -> Constructed p

theorem Constructed.chain {p : Packet} (h : Constructed p) :
    exists exts payload, p.HasChain exts payload ∧ forall e, e ∈ exts ->
      e.WellFormed := by
  cases h with
  | new => exact ⟨[], [], Packet.hasChain_new, by simp⟩
  | withPayload payload =>
      exact ⟨[], payload, Packet.hasChain_withPayload payload, by simp⟩
  | tryFrom hp => exact Packet.hasChain_of_tryFrom hp

def Edit.sack : Edit -> Option (List UInt8)
  | .setSack bv => some bv
  | _ => none

def sacksOf (edits : List Edit) : List (List UInt8) := edits.filterMap Edit.sack

def Edit.Admitted (edit : Edit) : Prop :=
  forall bv, edit.sack = some bv -> Packet.SackLength bv

/-- The block `set_sack` really adds. -/
def cutSack (bv : List UInt8) : Extension :=
  ⟨.selectiveAck, bv.take (bv.length % 256)⟩

theorem cutSack_eq {bv : List UInt8} :
    cutSack bv = ⟨.selectiveAck, bv⟩ <-> bv.length < 256 := by
  constructor
  · intro h
    have hlength := congrArg List.length (Extension.mk.inj h).2
    rw [List.length_take] at hlength
    omega
  · intro h
    rw [cutSack, Nat.mod_eq_of_lt h, List.take_length]

theorem wellFormed_cutSack {bv : List UInt8} (h : Packet.SackLength bv) :
    (cutSack bv).WellFormed <-> bv.length % 256 ≠ 0 := by
  have hdata : (cutSack bv).data.length = bv.length % 256 := by
    have hle := Nat.mod_le bv.length 256
    rw [cutSack, List.length_take, Nat.min_eq_left hle]
  have hmod := h.2
  rw [Extension.WellFormed, hdata]
  omega

/-!
## The chain through a sequence of calls
-/

theorem Edit.apply_chain {p : Packet} {exts : List Extension} {payload : List UInt8}
    (h : p.HasChain exts payload) {edit : Edit} (hadmitted : edit.Admitted) :
    exists q payload', edit.apply p = .ok q ∧
      q.HasChain (exts ++ (sacksOf [edit]).map cutSack) payload' := by
  have hkeep : forall q : Packet, q.HasChain exts payload ->
      q.HasChain (exts ++ List.map cutSack []) payload := by
    intro q hq
    rw [List.map_nil, List.append_nil]
    exact hq
  have hfield := fun (f : Packet.HeaderField) n =>
    hkeep _ ((Packet.hasChain_setField (f := f) (n := n)).mpr h)
  cases edit with
  | setType t => exact ⟨_, payload, rfl, hkeep _ (Packet.hasChain_setType.mpr h)⟩
  | setTimestamp timestamp => exact ⟨_, payload, rfl, hfield .timestamp _⟩
  | setTimestampDifference delay =>
      exact ⟨_, payload, rfl, hfield .timestampDifference _⟩
  | setConnectionId new => exact ⟨_, payload, rfl, hfield .connectionId _⟩
  | setWndSize new => exact ⟨_, payload, rfl, hfield .wndSize _⟩
  | setSeqNr new => exact ⟨_, payload, rfl, hfield .seqNr _⟩
  | setAckNr new => exact ⟨_, payload, rfl, hfield .ackNr _⟩
  | setSack bv =>
      rcases Packet.setSack_chain (hadmitted bv rfl) h with ⟨q, hq, -, -, hchain⟩
      exact ⟨q, _, hq, hchain⟩

theorem applyEdits_chain {p : Packet} {exts : List Extension} {payload : List UInt8}
    (h : p.HasChain exts payload) {edits : List Edit}
    (hadmitted : forall edit, edit ∈ edits -> edit.Admitted) :
    exists q payload', applyEdits edits p = .ok q ∧
      q.HasChain (exts ++ (sacksOf edits).map cutSack) payload' := by
  induction edits generalizing p exts payload with
  | nil => exact ⟨p, payload, rfl, by simpa [sacksOf] using h⟩
  | cons edit edits ih =>
      rcases Edit.apply_chain h (hadmitted edit (List.mem_cons_self ..)) with
        ⟨mid, payload', hmid, hchain⟩
      rcases ih hchain fun later hlater => hadmitted later (List.mem_cons_of_mem _ hlater)
        with ⟨q, payload'', hq, hfinal⟩
      refine ⟨q, payload'', ?_, ?_⟩
      · rw [applyEdits, hmid]
        exact hq
      · have hsacks : sacksOf (edit :: edits) = sacksOf [edit] ++ sacksOf edits :=
          List.filterMap_append (l := [edit])
        rw [hsacks, List.map_append, ← List.append_assoc]
        exact hfinal

theorem Packet.HasChain.checkExtensions_iff {p : Packet} {exts : List Extension}
    {payload : List UInt8} (h : p.HasChain exts payload) :
    checkExtensions p.bytes = .ok () <-> forall e, e ∈ exts -> e.WellFormed := by
  constructor
  · intro hcheck
    rcases hasChain_of_tryFrom (Packet.tryFrom_eq_ok.mpr ⟨rfl, hcheck⟩) with
      ⟨exts', payload', hchain, hexts⟩
    cases h.extensions.symm.trans hchain.extensions
    exact hexts
  · intro hexts
    exact checkExtensions_of_chain p.length_bytes h hexts

/-!
## Well-built packets
-/

/-- This is the last call of `set_sack`, and these are the calls before it. -/
def LastSack (edits before : List Edit) (bv : List UInt8) : Prop :=
  exists after, edits = before ++ .setSack bv :: after ∧
    forall edit, edit ∈ after -> edit.sack = none

theorem LastSack.sacks {edits before : List Edit} {bv : List UInt8}
    (h : LastSack edits before bv) : sacksOf edits = sacksOf before ++ [bv] := by
  rcases h with ⟨after, rfl, hafter⟩
  have hnone : after.filterMap Edit.sack = [] := List.filterMap_eq_nil_iff.mpr hafter
  have hcons : (Edit.setSack bv :: after).filterMap Edit.sack =
      bv :: after.filterMap Edit.sack := rfl
  rw [sacksOf, List.filterMap_append, hcons, hnone]
  rfl

/-- The parser accepts the packet's extensions, and the iterator yields the ones
before the last call of `set_sack` followed by the full list it was given. -/
structure WellBuilt (p : Packet) (edits : List Edit) (q : Packet) : Prop where
  accepted : checkExtensions q.bytes = .ok ()
  extensions : forall before bv mid, LastSack edits before bv ->
    applyEdits before p = .ok mid ->
      exists exts, mid.extensions = .ok exts ∧
        q.extensions = .ok (exts ++ [⟨.selectiveAck, bv⟩])

section WellBuilt

variable {p q : Packet} {exts : List Extension} {payload payload' : List UInt8}
  {edits : List Edit}

theorem accepted_iff (hexts : forall e, e ∈ exts -> e.WellFormed)
    (hadmitted : forall edit, edit ∈ edits -> edit.Admitted)
    (hchain : q.HasChain (exts ++ (sacksOf edits).map cutSack) payload') :
    checkExtensions q.bytes = .ok () <->
      forall bv, bv ∈ sacksOf edits -> bv.length % 256 ≠ 0 := by
  have hlengths : forall bv, bv ∈ sacksOf edits -> Packet.SackLength bv := by
    intro bv hbv
    rcases List.mem_filterMap.mp hbv with ⟨edit, hedit, hsack⟩
    exact hadmitted edit hedit bv hsack
  rw [hchain.checkExtensions_iff]
  constructor
  · intro hall bv hbv
    have hblock := hall _ (List.mem_append_right _ (List.mem_map_of_mem hbv))
    exact (wellFormed_cutSack (hlengths bv hbv)).mp hblock
  · intro hall e he
    rcases List.mem_append.mp he with hold | hnew
    · exact hexts e hold
    · rcases List.mem_map.mp hnew with ⟨bv, hbv, rfl⟩
      exact (wellFormed_cutSack (hlengths bv hbv)).mpr (hall bv hbv)

theorem LastSack.extensions {before : List Edit} {bv : List UInt8}
    (hlast : LastSack edits before bv) (h : p.HasChain exts payload)
    (hadmitted : forall edit, edit ∈ edits -> edit.Admitted)
    (hchain : q.HasChain (exts ++ (sacksOf edits).map cutSack) payload') :
    exists mid exts', applyEdits before p = .ok mid ∧ mid.extensions = .ok exts' ∧
      q.extensions = .ok (exts' ++ [cutSack bv]) := by
  have hfront : forall edit, edit ∈ before -> edit.Admitted := by
    intro edit hedit
    rcases hlast with ⟨after, rfl, -⟩
    exact hadmitted edit (List.mem_append_left _ hedit)
  rcases applyEdits_chain h hfront with ⟨mid, rest, hmid, hmidchain⟩
  refine ⟨mid, _, hmid, hmidchain.extensions, ?_⟩
  rw [hchain.extensions, hlast.sacks, List.map_append, List.append_assoc]
  rfl

theorem wellBuilt_iff (hp : Constructed p)
    (hadmitted : forall edit, edit ∈ edits -> edit.Admitted) :
    exists q, applyEdits edits p = .ok q ∧
      (WellBuilt p edits q <->
        (forall bv, bv ∈ sacksOf edits -> bv.length % 256 ≠ 0) ∧
          forall before bv, LastSack edits before bv -> bv.length < 256) := by
  rcases hp.chain with ⟨exts, payload, hchain, hexts⟩
  rcases applyEdits_chain hchain hadmitted with ⟨q, payload', hq, hqchain⟩
  have hcheck := accepted_iff hexts hadmitted hqchain
  refine ⟨q, hq, ?_⟩
  constructor
  · intro hbuilt
    refine ⟨hcheck.mp hbuilt.accepted, ?_⟩
    intro before bv hlast
    rcases hlast.extensions hchain hadmitted hqchain with
      ⟨mid, exts', hmid, hmidexts, hqexts⟩
    rcases hbuilt.extensions before bv mid hlast hmid with ⟨exts'', hsame, hfull⟩
    cases hmidexts.symm.trans hsame
    have hblocks := List.append_cancel_left (Except.ok.inj (hqexts.symm.trans hfull))
    exact cutSack_eq.mp (List.cons.inj hblocks).1
  · intro hcond
    refine ⟨hcheck.mpr hcond.1, ?_⟩
    intro before bv mid hlast hmid
    rcases hlast.extensions hchain hadmitted hqchain with
      ⟨mid', exts', hmid', hmidexts, hqexts⟩
    cases hmid.symm.trans hmid'
    rw [cutSack_eq.mpr (hcond.2 before bv hlast)] at hqexts
    exact ⟨exts', hmidexts, hqexts⟩

end WellBuilt

theorem buildSelectiveAck_fits {peer : UtpSocketState} :
    (buildSelectiveAck peer).length < 256 <->
      forall k, k ∈ peer.outOfOrder -> k.toNat <= peer.lastAcked.toNat + 2016 := by
  have hmod := length_buildSelectiveAck_mod peer
  have hle : (buildSelectiveAck peer).length <= 4 * 63 <-> _ :=
    length_buildSelectiveAck_le
  rw [← hle]
  omega

/-- The packets the crate can build are well built under the condition on the
lists; the list of a receiver is one `set_sack` admits, and short enough exactly
when no stored packet is more than 2016 numbers ahead. -/
theorem built_packets_wellBuilt_iff {p : Packet} {edits : List Edit} (hp : Constructed p)
    (hadmitted : forall edit, edit ∈ edits -> edit.Admitted) (peer : UtpSocketState) :
    (exists q, applyEdits edits p = .ok q ∧
      (WellBuilt p edits q <->
        (forall bv, bv ∈ sacksOf edits -> bv.length % 256 ≠ 0) ∧
          forall before bv, LastSack edits before bv -> bv.length < 256)) ∧
    (buildSelectiveAck peer ≠ [] ->
      (Edit.setSack (buildSelectiveAck peer)).Admitted ∧
        ((buildSelectiveAck peer).length < 256 <->
          forall k, k ∈ peer.outOfOrder -> k.toNat <= peer.lastAcked.toNat + 2016)) := by
  refine ⟨wellBuilt_iff hp hadmitted, ?_⟩
  intro hsack
  refine ⟨?_, buildSelectiveAck_fits⟩
  intro bv hbv
  cases hbv
  exact sackLength_buildSelectiveAck fun hlength =>
    hsack (List.eq_nil_of_length_eq_zero hlength)

theorem built_packets_sample :
    exists q, applyEdits [.setSeqNr 7, .setSack [1, 2, 3, 4]] .new = .ok q ∧
      WellBuilt .new [.setSeqNr 7, .setSack [1, 2, 3, 4]] q := by
  have hadmitted : forall edit, edit ∈ [Edit.setSeqNr 7, .setSack [1, 2, 3, 4]] ->
      edit.Admitted := by
    intro edit hedit bv hbv
    rcases List.mem_pair.mp hedit with rfl | rfl
    · cases hbv
    · cases hbv
      exact ⟨by decide, rfl⟩
  have hsacks : sacksOf [.setSeqNr 7, .setSack [1, 2, 3, 4]] = [[1, 2, 3, 4]] := rfl
  rcases (built_packets_wellBuilt_iff .new hadmitted (openPeer (loopback 1))).1 with
    ⟨q, hq, hiff⟩
  refine ⟨q, hq, hiff.mpr ⟨?_, ?_⟩⟩
  · intro bv hbv
    rw [hsacks] at hbv
    cases List.mem_singleton.mp hbv
    decide
  · intro before bv hlast
    have hbv := hsacks.symm.trans hlast.sacks
    have hmem : bv ∈ [[1, 2, 3, 4]] := by
      rw [hbv]
      exact List.mem_append_right _ (List.mem_singleton_self bv)
    cases List.mem_singleton.mp hmem
    decide

def farPeer : UtpSocketState :=
  { openPeer (loopback 1) with
    outOfOrder := (∅ : PacketMap).insert 2049 (barePacket .data 2049 0) }

/-- Its list has 256 bytes: the length byte says zero, and the packet does not
pass the check. -/
theorem far_reply_rejected :
    exists q, buildSelectiveAck farPeer ≠ [] ∧
      applyEdits [.setSack (buildSelectiveAck farPeer)] .new = .ok q ∧
      checkExtensions q.bytes ≠ .ok () ∧
      ¬ WellBuilt .new [.setSack (buildSelectiveAck farPeer)] q := by
  have hstored : forall k, k ∈ farPeer.outOfOrder <-> k = 2049 := by
    intro k
    simp only [farPeer, Std.ExtTreeMap.mem_insert, Std.compare_eq_iff_eq,
      Std.ExtTreeMap.not_mem_empty, or_false]
    exact eq_comm
  have hle := length_buildSelectiveAck_le_iff ((hstored 2049).mpr rfl) fun k hk =>
    Nat.le_of_eq (congrArg UInt16.toNat ((hstored k).mp hk))
  have hlength : (buildSelectiveAck farPeer).length = 256 := by
    have hmark : farPeer.lastAcked.toNat = 1 := rfl
    have htop : (2049 : UInt16).toNat = 2049 := rfl
    have hfits := hle 64
    have hlow := hle 63
    have hmod := length_buildSelectiveAck_mod farPeer
    omega
  have hbv : Packet.SackLength (buildSelectiveAck farPeer) := by
    rw [Packet.SackLength, hlength]
    exact ⟨by omega, by omega⟩
  rcases Packet.setSack_chain hbv Packet.hasChain_new with ⟨q, hq, -, -, hchain⟩
  have hrejected : checkExtensions q.bytes ≠ .ok () := by
    intro hcheck
    have hblock := hchain.checkExtensions_iff.mp hcheck _ (List.mem_singleton_self _)
    exact (wellFormed_cutSack hbv).mp hblock (by rw [hlength])
  refine ⟨q, ?_, ?_, hrejected, fun hbuilt => hrejected hbuilt.accepted⟩
  · intro hempty
    rw [hempty] at hlength
    cases hlength
  · rw [applyEdits, Edit.apply, hq]
    rfl

end Utp
