import Utp.Wire.Grammar

/-!
# The SACK reader

`Packet::get_sack` walks the extension chain on its own.  The type of a block is
stored in the block before it, but this walk moves on to the next block first
and reads the type from there, so from the second block on it takes every block
for the one behind it.
-/

namespace Utp

open Foundation

namespace Packet

/-- The loop of `get_sack`. -/
def getSackFrom (bytes : List UInt8) (index : Nat) (extensionType : ExtensionType) :
    Except Panic (Option (List UInt8)) :=
  if index < bytes.length ∧ extensionType ≠ .none then
    match bytes[index + 1]? with
    | none => .error .indexOutOfRange
    | some extLen =>
        if extensionType = .selectiveAck then
          (slice bytes (index + 2) (index + 2 + extLen.toNat)).map some
        else
          -- the type is read after moving on, from the block it should announce
          let index := index + (extLen.toNat + 2)
          getSackFrom bytes index (.ofByte (bytes.getD index 0))
  else
    .ok none
  termination_by bytes.length - index

def getSack (p : Packet) : Except Panic (Option (List UInt8)) :=
  getSackFrom p.bytes headerSize (.ofByte (p.bytes.getD 1 0))

end Packet

/-!
## What it should and what it does return
-/

def firstSack (exts : List Extension) : Option (List UInt8) :=
  (exts.find? fun e => e.ty = .selectiveAck).map Extension.data

/-- The data of the block in front of the first SACK that has one. -/
def inFrontOfSack : List Extension -> Option (List UInt8)
  | e :: next :: exts =>
      if next.ty = .selectiveAck then some e.data else inFrontOfSack (next :: exts)
  | _ => none

/-- Taken for a chain of blocks, the bytes end without a SACK and without a
block that has no length byte. -/
inductive Skipped : List UInt8 -> Prop where
  | empty : Skipped []
  | stop (rest : List UInt8) : Skipped (0 :: rest)
  | block {ty len : UInt8} {rest : List UInt8} :
      ty ≠ 0 -> ty ≠ 1 -> Skipped (rest.drop len.toNat) -> Skipped (ty :: len :: rest)

/-!
## One pass of the loop
-/

theorem Chain.first {ty : ExtensionType} {bytes payload : List UInt8} {e : Extension}
    {exts : List Extension} (h : Chain ty bytes (e :: exts) payload) :
    e.ty = ty ∧ ty ≠ .none := by
  cases h with
  | block htype hlen hchain => exact ⟨rfl, htype⟩

section Pass

variable {bytes tail data : List UInt8} {index : Nat} {ty : ExtensionType}
  {nextByte len : UInt8}

theorem getD_of_drop (h : bytes.drop index = tail) :
    bytes.getD index 0 = tail.getD 0 0 := by
  rw [← h, List.getD, List.getD, List.getElem?_drop, Nat.add_zero]

theorem length_of_drop_cons (h : bytes.drop index = nextByte :: tail) :
    index < bytes.length := by
  by_contra hge
  rw [List.drop_of_length_le (by omega)] at h
  cases h

theorem lenByte_of_drop (h : bytes.drop index = nextByte :: tail) :
    bytes[index + 1]? = tail[0]? := by
  rw [← List.getElem?_drop, h]
  rfl

theorem drop_of_drop_cons (h : bytes.drop index = nextByte :: len :: tail) :
    bytes.drop (index + (len.toNat + 2)) = tail.drop len.toNat := by
  rw [← List.drop_drop, h, Nat.add_comm len.toNat 2, ← List.drop_drop]
  rfl

theorem ExtensionType.ofByte_eq_none {b : UInt8} :
    ExtensionType.ofByte b = .none <-> b = 0 := by
  constructor
  · intro h
    rw [← ExtensionType.toByte_ofByte b, h]
    rfl
  · intro h
    rw [h]
    rfl

theorem ExtensionType.ofByte_eq_selectiveAck {b : UInt8} :
    ExtensionType.ofByte b = .selectiveAck <-> b = 1 := by
  constructor
  · intro h
    rw [← ExtensionType.toByte_ofByte b, h]
    rfl
  · intro h
    rw [h]
    rfl

theorem getSackFrom_none : Packet.getSackFrom bytes index .none = .ok none := by
  rw [Packet.getSackFrom, if_neg fun hcond => hcond.2 rfl]

theorem getSackFrom_sack (h : bytes.drop index = nextByte :: len :: (data ++ tail))
    (hlen : data.length = len.toNat) :
    Packet.getSackFrom bytes index .selectiveAck = .ok (some data) := by
  rcases drop_block h with ⟨-, hlenByte, -, -, hlength⟩
  have hslice := slice_block h hlen
  rw [Packet.getSackFrom, if_pos ⟨by omega, by decide⟩, hlenByte]
  simp only [if_true, hslice]
  rfl

theorem getSackFrom_skip (h : bytes.drop index = nextByte :: len :: tail)
    (hnone : ty ≠ .none) (hsack : ty ≠ .selectiveAck) :
    Packet.getSackFrom bytes index ty =
      Packet.getSackFrom bytes (index + (len.toNat + 2))
        (.ofByte ((tail.drop len.toNat).getD 0 0)) := by
  have hlenByte : bytes[index + 1]? = some len := lenByte_of_drop h
  rw [Packet.getSackFrom, if_pos ⟨length_of_drop_cons h, hnone⟩, hlenByte]
  simp only [if_neg hsack, getD_of_drop (drop_of_drop_cons h)]

end Pass

/-!
## The walk over the payload
-/

theorem skipped_cons {ty len : UInt8} {rest : List UInt8} (hzero : ty ≠ 0) :
    Skipped (ty :: len :: rest) <-> ty ≠ 1 ∧ Skipped (rest.drop len.toNat) := by
  constructor
  · intro h
    cases h with
    | stop rest => exact absurd rfl hzero
    | block _ hone hrest => exact ⟨hone, hrest⟩
  · intro h
    exact Skipped.block hzero h.1 h.2

theorem getSackFrom_payload {bytes payload : List UInt8} {index : Nat}
    (h : bytes.drop index = payload) :
    Packet.getSackFrom bytes index (.ofByte (payload.getD 0 0)) = .ok none <->
      Skipped payload := by
  induction hlength : payload.length using Nat.strong_induction_on
    generalizing payload index with
  | _ n ih =>
      cases payload with
      | nil => exact iff_of_true getSackFrom_none Skipped.empty
      | cons ty rest =>
          change Packet.getSackFrom bytes index (.ofByte ty) = _ <-> _
          by_cases hzero : ty = 0
          · rw [hzero]
            exact iff_of_true getSackFrom_none (Skipped.stop rest)
          · have hnone := mt ExtensionType.ofByte_eq_none.mp hzero
            cases rest with
            | nil =>
                have hend : bytes[index + 1]? = none := lenByte_of_drop h
                refine iff_of_false ?_ ?_
                · rw [Packet.getSackFrom, if_pos ⟨length_of_drop_cons h, hnone⟩, hend]
                  exact nofun
                · intro hskipped
                  cases hskipped with
                  | stop rest => exact hzero rfl
            | cons len rest =>
                rw [skipped_cons hzero]
                by_cases hone : ty = 1
                · refine iff_of_false ?_ fun hskipped => hskipped.1 hone
                  have hlenByte : bytes[index + 1]? = some len := lenByte_of_drop h
                  rw [Packet.getSackFrom, if_pos ⟨length_of_drop_cons h, hnone⟩, hlenByte]
                  simp only [if_pos (ExtensionType.ofByte_eq_selectiveAck.mpr hone)]
                  intro hresult
                  rcases map_eq_ok.mp hresult with ⟨data, -, hdata⟩
                  cases hdata
                · have hsack := mt ExtensionType.ofByte_eq_selectiveAck.mp hone
                  rw [getSackFrom_skip h hnone hsack]
                  have hshorter : (rest.drop len.toNat).length < n := by
                    rw [← hlength, List.length_drop, List.length_cons, List.length_cons]
                    omega
                  rw [ih _ hshorter (drop_of_drop_cons h) rfl]
                  exact (and_iff_right hone).symm

/-!
## The walk over the blocks
-/

theorem Chain.getSackFrom {bytes tail payload : List UInt8} {ty : ExtensionType}
    {exts : List Extension} {index : Nat} (hchain : Chain ty tail exts payload)
    (hblocks : exts ≠ []) (h : bytes.drop index = tail) :
    Packet.getSackFrom bytes index (.ofByte (tail.getD 0 0)) =
      .ok (inFrontOfSack exts) := by
  induction hchain generalizing index with
  | done payload => exact absurd rfl hblocks
  | block htype hlen hchain ih =>
      rename_i ty nextByte len data tail payload exts
      change Packet.getSackFrom bytes index (.ofByte nextByte) = _
      cases exts with
      | nil =>
          rw [(chain_nil hchain).1]
          exact getSackFrom_none
      | cons next exts =>
          have hnext := hchain.first.1
          rw [← hnext]
          by_cases hsack : next.ty = .selectiveAck
          · rw [inFrontOfSack, if_pos hsack, hsack]
            exact getSackFrom_sack h hlen
          · have hnone : next.ty ≠ .none := hnext ▸ hchain.first.2
            rw [inFrontOfSack, if_neg hsack, getSackFrom_skip h hnone hsack, ← hlen,
              List.drop_left]
            exact ih (List.cons_ne_nil _ _) (drop_block h).2.2.2.1

/-!
## Accepted packets
-/

/-- A single extension, which is not a SACK. -/
def LoneUnknown (exts : List Extension) : Prop :=
  exists e, exts = [e] ∧ e.ty ≠ .selectiveAck

/-- Where the walk happens to return the first SACK. -/
def SackInView : List Extension -> List UInt8 -> Prop
  | [], _ => True
  | [e], payload => e.ty = .selectiveAck ∨ Skipped payload
  | e :: next :: exts, _ =>
      e.ty = .selectiveAck ∨ inFrontOfSack (next :: exts) = firstSack (next :: exts)

/-- What the walk returns when it does not reach the payload. -/
def walkedSack : List Extension -> Option (List UInt8)
  | [] => none
  | e :: exts => if e.ty = .selectiveAck then some e.data else inFrontOfSack exts

theorem firstSack_cons (e : Extension) (exts : List Extension) :
    firstSack (e :: exts) =
      if e.ty = .selectiveAck then some e.data else firstSack exts := by
  unfold firstSack
  by_cases hsack : e.ty = .selectiveAck
  · rw [List.find?_cons_of_pos (by simpa using hsack), if_pos hsack]
    rfl
  · rw [List.find?_cons_of_neg (by simpa using hsack), if_neg hsack]

namespace Packet

section Accepted

variable {p : Packet} {e : Extension} {exts : List Extension} {payload : List UInt8}

theorem HasChain.getSack_cons (h : p.HasChain (e :: exts) payload) :
    exists index tail nextByte, p.bytes.drop index = tail ∧
      Chain (.ofByte nextByte) tail exts payload ∧
      p.getSack = if e.ty = .selectiveAck then .ok (some e.data)
        else getSackFrom p.bytes index (.ofByte (tail.getD 0 0)) := by
  generalize hty : p.getExtensionType = ty at h
  generalize hbytes : p.bytes.drop headerSize = bytes at h
  unfold HasChain at h
  rw [hty, hbytes] at h
  cases h with
  | block htype hlen hchain =>
      rename_i nextByte len data tail
      refine ⟨_, tail, nextByte, (drop_block hbytes).2.2.2.1, hchain, ?_⟩
      change getSackFrom p.bytes headerSize p.getExtensionType = _
      rw [hty]
      by_cases hsack : ty = .selectiveAck
      · rw [if_pos hsack, hsack]
        exact getSackFrom_sack hbytes hlen
      · rw [if_neg hsack, getSackFrom_skip hbytes htype hsack, ← hlen, List.drop_left]

theorem HasChain.getSack_nil (h : p.HasChain [] payload) : p.getSack = .ok none := by
  change getSackFrom p.bytes headerSize p.getExtensionType = _
  rw [(chain_nil h).1]
  exact getSackFrom_none

theorem HasChain.getSack_of_not_lone (h : p.HasChain exts payload)
    (hblocks : ¬ LoneUnknown exts) : p.getSack = .ok (walkedSack exts) := by
  cases exts with
  | nil => exact h.getSack_nil
  | cons e exts =>
      rcases h.getSack_cons with ⟨index, tail, nextByte, htail, hchain, hwalk⟩
      rw [hwalk, walkedSack]
      split
      · rfl
      · rename_i hsack
        refine hchain.getSackFrom ?_ htail
        intro hempty
        exact hblocks ⟨e, by rw [hempty], hsack⟩

theorem HasChain.getSack_lone (h : p.HasChain [e] payload)
    (hsack : e.ty ≠ .selectiveAck) :
    p.getSack = .ok none <-> Skipped payload := by
  rcases h.getSack_cons with ⟨index, tail, nextByte, htail, hchain, hwalk⟩
  rw [hwalk, if_neg hsack, (chain_nil hchain).2]
  rw [(chain_nil hchain).2] at htail
  exact getSackFrom_payload htail

theorem HasChain.getSack_iff (h : p.HasChain exts payload) :
    p.getSack = .ok (firstSack exts) <-> SackInView exts payload := by
  cases exts with
  | nil => exact iff_of_true h.getSack_nil trivial
  | cons e exts =>
      rw [firstSack_cons]
      by_cases hsack : e.ty = .selectiveAck
      · have hblocks : ¬ LoneUnknown (e :: exts) := by
          intro hlone
          rcases hlone with ⟨e', hsame, hother⟩
          cases hsame
          exact hother hsack
        rw [h.getSack_of_not_lone hblocks, walkedSack, if_pos hsack, if_pos hsack]
        refine iff_of_true rfl ?_
        cases exts with
        | nil => exact Or.inl hsack
        | cons next exts => exact Or.inl hsack
      · rw [if_neg hsack]
        cases exts with
        | nil =>
            have hview : SackInView [e] payload <-> Skipped payload := or_iff_right hsack
            rw [hview]
            exact h.getSack_lone hsack
        | cons next exts =>
            have hblocks : ¬ LoneUnknown (e :: next :: exts) := by
              intro hlone
              rcases hlone with ⟨e', hsame, -⟩
              cases hsame
            have hview : SackInView (e :: next :: exts) payload <->
                inFrontOfSack (next :: exts) = firstSack (next :: exts) :=
              or_iff_right hsack
            rw [hview, h.getSack_of_not_lone hblocks, walkedSack, if_neg hsack,
              Except.ok.injEq]

end Accepted

end Packet

/-!
## Other payloads
-/

theorem Chain.replacePayload {ty : ExtensionType} {bytes payload : List UInt8}
    {exts : List Extension} (h : Chain ty bytes exts payload) (other : List UInt8) :
    Chain ty (encodeBlocks exts ++ other) exts other := by
  induction h with
  | done payload => exact Chain.done other
  | block htype hlen hchain ih =>
      rw [hchain.encodeBlocks_cons hlen, List.cons_append, List.cons_append,
        List.append_assoc]
      exact Chain.block htype hlen ih

theorem Packet.tryFrom_replacePayload {buf payload : List UInt8} {p : Packet}
    {exts : List Extension} (h : Packet.tryFrom buf = .ok p)
    (hchain : p.HasChain exts payload) (other : List UInt8) :
    exists q, Packet.tryFrom
      (buf.take headerSize ++ (encodeBlocks exts ++ other)) = .ok q ∧
      q.HasChain exts other := by
  rcases Packet.tryFrom_eq_ok.mp h with ⟨rfl, hcheck⟩
  rcases grammar_of_tryFrom h with ⟨exts', payload', hgrammar, hchain'⟩
  cases hchain.extensions.symm.trans hchain'.extensions
  have hlength := List.length_take_of_le p.length_bytes
  have hget : forall i, i < headerSize ->
      (p.bytes.take headerSize ++ (encodeBlocks exts ++ other)).getD i 0 =
        p.bytes.getD i 0 := by
    intro i hi
    rw [List.getD, List.getD, List.getElem?_append_left (by omega),
      List.getElem?_take_of_lt hi]
  have hdrop : (p.bytes.take headerSize ++ (encodeBlocks exts ++ other)).drop headerSize =
      encodeBlocks exts ++ other := List.drop_left' hlength
  have hother := Chain.replacePayload hgrammar.chain other
  have haccepted : Grammar (p.bytes.take headerSize ++ (encodeBlocks exts ++ other))
      exts other := by
    constructor
    · constructor
      · rw [List.length_append, hlength]
        exact Nat.le_add_right _ _
      · rw [hget 0 (by decide)]
        exact hgrammar.header.version
      · rw [hget 0 (by decide)]
        exact hgrammar.header.packetType
    · rw [hget 1 (by decide), hdrop]
      exact hother
    · exact hgrammar.wellFormed
  rcases tryFrom_of_grammar haccepted with ⟨q, hq⟩
  refine ⟨q, hq, ?_⟩
  have hbytes := (Packet.tryFrom_eq_ok.mp hq).1
  unfold Packet.HasChain Packet.getExtensionType
  rw [hbytes]
  exact haccepted.chain

/-!
## Agreement
-/

/-- The SACK reader returns what the iterator finds exactly when the SACK is in
view, and its result depends on the extensions alone exactly when the packet
has not one single extension of an unknown type. -/
theorem getSack_agrees_iff {buf payload : List UInt8} {p : Packet}
    {exts : List Extension} (hp : Packet.tryFrom buf = .ok p)
    (hexts : p.extensions = .ok exts) (hpayload : p.payload = .ok payload) :
    (p.getSack = .ok (firstSack exts) <-> SackInView exts payload) ∧
      ((forall other q, Packet.tryFrom other = .ok q -> q.extensions = .ok exts ->
          q.getSack = p.getSack) <-> ¬ LoneUnknown exts) := by
  have hchains : forall other q, Packet.tryFrom other = .ok q ->
      q.extensions = .ok exts -> exists rest, q.HasChain exts rest := by
    intro other q hq hsame
    rcases Packet.hasChain_of_tryFrom hq with ⟨exts', rest, hchain, -⟩
    cases hsame.symm.trans hchain.extensions
    exact ⟨rest, hchain⟩
  rcases hchains buf p hp hexts with ⟨rest, hchain⟩
  cases hpayload.symm.trans hchain.payload
  refine ⟨hchain.getSack_iff, ?_⟩
  constructor
  · intro hsame hlone
    rcases hlone with ⟨e, rfl, hsack⟩
    -- no payload, and a payload that looks like the type of a SACK
    rcases Packet.tryFrom_replacePayload hp hchain [] with ⟨q, hq, hempty⟩
    rcases Packet.tryFrom_replacePayload hp hchain [1] with ⟨r, hr, hone⟩
    have hnone := (hempty.getSack_lone hsack).mpr Skipped.empty
    rw [hsame _ q hq hempty.extensions, ← hsame _ r hr hone.extensions] at hnone
    have hskipped := (hone.getSack_lone hsack).mp hnone
    cases hskipped
  · intro hblocks other q hq hsame
    rcases hchains other q hq hsame with ⟨rest, hchain'⟩
    rw [hchain'.getSack_of_not_lone hblocks, hchain.getSack_of_not_lone hblocks]

def extendedPacket (first : UInt8) (rest : List UInt8) : Packet where
  bytes := 0x01 :: first :: (List.replicate 18 0 ++ rest)
  headerValid := by
    refine @headerValid_congr Packet.defaultHeader _ ⟨.data, by decide⟩ ?_ rfl
    simp [headerSize]

/-- A SACK with an extension of an unknown type behind it is returned. -/
theorem getSack_agrees_sack_first :
    (extendedPacket 1 [7, 4, 6, 0, 0, 0, 0, 4, 0, 0, 0, 0]).getSack =
      .ok (some [6, 0, 0, 0]) :=
  (@getSack_agrees_iff _ [] (extendedPacket 1 [7, 4, 6, 0, 0, 0, 0, 4, 0, 0, 0, 0])
    [⟨.selectiveAck, [6, 0, 0, 0]⟩, ⟨.unknown 7, [0, 0, 0, 0]⟩]
    (Packet.tryFrom_eq_ok.mpr ⟨rfl, by decide +kernel⟩)
    (by decide +kernel) (by decide +kernel)).1.mpr (Or.inl rfl)

/-- A SACK behind an extension of an unknown type is missed, and behind a single
one a payload byte is taken for the type of a block: the read of its length
leaves the packet. -/
theorem getSack_misreads :
    (exists p exts, Packet.tryFrom p.bytes = .ok p ∧ p.extensions = .ok exts ∧
      firstSack exts = some [6, 0, 0, 0] ∧ p.getSack = .ok none) ∧
    exists p exts, Packet.tryFrom p.bytes = .ok p ∧ p.extensions = .ok exts ∧
      p.payload = .ok [1] ∧ p.getSack = .error .indexOutOfRange := by
  constructor
  · exact ⟨extendedPacket 7 [1, 4, 0, 0, 0, 0, 0, 4, 6, 0, 0, 0],
      [⟨.unknown 7, [0, 0, 0, 0]⟩, ⟨.selectiveAck, [6, 0, 0, 0]⟩],
      Packet.tryFrom_eq_ok.mpr ⟨rfl, by decide +kernel⟩, by decide +kernel, rfl,
      by decide +kernel⟩
  · exact ⟨extendedPacket 7 [0, 4, 0, 0, 0, 0, 1], [⟨.unknown 7, [0, 0, 0, 0]⟩],
      Packet.tryFrom_eq_ok.mpr ⟨rfl, by decide +kernel⟩, by decide +kernel,
      by decide +kernel, by decide +kernel⟩

end Utp
