import Utp.Wire.Chain

/-!
# What the parser accepts

The accepted byte slices are described without the parser: a header of twenty
bytes with version one and a known type, a chain of extension blocks, and any
payload.  The parser accepts exactly these, and the iterator and the payload
reader take an accepted slice apart along the same lines.
-/

namespace Utp

open Foundation

/-!
## Encoding a chain
-/

/-- A block the parser lets through: its length is a positive multiple of four. -/
def Extension.WellFormed (e : Extension) : Prop :=
  0 < e.data.length ∧ e.data.length % 4 = 0

def announcedType : List Extension -> UInt8
  | [] => ExtensionType.none.toByte
  | e :: _ => e.ty.toByte

/-- The bytes of the blocks.  Each block announces the next one, states its
length, and holds its data. -/
def encodeBlocks : List Extension -> List UInt8
  | [] => []
  | e :: exts =>
      announcedType exts :: UInt8.ofNat e.data.length :: (e.data ++ encodeBlocks exts)

theorem Chain.announcedType {ty : ExtensionType} {bytes payload : List UInt8}
    {exts : List Extension} (h : Chain ty bytes exts payload) :
    Utp.announcedType exts = ty.toByte := by
  cases h with
  | done payload => rfl
  | block htype hlen hchain => rfl

theorem Chain.encodeBlocks_cons {nextByte len : UInt8} {data tail payload : List UInt8}
    {exts : List Extension} (h : Chain (.ofByte nextByte) tail exts payload)
    (hlen : data.length = len.toNat) (ty : ExtensionType) :
    encodeBlocks (⟨ty, data⟩ :: exts) =
      nextByte :: len :: (data ++ encodeBlocks exts) := by
  have hnext : Utp.announcedType exts = nextByte := by
    rw [h.announcedType, ExtensionType.toByte_ofByte]
  have hlength : UInt8.ofNat data.length = len := by
    rw [hlen, UInt8.ofNat_toNat]
  rw [encodeBlocks, hnext, hlength]

theorem Chain.encode {ty : ExtensionType} {bytes payload : List UInt8}
    {exts : List Extension} (h : Chain ty bytes exts payload) :
    bytes = encodeBlocks exts ++ payload := by
  induction h with
  | done payload => rfl
  | block htype hlen hchain ih =>
      rw [hchain.encodeBlocks_cons hlen, List.cons_append, List.cons_append,
        List.append_assoc, ← ih]

theorem Chain.length_eq {ty : ExtensionType} {bytes payload : List UInt8}
    {exts : List Extension} (h : Chain ty bytes exts payload) :
    bytes.length = (encodeBlocks exts).length + payload.length := by
  rw [h.encode, List.length_append]

/-!
## The header
-/

/-- Twenty bytes, the first of which has version nibble one and a type nibble of
at most five. -/
structure HeaderAccepted (buf : List UInt8) : Prop where
  length_le : headerSize <= buf.length
  version : (buf.getD 0 0).toNat % 16 = 1
  packetType : (buf.getD 0 0).toNat / 16 <= 5

theorem PacketType.tryFrom_isOk {b : UInt8} :
    (exists t, PacketType.tryFrom b = .ok t) <-> b.toNat <= 5 := by
  constructor
  · intro hcase
    rcases hcase with ⟨t, ht⟩
    unfold PacketType.tryFrom at ht
    split at ht
    all_goals first | decide | cases ht
  · intro hle
    have hb : b = UInt8.ofNat b.toNat := UInt8.ofNat_toNat.symm
    have hcases : b.toNat = 0 ∨ b.toNat = 1 ∨ b.toNat = 2 ∨ b.toNat = 3 ∨
        b.toNat = 4 ∨ b.toNat = 5 := by omega
    rcases hcases with h | h | h | h | h | h
    all_goals
      rw [hb, h]
      exact ⟨_, rfl⟩

theorem checkHeader_isOk {buf : List UInt8} :
    HeaderValid buf <-> HeaderAccepted buf := by
  have hversion : (buf.getD 0 0 &&& 0x0F = 1) <->
      (buf.getD 0 0).toNat % 16 = 1 := by
    rw [← UInt8.toNat_inj, UInt8.toNat_and]
    exact iff_of_eq (congrArg (· = 1) (Nat.and_two_pow_sub_one_eq_mod _ 4))
  have htype : (buf.getD 0 0 >>> 4).toNat = (buf.getD 0 0).toNat / 16 := by
    rw [UInt8.toNat_shiftRight]
    exact Nat.shiftRight_eq_div_pow _ 4
  have hknown : (exists t, PacketType.tryFrom (buf.getD 0 0 >>> 4) = .ok t) <-> _ :=
    PacketType.tryFrom_isOk
  rw [htype] at hknown
  constructor
  · intro h
    rcases h with ⟨t, ht⟩
    have hlength := headerValid_length ⟨t, ht⟩
    unfold checkHeader at ht
    rw [if_neg (Nat.not_lt.mpr hlength)] at ht
    split at ht
    · cases ht
    · rename_i hone
      exact ⟨hlength, hversion.mp (not_not.mp hone), hknown.mp ⟨t, ht⟩⟩
  · intro h
    rcases hknown.mpr h.packetType with ⟨t, ht⟩
    exists t
    unfold checkHeader
    rw [if_neg (Nat.not_lt.mpr h.length_le),
      if_neg (not_not.mpr (hversion.mpr h.version)), ht]

/-!
## The extensions
-/

theorem checkExtensionsFrom_of_chain {data tail payload : List UInt8}
    {ty : ExtensionType} {exts : List Extension} {index : Nat}
    (hchain : Chain ty tail exts payload) (htail : data.drop index = tail)
    (hexts : forall e, e ∈ exts -> e.WellFormed) :
    checkExtensionsFrom data index ty = .ok () := by
  induction hchain generalizing index with
  | done payload =>
      rw [checkExtensionsFrom, if_neg (fun hcond => hcond.2 rfl), if_neg (by simp)]
  | block htype hlen hchain ih =>
      rename_i ty nextByte len data' tail payload exts
      rcases drop_block htail with ⟨hnext, hlenByte, -, hrest, hlength⟩
      have hgood := hexts _ (List.mem_cons_self ..)
      have hpos : 0 < data'.length := hgood.1
      have hmod : data'.length % 4 = 0 := hgood.2
      have hlenD : data.getD (index + 1) 0 = len := by
        rw [List.getD, hlenByte]
        rfl
      have hnextD : data.getD index 0 = nextByte := by
        rw [List.getD, hnext]
        rfl
      rw [hlen] at hrest hlength hpos hmod
      rw [checkExtensionsFrom, if_pos ⟨by omega, htype⟩, if_neg (by omega)]
      simp only [hlenD, hnextD]
      rw [if_neg (by omega)]
      exact ih hrest fun e he => hexts e (List.mem_cons_of_mem _ he)

theorem checkExtensions_of_chain {buf payload : List UInt8} {exts : List Extension}
    (hlength : headerSize <= buf.length)
    (hchain : Chain (.ofByte (buf.getD 1 0)) (buf.drop headerSize) exts payload)
    (hexts : forall e, e ∈ exts -> e.WellFormed) :
    checkExtensions buf = .ok () := by
  have hfrom := checkExtensionsFrom_of_chain hchain rfl hexts
  have hmore : ¬ (buf.length = headerSize ∧
      ExtensionType.ofByte (buf.getD 1 0) ≠ .none) := by
    intro hbare
    rcases hbare with ⟨hbare, hpending⟩
    rw [List.drop_of_length_le (Nat.le_of_eq hbare)] at hchain
    generalize ExtensionType.ofByte (buf.getD 1 0) = ty at hchain hpending
    cases hchain
    exact hpending rfl
  rw [checkExtensions, if_neg (Nat.not_lt.mpr hlength), if_neg hmore, hfrom]

/-!
## Trailing bytes

Nothing behind an accepted packet can make the parser reject it.
-/

theorem checkHeader_append {data more : List UInt8} (h : headerSize <= data.length) :
    checkHeader (data ++ more) = checkHeader data := by
  refine checkHeader_congr h ?_ ?_
  · rw [List.length_append]
    omega
  · exact List.getElem?_append_left (Nat.lt_of_lt_of_le (by decide) h)

theorem checkExtensions_append {data : List UInt8} (more : List UInt8)
    (h : checkExtensions data = .ok ()) :
    checkExtensions (data ++ more) = .ok () := by
  rcases chain_of_checkExtensions h with ⟨hlength, exts, payload, hchain, hexts⟩
  have hlonger := hchain.append more
  rw [← List.drop_append_of_le_length hlength,
    ← List.getD_append _ more _ _ (Nat.lt_of_lt_of_le (by decide) hlength)] at hlonger
  refine checkExtensions_of_chain ?_ hlonger hexts
  rw [List.length_append]
  omega

theorem Packet.tryFrom_append {data : List UInt8} {p : Packet} (more : List UInt8)
    (h : Packet.tryFrom data = .ok p) :
    exists q, Packet.tryFrom (data ++ more) = .ok q ∧ q.bytes = data ++ more := by
  rcases Packet.tryFrom_eq_ok.mp h with ⟨rfl, hcheck⟩
  have hvalid : HeaderValid (p.bytes ++ more) :=
    ⟨p.getType, (checkHeader_append p.length_bytes).trans p.checkHeader_bytes⟩
  exact ⟨⟨_, hvalid⟩,
    Packet.tryFrom_eq_ok.mpr ⟨rfl, checkExtensions_append more hcheck⟩, rfl⟩

namespace Packet

structure SameHeader (p q : Packet) : Prop where
  packetType : q.getType = p.getType
  version : q.getVersion = p.getVersion
  extensionType : q.getExtensionType = p.getExtensionType
  field : forall f, q.getField f = p.getField f

theorem sameHeader_of_append {p q : Packet} {more : List UInt8}
    (h : q.bytes = p.bytes ++ more) : p.SameHeader q := by
  have hlength := p.length_bytes
  have hget : forall i, i < headerSize -> q.bytes[i]? = p.bytes[i]? := by
    intro i hi
    rw [h, List.getElem?_append_left (by omega)]
  constructor
  · apply getType_eq_of_checkHeader
    rw [h, checkHeader_append hlength]
    exact p.checkHeader_bytes
  · rw [getVersion, getVersion, List.getD, List.getD, hget 0 (by decide)]
  · rw [getExtensionType, getExtensionType, List.getD, List.getD, hget 1 (by decide)]
  · intro f
    have hfits := f.fits
    rw [getField, getField]
    congr 1
    apply List.ext_getElem?
    intro i
    rw [getElem?_readRange, getElem?_readRange]
    split
    · exact hget _ (by omega)
    · rfl

theorem HasChain.append {p q : Packet} {exts : List Extension}
    {payload more : List UInt8} (hchain : p.HasChain exts payload)
    (h : q.bytes = p.bytes ++ more) : q.HasChain exts (payload ++ more) := by
  have hlonger := Chain.append hchain more
  rw [← List.drop_append_of_le_length p.length_bytes, ← h,
    ← (sameHeader_of_append h).extensionType] at hlonger
  exact hlonger

structure LongerBy (p q : Packet) (more : List UInt8) : Prop where
  header : p.SameHeader q
  extensions : exists exts, p.extensions = .ok exts ∧ q.extensions = .ok exts
  payload : exists payload, p.payload = .ok payload ∧ q.payload = .ok (payload ++ more)

theorem tryFrom_append_longer {data : List UInt8} {p : Packet} (more : List UInt8)
    (h : Packet.tryFrom data = .ok p) :
    exists q, Packet.tryFrom (data ++ more) = .ok q ∧ p.LongerBy q more := by
  rcases tryFrom_append more h with ⟨q, hq, hbytes⟩
  rcases hasChain_of_tryFrom h with ⟨exts, payload, hchain, -⟩
  rw [← (tryFrom_eq_ok.mp h).1] at hbytes
  have hlonger := hchain.append hbytes
  exact ⟨q, hq, sameHeader_of_append hbytes,
    ⟨exts, hchain.extensions, hlonger.extensions⟩,
    payload, hchain.payload, hlonger.payload⟩

end Packet

/-!
## The whole slice
-/

/-- The slice is an accepted header, these well-formed blocks, and this
payload. -/
structure Grammar (buf : List UInt8) (exts : List Extension)
    (payload : List UInt8) : Prop where
  header : HeaderAccepted buf
  chain : Chain (.ofByte (buf.getD 1 0)) (buf.drop headerSize) exts payload
  wellFormed : forall e, e ∈ exts -> e.WellFormed

theorem Grammar.encode {buf payload : List UInt8} {exts : List Extension}
    (h : Grammar buf exts payload) :
    buf = buf.take headerSize ++ encodeBlocks exts ++ payload := by
  rw [List.append_assoc, ← h.chain.encode, List.take_append_drop]

theorem tryFrom_of_grammar {buf payload : List UInt8} {exts : List Extension}
    (h : Grammar buf exts payload) :
    exists p, Packet.tryFrom buf = .ok p := by
  have hcheck := checkExtensions_of_chain h.header.length_le h.chain h.wellFormed
  exact ⟨⟨buf, checkHeader_isOk.mpr h.header⟩, Packet.tryFrom_eq_ok.mpr ⟨rfl, hcheck⟩⟩

theorem grammar_of_tryFrom {buf : List UInt8} {p : Packet}
    (h : Packet.tryFrom buf = .ok p) :
    exists exts payload, Grammar buf exts payload ∧ p.HasChain exts payload := by
  rcases Packet.hasChain_of_tryFrom h with ⟨exts, payload, hchain, hexts⟩
  have hbytes := (Packet.tryFrom_eq_ok.mp h).1
  have hheader : HeaderAccepted buf := by
    rw [← hbytes]
    exact checkHeader_isOk.mp p.headerValid
  refine ⟨exts, payload, ⟨hheader, ?_, hexts⟩, hchain⟩
  rw [← hbytes]
  exact hchain

/-- The parser accepts exactly the grammar, and the readers of an accepted
packet agree with it. -/
theorem tryFrom_grammar (buf : List UInt8) :
    ((exists p, Packet.tryFrom buf = .ok p) <->
      exists exts payload, Grammar buf exts payload) ∧
    forall p, Packet.tryFrom buf = .ok p -> forall exts payload,
      Grammar buf exts payload ->
        p.extensions = .ok exts ∧ p.payload = .ok payload ∧
          buf = buf.take headerSize ++ encodeBlocks exts ++ payload := by
  constructor
  · constructor
    · intro hcase
      rcases hcase with ⟨p, hp⟩
      rcases grammar_of_tryFrom hp with ⟨exts, payload, hgrammar, -⟩
      exact ⟨exts, payload, hgrammar⟩
    · intro hcase
      rcases hcase with ⟨exts, payload, hgrammar⟩
      exact tryFrom_of_grammar hgrammar
  · intro p hp exts payload hgrammar
    have hbytes := (Packet.tryFrom_eq_ok.mp hp).1
    have hchain : p.HasChain exts payload := by
      have hgiven := hgrammar.chain
      rw [← hbytes] at hgiven
      exact hgiven
    exact ⟨hchain.extensions, hchain.payload, hgrammar.encode⟩

end Utp
