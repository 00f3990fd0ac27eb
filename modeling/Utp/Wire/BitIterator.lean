import Utp.Foundation.Iteration
import Utp.Wire.Basic

/-!
# Bits of a byte string

`bit_iterator.rs` walks the bits of a byte slice, least significant bit of the
first byte first.  It yields the list of all bits, and indexing never leaves the
slice; but it goes on reporting the size it had at first.
-/

namespace Utp

open Foundation

def u8Bits : Nat := 8

structure BitIterator where
  object : List UInt8
  nextIndex : Nat
  endIndex : Nat

def BitIterator.fromBytes (obj : List UInt8) : BitIterator where
  object := obj
  nextIndex := 0
  endIndex := obj.length * u8Bits

def countOnesOf (byte : UInt8) : UInt32 :=
  UInt32.ofNat byte.toBitVec.cpop.toNat

def BitIterator.countOnes (it : BitIterator) : Except Panic UInt32 :=
  it.object.foldlM (fun acc byte => addU32 acc (countOnesOf byte)) 0

def BitIterator.next (it : BitIterator) :
    Except Panic (Option Bool × BitIterator) :=
  if it.nextIndex ≠ it.endIndex then do
    let byte <- entryAt it.object (it.nextIndex / u8Bits)
    let bit := byte >>> UInt8.ofNat (it.nextIndex % u8Bits) &&& 0x1
    return (some (bit == 0x1), { it with nextIndex := it.nextIndex + 1 })
  else
    return (none, it)

def BitIterator.sizeHint (it : BitIterator) : Nat × Option Nat :=
  (it.endIndex, some it.endIndex)

/-- Call `next` until it yields nothing, at most `fuel` times. -/
def BitIterator.collect : Nat -> BitIterator -> Except Panic (List Bool)
  | 0, _ => .ok []
  | fuel + 1, it =>
      match it.next with
      | .error e => .error e
      | .ok (none, _) => .ok []
      | .ok (some bit, it') =>
          (BitIterator.collect fuel it').map (bit :: ·)

/-!
## The bits a slice holds
-/

/-- Bit `i` of a byte string, `false` past its end. -/
def bitAt (bs : List UInt8) (i : Nat) : Bool :=
  (bs.getD (i / 8) 0).toNat.testBit (i % 8)

def bits (bs : List UInt8) : List Bool :=
  (List.range (bs.length * 8)).map (bitAt bs)

@[simp] theorem length_bits (bs : List UInt8) :
    (bits bs).length = bs.length * 8 := by
  simp [bits]

theorem getElem?_bits {bs : List UInt8} {i : Nat} {b : Bool} :
    (bits bs)[i]? = some b <-> i < bs.length * 8 ∧ bitAt bs i = b := by
  simp [bits, List.getElem?_eq_some_iff]

theorem byte_shift_and_one (b : UInt8) (i : Nat) (hi : i < 8) :
    (b >>> UInt8.ofNat i &&& 0x1 == 0x1) = b.toNat.testBit i := by
  have hshift : (b >>> UInt8.ofNat i &&& 0x1).toNat = (b.toNat >>> i) % 2 := by
    have hi' : i % 256 % 8 = i := by omega
    simp [UInt8.toNat_and, UInt8.toNat_shiftRight, hi', Nat.and_one_is_mod]
  have htest : b.toNat.testBit i = decide ((b.toNat >>> i) % 2 = 1) := by
    rw [Nat.testBit, Nat.one_and_eq_mod_two, Nat.mod_two_bne_zero]
    rfl
  rw [htest, ← hshift, beq_eq_decide, decide_eq_decide]
  exact ⟨fun h => by rw [h]; rfl, fun h => UInt8.toNat_inj.mp h⟩

theorem BitIterator.next_of_lt {it : BitIterator}
    (hend : it.endIndex = it.object.length * 8)
    (hlt : it.nextIndex < it.endIndex) :
    it.next =
      .ok (some (bitAt it.object it.nextIndex),
        { it with nextIndex := it.nextIndex + 1 }) := by
  have hbyte : it.nextIndex / 8 < it.object.length := by omega
  have hentry : entryAt it.object (it.nextIndex / u8Bits) =
      .ok it.object[it.nextIndex / 8] :=
    entryAt_eq_ok.mpr (List.getElem?_eq_getElem hbyte)
  have hbit := byte_shift_and_one it.object[it.nextIndex / 8]
    (it.nextIndex % 8) (by omega)
  unfold BitIterator.next
  rw [if_pos (by omega), hentry]
  show Except.ok (some (_ == _), _) = _
  rw [show it.nextIndex % u8Bits = it.nextIndex % 8 from rfl, hbit]
  simp [bitAt, List.getD, List.getElem?_eq_getElem hbyte]

theorem BitIterator.yields_fromBytes (bs : List UInt8) :
    Yields BitIterator.next (BitIterator.fromBytes bs) (bits bs) := by
  have hitem : forall i b, (bits bs)[i]? = some b ->
      BitIterator.next { BitIterator.fromBytes bs with nextIndex := i } =
        .ok (some b, { BitIterator.fromBytes bs with nextIndex := i + 1 }) := by
    intro i b hb
    rcases getElem?_bits.mp hb with ⟨hlt, rfl⟩
    exact BitIterator.next_of_lt rfl hlt
  have hend : BitIterator.next
      { BitIterator.fromBytes bs with nextIndex := (bits bs).length } =
        .ok (none, { BitIterator.fromBytes bs with nextIndex := (bits bs).length }) := by
    rw [length_bits]
    exact if_neg (not_not.mpr rfl)
  exact yields_of_position hitem hend (Nat.zero_le _)

theorem BitIterator.collect_of_yields {it : BitIterator} {items : List Bool}
    (h : Yields BitIterator.next it items) {fuel : Nat} (hfuel : items.length <= fuel) :
    BitIterator.collect fuel it = .ok items := by
  induction h generalizing fuel with
  | done hend =>
      cases fuel with
      | zero => rfl
      | succ fuel => rw [BitIterator.collect, hend]
  | item hnext _ ih =>
      cases fuel with
      | zero => cases hfuel
      | succ fuel =>
          have hrest := ih (Nat.le_of_succ_le_succ hfuel)
          rw [BitIterator.collect, hnext]
          simp only [hrest, Except.map]

theorem BitIterator.collect_fromBytes {bs : List UInt8} {fuel : Nat}
    (hfuel : bs.length * 8 <= fuel) :
    BitIterator.collect fuel (BitIterator.fromBytes bs) = .ok (bits bs) := by
  apply BitIterator.collect_of_yields (BitIterator.yields_fromBytes bs)
  rw [length_bits]
  exact hfuel

/-!
## The size
-/

theorem BitIterator.endIndex_of_next {it it' : BitIterator} {item : Option Bool}
    (h : it.next = .ok (item, it')) : it'.endIndex = it.endIndex := by
  unfold BitIterator.next at h
  split at h
  · rcases bind_eq_ok.mp h with ⟨byte, -, h⟩
    cases h
    rfl
  · cases h
    rfl

theorem BitIterator.after_calls (obj : List UInt8) (k : Nat) :
    exists results it,
      nextCalls BitIterator.next k (BitIterator.fromBytes obj) = .ok (results, it) ∧
        Yields BitIterator.next it ((bits obj).drop k) ∧
        it.endIndex = obj.length * 8 := by
  rcases (BitIterator.yields_fromBytes obj).afterCalls k with
    ⟨results, it, hcalls, hleft⟩
  have hkept : forall (s : BitIterator) item s', s.endIndex = obj.length * 8 ->
      s.next = .ok (item, s') -> s'.endIndex = obj.length * 8 := by
    intro s item s' hs hnext
    rw [BitIterator.endIndex_of_next hnext, hs]
  have hend : (BitIterator.fromBytes obj).endIndex = obj.length * 8 := rfl
  exact ⟨results, it, hcalls, hleft, nextCalls_invariant hkept hend hcalls⟩

/-- Behind `k` calls, none of which aborts, the hint is exact and gives the number
of bits that were not asked for. -/
def BitIterator.HintHolds (obj : List UInt8) (k : Nat) : Prop :=
  exists results it,
    nextCalls BitIterator.next k (BitIterator.fromBytes obj) = .ok (results, it) ∧
      ExactSize BitIterator.next BitIterator.sizeHint it ∧
      it.sizeHint.1 = 8 * obj.length - k

/-- Any number of calls succeeds and leaves the bits that were not asked for; the
hint says how many these are exactly when there was no call or no bit. -/
theorem sizeHint_exact_iff (obj : List UInt8) (k : Nat) :
    (exists results it items,
      nextCalls BitIterator.next k (BitIterator.fromBytes obj) = .ok (results, it) ∧
        Yields BitIterator.next it items ∧ items.length = 8 * obj.length - k) ∧
      (BitIterator.HintHolds obj k <-> k = 0 ∨ obj = []) := by
  rcases BitIterator.after_calls obj k with ⟨results, it, hcalls, hleft, hend⟩
  have hlength : ((bits obj).drop k).length = 8 * obj.length - k := by
    rw [List.length_drop, length_bits, Nat.mul_comm]
  refine ⟨⟨results, it, _, hcalls, hleft, hlength⟩, ?_⟩
  have hhint : it.sizeHint = (8 * obj.length, some (8 * obj.length)) := by
    rw [BitIterator.sizeHint, hend, Nat.mul_comm]
  constructor
  · intro hholds
    rcases hholds with ⟨results', it', hcalls', hexact, -⟩
    cases hcalls.symm.trans hcalls'
    have hsame := hleft.exactSize_iff.mp hexact
    rw [hhint, hlength] at hsame
    have hcount : 8 * obj.length = 8 * obj.length - k := congrArg Prod.fst hsame
    have hcase : k = 0 ∨ obj.length = 0 := by omega
    exact hcase.imp_right List.eq_nil_of_length_eq_zero
  · intro hcase
    have hsame : 8 * obj.length - k = 8 * obj.length := by
      rcases hcase with rfl | rfl
      · rfl
      · exact Nat.zero_sub k
    refine ⟨results, it, hcalls, hleft.exactSize_iff.mpr ?_, ?_⟩
    · rw [hlength, hsame]
      exact hhint
    · rw [hhint, hsame]

/-- One call on a byte leaves seven bits, and the hint still says eight. -/
theorem sizeHint_after_first :
    exists it, nextCalls BitIterator.next 1 (BitIterator.fromBytes [0xCA]) =
        .ok ([some false], it) ∧
      Yields BitIterator.next it [true, false, true, false, false, true, true] ∧
      it.sizeHint = (8, some 8) ∧ ¬ BitIterator.HintHolds [0xCA] 1 := by
  rcases BitIterator.after_calls [0xCA] 1 with ⟨results, it, hcalls, hleft, -⟩
  have hcall : nextCalls BitIterator.next 1 (BitIterator.fromBytes [0xCA]) =
      .ok ([some false], ⟨[0xCA], 1, 8⟩) := rfl
  cases hcall.symm.trans hcalls
  refine ⟨_, hcall, hleft, rfl, ?_⟩
  intro hholds
  rcases hholds with ⟨results', it', hcalls', -, hcount⟩
  cases hcall.symm.trans hcalls'
  cases hcount

/-!
## Counting
-/

theorem cpopNatRec_eq_countP (x : BitVec 8) (n : Nat) :
    x.cpopNatRec n 0 = (List.range n).countP x.getLsbD := by
  induction n with
  | zero => rfl
  | succ n ih =>
      rw [BitVec.cpopNatRec_succ, BitVec.cpopNatRec_add, ih, List.range_succ,
        List.countP_append, List.countP_singleton]
      cases x.getLsbD n <;> rfl

theorem toNat_countOnesOf (byte : UInt8) :
    (countOnesOf byte).toNat = (List.range 8).countP byte.toNat.testBit := by
  have hle := byte.toBitVec.toNat_cpop_le
  have hcount : byte.toBitVec.cpop.toNat = (List.range 8).countP byte.toNat.testBit := by
    rw [BitVec.toNat_cpop]
    exact cpopNatRec_eq_countP byte.toBitVec 8
  rw [countOnesOf, UInt32.toNat_ofNat', Nat.mod_eq_of_lt (by omega), hcount]

theorem bits_cons (byte : UInt8) (bs : List UInt8) :
    bits (byte :: bs) = (List.range 8).map byte.toNat.testBit ++ bits bs := by
  have hfirst : (List.range 8).map (bitAt (byte :: bs)) =
      (List.range 8).map byte.toNat.testBit := by
    apply List.map_congr_left
    intro i hi
    have hi := List.mem_range.mp hi
    rw [bitAt, Nat.div_eq_of_lt hi, Nat.mod_eq_of_lt hi]
    rfl
  have hrest : forall i, bitAt (byte :: bs) (8 + i) = bitAt bs i := by
    intro i
    rw [bitAt, Nat.add_div_left i (by decide), Nat.add_mod_left]
    rfl
  rw [bits, List.length_cons, Nat.add_mul, Nat.one_mul, Nat.add_comm,
    List.range_add, List.map_append, hfirst, List.map_map, bits]
  congr 1
  exact List.map_congr_left fun i _ => hrest i

theorem foldlM_countOnes {bs : List UInt8} {acc total : UInt32} :
    bs.foldlM (fun acc byte => addU32 acc (countOnesOf byte)) acc = .ok total <->
      total.toNat = acc.toNat + (bits bs).count true := by
  induction bs generalizing acc with
  | nil =>
      change Except.ok acc = Except.ok total <-> total.toNat = acc.toNat + 0
      rw [Except.ok.injEq, ← UInt32.toNat_inj]
      omega
  | cons byte bs ih =>
      have hbyte : ((List.range 8).map byte.toNat.testBit).count true =
          (countOnesOf byte).toNat := by
        rw [toNat_countOnesOf, List.count, List.countP_map]
        congr 1
        funext i
        exact beq_true _
      rw [List.foldlM_cons, bind_eq_ok, bits_cons, List.count_append, hbyte]
      constructor
      · intro hcase
        rcases hcase with ⟨mid, hmid, htotal⟩
        have hmid := addU32_eq_ok.mp hmid
        have htotal := ih.mp htotal
        omega
      · intro htotal
        have hlt := total.toNat_lt
        have hmid : (UInt32.ofNat (acc.toNat + (countOnesOf byte).toNat)).toNat =
            acc.toNat + (countOnesOf byte).toNat := by
          rw [UInt32.toNat_ofNat', Nat.mod_eq_of_lt (by omega)]
        exact ⟨_, addU32_eq_ok.mpr hmid, ih.mpr (by omega)⟩

theorem BitIterator.countOnes_fromBytes {bs : List UInt8} {total : UInt32} :
    (BitIterator.fromBytes bs).countOnes = .ok total <->
      total.toNat = (bits bs).count true := by
  have hcount : (BitIterator.fromBytes bs).countOnes = .ok total <->
      total.toNat = (0 : UInt32).toNat + (bits bs).count true := foldlM_countOnes
  rw [hcount, UInt32.toNat_zero, Nat.zero_add]

end Utp
